import Mathlib

/-!
# Transfers in Parts

A loop that moves a number of units, with calls that each move a part of them.

A call is asked for all that is left, and moves as much as it is offered, but no
more than it was asked for. It may also end the loop, with the count so far or
with a failure that hides the count. What the calls come to is a list, one
outcome for each call, and a loop that has used up the list has not ended.

For a sequence without an end the loop ends if and only if some outcome does not
go on, or the offers add up to the whole (`ends_iff`). It fails with units moved
if and only if a failure comes behind an offer and before the whole is moved
(`accounted_iff`).

## Main definitions

* `Outcome`: What a call comes to.
* `offered`: The units offered.
* `transfer`: The loop.
* `first`: The first elements of a sequence.
* `FailsBehind`: A failure, and what stands before it.
* `Ends`: The outcomes with which the loop ends.
* `FailsAtOnce`: No failure comes behind an offer.
* `Accounted`: The loop ends, and if it fails nothing was moved.

## Theorems

* `transfer_bounds`: The count stays within the whole and within the offers.
* `transfer_ends_iff`: When the loop ends for a list.
* `transfer_failed_iff`: When it fails.
* `ends_iff`: When it ends for a sequence.
* `accounted_iff`: When a sequence is accounted for.
* `accounted_map_iff`: The same for what is made of the end of a loop.
* `ends_of_offers`, `not_ends_of_idle`: Offers of at least one, and of nothing.
-/

namespace EpollServer

namespace Partial

/-- What a call comes to. -/
inductive Outcome where
  /-- So many units could be moved. -/
  | offers (n : Nat)
  /-- The loop ends with its count. -/
  | stops
  /-- The loop ends without it. -/
  | fails
  deriving DecidableEq, Repr

/-- How a loop ends. -/
inductive Exit where
  | counted
  | failed
  deriving DecidableEq, Repr

/-- The units of a pass. -/
def Outcome.offer : Outcome → Nat
  | .offers n => n
  | _ => 0

/-- The loop goes on behind the pass. -/
def Outcome.goesOn : Outcome → Bool
  | .offers _ => true
  | _ => false

/-- The units offered. -/
def offered (outcomes : List Outcome) : Nat := (outcomes.map Outcome.offer).sum

/-- The loop, from a count on: how it ends, and the units moved by then. -/
def transfer (length : Nat) : Nat → List Outcome → Option (Exit × Nat)
  | total, [] => if total < length then none else some (.counted, total)
  | total, outcome :: outcomes =>
      if total < length then
        match outcome with
        | .offers n => transfer length (total + min n (length - total)) outcomes
        | .stops => some (.counted, total)
        | .fails => some (.failed, total)
      else some (.counted, total)

/-- The first elements of a sequence. -/
def first {α : Type*} (f : Nat → α) (N : Nat) : List α := (List.range N).map f

/-- The first of the outcomes that does not go on is a failure, and this is what
    stands before it. -/
def FailsBehind (outcomes front : List Outcome) : Prop :=
  (∀ o ∈ front, o.goesOn = true) ∧ ∃ rest, outcomes = front ++ .fails :: rest

/-- Some outcome does not go on, or the offers add up to the whole. -/
def Ends (length : Nat) (f : Nat → Outcome) : Prop :=
  (∃ i, (f i).goesOn = false) ∨ ∃ N, length ≤ offered (first f N)

/-- No failure comes behind an offer, before the whole is moved. -/
def FailsAtOnce (length : Nat) (f : Nat → Outcome) : Prop :=
  ∀ i, f i = .fails → (∀ j < i, (f j).goesOn = true) → offered (first f i) < length →
    offered (first f i) = 0

/-- The loop ends, and if it fails nothing was moved. -/
def Accounted (length : Nat) (f : Nat → Outcome) : Prop :=
  (∃ N r, transfer length 0 (first f N) = some r) ∧
    ∀ N n, transfer length 0 (first f N) = some (.failed, n) → n = 0

/-! ### Lists -/

@[simp] theorem offered_nil : offered [] = 0 := rfl

theorem offered_cons (outcome : Outcome) (outcomes : List Outcome) :
    offered (outcome :: outcomes) = outcome.offer + offered outcomes := by
  rw [offered, List.map_cons, List.sum_cons, offered]

theorem offered_append (l m : List Outcome) : offered (l ++ m) = offered l + offered m := by
  rw [offered, List.map_append, List.sum_append, offered, offered]

/-- With the whole moved the loop has ended. -/
theorem transfer_done {length total : Nat} (h : ¬ total < length) (outcomes : List Outcome) :
    transfer length total outcomes = some (.counted, total) := by
  cases outcomes with
  | nil => exact if_neg h
  | cons outcome outcomes => exact if_neg h

theorem transfer_offers {length total : Nat} (h : total < length) (n : Nat)
    (outcomes : List Outcome) : transfer length total (.offers n :: outcomes) =
      transfer length (total + min n (length - total)) outcomes :=
  if_pos h

theorem transfer_stops {length total : Nat} (h : total < length) (outcomes : List Outcome) :
    transfer length total (.stops :: outcomes) = some (.counted, total) :=
  if_pos h

theorem transfer_fails {length total : Nat} (h : total < length) (outcomes : List Outcome) :
    transfer length total (.fails :: outcomes) = some (.failed, total) :=
  if_pos h

/-- The count only grows, up to the whole and to what is offered. -/
theorem transfer_bounds {length : Nat} (outcomes : List Outcome) : ∀ {total : Nat} {r : Exit × Nat},
    total ≤ length → transfer length total outcomes = some r →
      total ≤ r.2 ∧ r.2 ≤ length ∧ r.2 ≤ total + offered outcomes := by
  induction outcomes with
  | nil =>
      intro total r hle h
      by_cases hmore : total < length
      · rw [transfer, if_pos hmore] at h
        simp only [reduceCtorEq] at h
      · rw [transfer_done hmore, Option.some.injEq] at h
        rw [← h]
        exact ⟨Nat.le_refl _, hle, Nat.le_add_right _ _⟩
  | cons outcome outcomes ih =>
      intro total r hle h
      -- Where the loop ends the count is the one so far.
      have hend : r.2 = total →
          total ≤ r.2 ∧ r.2 ≤ length ∧ r.2 ≤ total + offered (outcome :: outcomes) := by
        intro hr
        rw [hr]
        exact ⟨Nat.le_refl _, hle, Nat.le_add_right _ _⟩
      by_cases hmore : total < length
      · cases outcome with
        | offers n =>
            rw [transfer_offers hmore] at h
            have hbounds := ih (by omega) h
            rw [offered_cons, Outcome.offer]
            omega
        | stops =>
            rw [transfer_stops hmore, Option.some.injEq] at h
            exact hend (by rw [← h])
        | fails =>
            rw [transfer_fails hmore, Option.some.injEq] at h
            exact hend (by rw [← h])
      · rw [transfer_done hmore, Option.some.injEq] at h
        exact hend (by rw [← h])

/-- The loop ends if some outcome ends it, or the offers add up to the rest. -/
theorem transfer_ends_iff {length : Nat} (outcomes : List Outcome) : ∀ total : Nat,
    (∃ r, transfer length total outcomes = some r) ↔
      (∃ outcome ∈ outcomes, outcome.goesOn = false) ∨ length ≤ total + offered outcomes := by
  induction outcomes with
  | nil =>
      intro total
      by_cases hmore : total < length
      · rw [transfer, if_pos hmore, offered_nil]
        refine iff_of_false ?_ ?_
        · rintro ⟨_, h⟩
          simp only [reduceCtorEq] at h
        · rintro (⟨_, hmem, _⟩ | hle)
          · exact List.not_mem_nil hmem
          · omega
      · rw [transfer_done hmore]
        exact iff_of_true ⟨_, rfl⟩ (.inr (by omega))
  | cons outcome outcomes ih =>
      intro total
      by_cases hmore : total < length
      · rw [List.exists_mem_cons_iff, offered_cons]
        cases outcome with
        | offers n =>
            -- If the offer is more than what is left, both sides hold.
            rw [transfer_offers hmore, ih]
            simp only [Outcome.goesOn, Outcome.offer, Bool.true_eq_false, false_or]
            refine or_congr_right ?_
            omega
        | stops => exact iff_of_true ⟨_, transfer_stops hmore outcomes⟩ (.inl (.inl rfl))
        | fails => exact iff_of_true ⟨_, transfer_fails hmore outcomes⟩ (.inl (.inl rfl))
      · rw [transfer_done hmore]
        exact iff_of_true ⟨_, rfl⟩ (.inr (by omega))

theorem failsBehind_cons {outcome : Outcome} {outcomes front : List Outcome} :
    FailsBehind (outcome :: outcomes) front ↔
      (outcome = .fails ∧ front = []) ∨
        (outcome.goesOn = true ∧ ∃ front', FailsBehind outcomes front' ∧
          front = outcome :: front') := by
  unfold FailsBehind
  -- What is in front of the failure is empty, or begins with this outcome.
  cases front with
  | nil =>
      simp only [List.nil_append, List.cons.injEq, List.not_mem_nil, false_implies, implies_true,
        true_and, and_true, reduceCtorEq, and_false, exists_false, or_false]
      constructor
      · rintro ⟨_, heq, _⟩
        exact heq
      · intro heq
        exact ⟨outcomes, heq, rfl⟩
  | cons o front =>
      simp only [List.cons_append, List.cons.injEq, List.forall_mem_cons, reduceCtorEq, and_false,
        false_or]
      constructor
      · rintro ⟨⟨ho, hfront⟩, rest, rfl, hrest⟩
        exact ⟨ho, front, ⟨hfront, rest, hrest⟩, rfl, rfl⟩
      · rintro ⟨ho, _, ⟨hfront, rest, hrest⟩, rfl, rfl⟩
        exact ⟨⟨ho, hfront⟩, rest, rfl, hrest⟩

/-- The loop fails where the first outcome that does not go on is a failure, and
    the offers before it do not add up to the rest. -/
theorem transfer_failed_iff {length : Nat} (outcomes : List Outcome) : ∀ total n : Nat,
    transfer length total outcomes = some (.failed, n) ↔
      ∃ front, FailsBehind outcomes front ∧
        total + offered front < length ∧ n = total + offered front := by
  -- Induction on the outcomes, with the total so far.
  induction outcomes with
  | nil =>
      intro total n
      refine iff_of_false ?_ ?_
      · intro h
        rw [transfer] at h
        split at h <;> simp only [reduceCtorEq, Option.some.injEq, Prod.mk.injEq, false_and] at h
      · rintro ⟨front, ⟨_, rest, heq⟩, _⟩
        simp only [List.nil_eq, List.append_eq_nil_iff, reduceCtorEq, and_false] at heq
  | cons outcome outcomes ih =>
      intro total n
      by_cases hmore : total < length
      · simp only [failsBehind_cons]
        cases outcome with
        -- An outcome that goes on is added to the total on both sides.
        | offers k =>
            rw [transfer_offers hmore, ih]
            constructor
            · rintro ⟨front, hfront, hlt, rfl⟩
              refine ⟨_, .inr ⟨rfl, front, hfront, rfl⟩, ?_⟩
              rw [offered_cons, Outcome.offer]
              omega
            · rintro ⟨_, ⟨hfails, _⟩ | ⟨_, front, hfront, rfl⟩, hlt, rfl⟩
              · simp only [reduceCtorEq] at hfails
              · rw [offered_cons, Outcome.offer] at hlt ⊢
                exact ⟨front, hfront, by omega, by omega⟩
        | stops =>
            rw [transfer_stops hmore]
            refine iff_of_false ?_ ?_
            · simp only [Option.some.injEq, Prod.mk.injEq, reduceCtorEq, false_and,
                not_false_eq_true]
            · rintro ⟨_, ⟨hfails, _⟩ | ⟨hgoes, _⟩, _⟩
              · simp only [reduceCtorEq] at hfails
              · exact Bool.false_ne_true hgoes
        | fails =>
            rw [transfer_fails hmore]
            constructor
            · intro h
              simp only [Option.some.injEq, Prod.mk.injEq, true_and] at h
              exact ⟨[], .inl ⟨rfl, rfl⟩, hmore, h.symm⟩
            · rintro ⟨_, ⟨_, rfl⟩ | ⟨hgoes, _⟩, _, rfl⟩
              · rfl
              · exact absurd hgoes Bool.false_ne_true
      · rw [transfer_done hmore]
        refine iff_of_false ?_ ?_
        · simp only [Option.some.injEq, Prod.mk.injEq, reduceCtorEq, false_and, not_false_eq_true]
        · rintro ⟨front, _, hlt, _⟩
          omega

/-- A failure comes before the whole is moved. -/
theorem lt_of_failed {length total n : Nat} {outcomes : List Outcome}
    (h : transfer length total outcomes = some (.failed, n)) : n < length := by
  rcases (transfer_failed_iff outcomes total n).mp h with ⟨front, _, hlt, hn⟩
  omega

/-! ### Sequences -/

theorem length_first (f : Nat → Outcome) (N : Nat) : (first f N).length = N := by
  rw [first, List.length_map, List.length_range]

theorem mem_first {f : Nat → Outcome} {N : Nat} {o : Outcome} :
    o ∈ first f N ↔ ∃ i < N, f i = o := by
  simp only [first, List.mem_map, List.mem_range]

theorem map_first {α β : Type*} (g : α → β) (f : Nat → α) (N : Nat) :
    (first f N).map g = first (fun i => g (f i)) N :=
  List.map_map

theorem first_succ (f : Nat → Outcome) (N : Nat) : first f (N + 1) = first f N ++ [f N] := by
  rw [first, List.range_succ, List.map_append, List.map_singleton, first]

/-- What stands before an outcome of a sequence. -/
theorem front_of_first {f : Nat → Outcome} {N : Nat} {front rest : List Outcome} {o : Outcome}
    (heq : first f N = front ++ o :: rest) :
    front = first f front.length ∧ f front.length = o := by
  -- The list has this outcome at the length of its front.
  have hlength : N = front.length + (rest.length + 1) := by
    rw [← length_first f N, heq, List.length_append, List.length_cons]
  constructor
  · have htake := congrArg (List.take front.length) heq
    rw [List.take_left, first, ← List.map_take, List.take_range,
      Nat.min_eq_left (by omega)] at htake
    exact htake.symm
  · have hget := congrArg (fun l => l[front.length]?) heq
    simp only [first, List.getElem?_map, List.getElem?_append_right (Nat.le_refl _),
      Nat.sub_self, List.getElem?_cons_zero] at hget
    rw [List.getElem?_range (by omega)] at hget
    simpa only [Option.map_some, Option.some.injEq] using hget

/-- The loop ends for a sequence if and only if some outcome does not go on, or
    the offers add up to the whole. -/
theorem ends_iff {length : Nat} (f : Nat → Outcome) :
    (∃ N r, transfer length 0 (first f N) = some r) ↔ Ends length f := by
  simp only [transfer_ends_iff, Nat.zero_add, exists_or]
  refine or_congr_left ?_
  constructor
  · rintro ⟨N, o, ho, hoff⟩
    rcases mem_first.mp ho with ⟨i, _, rfl⟩
    exact ⟨i, hoff⟩
  · rintro ⟨i, hoff⟩
    exact ⟨i + 1, f i, mem_first.mpr ⟨i, Nat.lt_succ_self i, rfl⟩, hoff⟩

/-- A sequence fails with nothing moved if and only if no failure comes behind
    an offer. -/
theorem failsAtOnce_iff {length : Nat} (f : Nat → Outcome) :
    (∀ N n, transfer length 0 (first f N) = some (.failed, n) → n = 0) ↔
      FailsAtOnce length f := by
  -- A failing transfer is a first failure, with everything before it going on.
  simp only [transfer_failed_iff, Nat.zero_add]
  constructor
  · intro h i hfails hgoes hlt
    refine h (i + 1) _ ⟨first f i, ⟨?_, [], ?_⟩, hlt, rfl⟩
    · intro o ho
      rcases mem_first.mp ho with ⟨j, hj, rfl⟩
      exact hgoes j hj
    · rw [first_succ, hfails]
  · rintro h N n ⟨front, ⟨hgoes, rest, heq⟩, hlt, rfl⟩
    rcases front_of_first heq with ⟨hfront, hfails⟩
    rw [hfront] at hlt ⊢
    refine h front.length hfails ?_ hlt
    intro j hj
    rw [hfront] at hgoes
    exact hgoes (f j) (mem_first.mpr ⟨j, hj, rfl⟩)

/-- A sequence is accounted for if and only if the loop ends with it, and no
    failure comes behind an offer. -/
theorem accounted_iff {length : Nat} (f : Nat → Outcome) :
    Accounted length f ↔ Ends length f ∧ FailsAtOnce length f :=
  and_congr (ends_iff f) (failsAtOnce_iff f)

/-- What a loop makes of its ends is true of every one of them, if it is true of
    those that did not fail, and false of those that failed with units moved. -/
theorem accounted_map_iff {ρ : Type*} {length : Nat} (f : Nat → Outcome)
    (made : Nat → Exit × Nat → ρ) (P : Nat → ρ → Prop)
    (hP : ∀ N r, transfer length 0 (first f N) = some r →
      (P N (made N r) ↔ (r.1 = .failed → r.2 = 0))) :
    ((∃ N x, (transfer length 0 (first f N)).map (made N) = some x) ∧
        ∀ N x, (transfer length 0 (first f N)).map (made N) = some x → P N x) ↔
      Accounted length f := by
  refine and_congr ?_ ?_
  · simp only [Option.map_eq_some_iff]
    constructor
    · rintro ⟨N, x, r, hr, _⟩
      exact ⟨N, r, hr⟩
    · rintro ⟨N, r, hr⟩
      exact ⟨N, made N r, r, hr, rfl⟩
  · -- On every outcome sequence the result is the transfer's, dressed up by `made`.
    constructor
    · intro h N n hn
      have htrue := h N (made N (.failed, n)) (by rw [hn, Option.map_some])
      exact (hP N _ hn).mp htrue rfl
    · intro h N x hx
      rcases Option.map_eq_some_iff.mp hx with ⟨r, hr, rfl⟩
      refine (hP N r hr).mpr ?_
      intro hfailed
      refine h N r.2 ?_
      rw [hr, ← hfailed]

/-- If every offer is of at least one unit the loop ends. -/
theorem ends_of_offers {length : Nat} {f : Nat → Outcome}
    (h : ∀ i, (f i).goesOn = true → 1 ≤ (f i).offer) : Ends length f := by
  by_cases hoff : ∃ i, (f i).goesOn = false
  · exact .inl hoff
  · refine .inr ⟨length, ?_⟩
    simp only [not_exists, Bool.not_eq_false] at hoff
    -- Each outcome that goes on offers one at least, so `N` of them offer `N`.
    have hcount : ∀ N, N ≤ offered (first f N) := by
      intro N
      induction N with
      | zero => exact Nat.zero_le _
      | succ N ih =>
          have hone := h N (hoff N)
          rw [first_succ, offered_append, offered_cons, offered_nil]
          omega
    exact hcount length

/-- Offers of nothing do not end the loop. -/
theorem not_ends_of_idle {length : Nat} {f : Nat → Outcome} (hlength : 0 < length)
    (h : ∀ i, f i = .offers 0) : ¬ Ends length f := by
  -- Nothing is ever offered.
  have hcount : ∀ N, offered (first f N) = 0 := by
    intro N
    induction N with
    | zero => rfl
    | succ N ih =>
        rw [first_succ, offered_append, offered_cons, offered_nil, ih, h N]
        rfl
  rintro (⟨i, hoff⟩ | ⟨N, hN⟩)
  · rw [h i] at hoff
    exact absurd hoff.symm Bool.false_ne_true
  · rw [hcount N] at hN
    omega

/-- For at most one unit no failure can come behind an offer. -/
theorem failsAtOnce_of_le_one {length : Nat} (hlength : length ≤ 1) (f : Nat → Outcome) :
    FailsAtOnce length f := by
  intro i _ _ hlt
  omega

end Partial

end EpollServer
