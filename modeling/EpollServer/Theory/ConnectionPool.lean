import EpollServer.Lib.ListModify
import EpollServer.Core.ConnectionPool

/-!
# Leases and Recovery

Two results about the pool. No connection is ever in two hands, the pool
never owns more connections than its size, and none is handed out without
having been validated in the same call. And the pool gets smaller by each
connection that is dropped without another one in its place, so that it gives
a connection to a caller exactly while some place is left.

A step moves one call from one phase to another (`Turn`). What it does to the
connections is one of six things (`Effect`), what it does to the mutex one
of three (`Locking`), and it may note a validation or a return (`Noting`).
`step_cases` says so once for all steps, and every invariant is a case
analysis on these.

The number of places is the number of idle connections, plus one for each call
that has a connection or is making one, plus the number of dropped ones; it
never changes (`Kept.places`). With the mutex free no call is making one, so
the calls that count are those whose caller has a connection.

## Main definitions

* `Phase.connection`, `Phase.leased`: The connection a call has, and the one
  its caller has.
* `Turn`, `Moved`: What a step can be, and what it does.
* `Kept`: The invariant.
* `Alone`: The steps of one call, with everything succeeding.
* `Returns`, `Throws`: What a new call does when it runs alone.

## Theorems

* `turn_of_step`, `step_cases`: What a step can be, and what it does.
* `reaches_kept`: Every reachable state keeps the invariant.
* `leases_exclusive`: Leases are exclusive, bounded and validated.
* `returns_iff`: Where no other call is inside, a call returns a connection if
  and only if the queue is not empty.
* `recovers_iff`: And so if and only if fewer places were dropped than are not
  leased.
* `pool_exhausted`: A pool that a single outage has left empty.
-/

namespace EpollServer

namespace ConnectionPool

/-- The connection a call has taken from the queue. -/
def Phase.connection : Phase → Option Nat
  | .validating _ conn => some conn
  | .found conn => some conn
  | .holding conn => some conn
  | .returning conn => some conn
  | .rechecking conn => some conn
  | _ => none

/-- The connection the caller has. -/
def Phase.leased : Phase → Option Nat
  | .holding conn => some conn
  | .returning conn => some conn
  | .rechecking conn => some conn
  | _ => none

/-- The call is between `lock` and `unlock`. -/
def Phase.inside : Phase → Bool
  | .searching _ => true
  | .validating _ _ => true
  | .creating _ => true
  | .found _ => true
  | .rechecking _ => true
  | .replacing => true
  | _ => false

/-- The places a call takes up: one while it has a connection or makes one. -/
def Phase.place : Phase → Nat
  | .waiting _ => 0
  | .searching _ => 0
  | .done => 0
  | .failed => 0
  | _ => 1

/-- The connections all calls have. -/
def inUse (s : State) : List Nat := s.calls.filterMap Phase.connection

/-- The connections all callers have. -/
def leased (s : State) : List Nat := s.calls.filterMap Phase.leased

/-- The caller of call `k` has `conn`. -/
def Leased (s : State) (k conn : Nat) : Prop :=
  ∃ p, s.calls[k]? = some p ∧ p.leased = some conn

theorem connection_of_leased (p : Phase) (conn : Nat) (h : p.leased = some conn) :
    p.connection = some conn := by
  cases p <;> first | exact h | (simp only [Phase.leased, reduceCtorEq] at h)

theorem leased_le_place (p : Phase) : p.leased.toList.length ≤ p.place := by
  cases p <;> first | exact Nat.zero_le _ | exact Nat.le_refl 1

/-- Outside the critical sections only callers have connections. -/
theorem leased_eq_place (p : Phase) (h : p.inside = false) :
    p.leased.toList.length = p.place := by
  cases p <;> first | rfl | exact absurd h.symm Bool.false_ne_true

/-! ### What a step does -/

/-- What a step can be: a piece of a call, in the phase it belongs to. -/
inductive Turn (s : State) : Act → State → Prop where
  | getConnection : Turn s .getConnection { s with calls := s.calls ++ [.waiting 0] }
  | lock (k attempt : Nat) (free : s.mutex = none) (h : s.calls[k]? = some (.waiting attempt)) :
      Turn s (.lock k) { s.setCall k (.searching attempt) with mutex := some k }
  | relock (k conn : Nat) (free : s.mutex = none) (h : s.calls[k]? = some (.returning conn)) :
      Turn s (.lock k) { s.setCall k (.rechecking conn) with mutex := some k }
  | pass (k attempt : Nat) (h : s.calls[k]? = some (.searching attempt)) :
      Turn s (.pass k) (search k attempt s)
  | validate (k attempt conn : Nat) (validation : Validation)
      (h : s.calls[k]? = some (.validating attempt conn)) :
      Turn s (.validate k validation) (checkPopped k attempt conn validation s)
  | revalidate (k conn : Nat) (validation : Validation)
      (h : s.calls[k]? = some (.rechecking conn)) :
      Turn s (.validate k validation) (checkReturned k conn validation s)
  | create (k attempt : Nat) (connects : Nat → Connect)
      (h : s.calls[k]? = some (.creating attempt)) :
      Turn s (.create k connects) (refill k attempt (createNewConnection connects) s)
  | recreate (k : Nat) (connects : Nat → Connect) (h : s.calls[k]? = some .replacing) :
      Turn s (.create k connects) (replace k (createNewConnection connects) s)
  | handOut (k conn : Nat) (h : s.calls[k]? = some (.found conn)) :
      Turn s (.handOut k) (returnFound k conn s)
  | returnConnection (k conn : Nat) (h : s.calls[k]? = some (.holding conn)) :
      Turn s (.returnConnection k) (s.setCall k (.returning conn))

theorem turn_of_step (s t : State) (a : Act) (h : step s a = some t) : Turn s a t := by
  cases a <;> simp only [step] at h
  case getConnection =>
    rw [Option.some.injEq] at h
    rw [← h]
    exact .getConnection
  -- The phase of the call, and for `lock` the mutex, are what `split` has found.
  all_goals
    split at h <;> simp only [reduceCtorEq, Option.some.injEq] at h
    all_goals
      rw [← h]
      constructor <;> assumption

/-- What a step of a call from phase `p` to phase `p'` does to the
    connections. -/
inductive Effect (s t : State) (p p' : Phase) : Prop where
  | keep (connection : p'.connection = p.connection) (place : p'.place = p.place)
      (queue : t.connectionQueue = s.connectionQueue)
      (next : t.nextConnection = s.nextConnection) (dropped : t.dropped = s.dropped)
  | pop (conn : Nat) (before : p.connection = none) (connection : p'.connection = some conn)
      (place : p'.place = p.place + 1) (queue : s.connectionQueue = conn :: t.connectionQueue)
      (next : t.nextConnection = s.nextConnection) (dropped : t.dropped = s.dropped)
  | discard (connection : p'.connection = none) (place : p'.place = p.place)
      (queue : t.connectionQueue = s.connectionQueue)
      (next : t.nextConnection = s.nextConnection) (dropped : t.dropped = s.dropped)
  | lose (connection : p'.connection = none) (place : p'.place + 1 = p.place)
      (queue : t.connectionQueue = s.connectionQueue)
      (next : t.nextConnection = s.nextConnection) (dropped : t.dropped = s.dropped + 1)
  | push (conn : Nat) (before : p.connection = some conn) (connection : p'.connection = none)
      (place : p'.place + 1 = p.place)
      (queue : t.connectionQueue = s.connectionQueue ++ [conn])
      (next : t.nextConnection = s.nextConnection) (dropped : t.dropped = s.dropped)
  | fill (before : p.connection = none) (connection : p'.connection = none)
      (place : p'.place + 1 = p.place)
      (queue : t.connectionQueue = s.connectionQueue ++ [s.nextConnection])
      (next : t.nextConnection = s.nextConnection + 1) (dropped : t.dropped = s.dropped)

/-- What it does to the mutex. -/
inductive Locking (s t : State) (k : Nat) (p p' : Phase) : Prop where
  | lock (free : s.mutex = none) (mutex : t.mutex = some k)
  | keep (inside : p'.inside = p.inside) (mutex : t.mutex = s.mutex)
  | unlock (inside : p.inside = true) (outside : p'.inside = false) (mutex : t.mutex = none)

/-- What it notes. -/
inductive Noting (s t : State) (k : Nat) (p p' : Phase) : Prop where
  | nothing (found : ∀ conn, p' ≠ .found conn) (validated : t.validated = s.validated)
      (handedOut : t.handedOut = s.handedOut)
  | validation (conn : Nat) (found : p' = .found conn)
      (validated : t.validated = s.validated ++ [(k, conn)])
      (handedOut : t.handedOut = s.handedOut)
  | lease (conn : Nat) (found : p = .found conn) (holding : p' = .holding conn)
      (validated : t.validated = s.validated)
      (handedOut : t.handedOut = s.handedOut ++ [(k, conn)])

/-- One step of call `k` from phase `p` to phase `p'`. -/
structure Moved (s t : State) (k : Nat) (p p' : Phase) : Prop where
  before : s.calls[k]? = some p
  calls : t.calls = s.calls.modify k (fun _ => p')
  effect : Effect s t p p'
  locking : Locking s t k p p'
  noting : Noting s t k p p'

theorem moved_search (s : State) (k attempt : Nat) (h : s.calls[k]? = some (.searching attempt)) :
    ∃ p', Moved s (search k attempt s) k (.searching attempt) p' := by
  unfold search
  cases hq : s.connectionQueue with
  | cons conn rest =>
      exact ⟨.validating attempt conn, h, rfl, .pop conn rfl rfl rfl hq rfl rfl, .keep rfl rfl,
        .nothing (fun _ h => Phase.noConfusion h) rfl rfl⟩
  | nil =>
      -- It sleeps and tries again, or gives up.
      by_cases hlast : attempt < maxAttempts - 1
      · simp only [hlast, if_true]
        exact ⟨.waiting (attempt + 1), h, rfl, .keep rfl rfl rfl rfl rfl, .unlock rfl rfl rfl,
          .nothing (fun _ h => Phase.noConfusion h) rfl rfl⟩
      · simp only [hlast, if_false]
        exact ⟨.failed, h, rfl, .keep rfl rfl rfl rfl rfl, .unlock rfl rfl rfl,
          .nothing (fun _ h => Phase.noConfusion h) rfl rfl⟩

theorem moved_checkPopped (s : State) (k attempt conn : Nat) (validation : Validation)
    (h : s.calls[k]? = some (.validating attempt conn)) :
    ∃ p', Moved s (checkPopped k attempt conn validation s) k (.validating attempt conn) p' := by
  cases validation with
  | valid =>
      exact ⟨.found conn, h, rfl, .keep rfl rfl rfl rfl rfl, .keep rfl rfl,
        .validation conn rfl rfl rfl⟩
  | invalid =>
      exact ⟨.creating attempt, h, rfl, .discard rfl rfl rfl rfl rfl, .keep rfl rfl,
        .nothing (fun _ h => Phase.noConfusion h) rfl rfl⟩
  | exception =>
      -- It was popped, and nobody pushes it back.
      exact ⟨.failed, h, rfl, .lose rfl rfl rfl rfl rfl, .unlock rfl rfl rfl,
        .nothing (fun _ h => Phase.noConfusion h) rfl rfl⟩

theorem moved_refill (s : State) (k attempt : Nat) (created : Created)
    (h : s.calls[k]? = some (.creating attempt)) :
    ∃ p', Moved s (refill k attempt created s) k (.creating attempt) p' := by
  -- With a new connection or without one, the queue is looked at again.
  refine ⟨.searching attempt, ?_⟩
  cases created with
  | connection =>
      exact ⟨h, rfl, .fill rfl rfl rfl rfl rfl rfl, .keep rfl rfl,
        .nothing (fun _ h => Phase.noConfusion h) rfl rfl⟩
  | nullptr =>
      exact ⟨h, rfl, .lose rfl rfl rfl rfl rfl, .keep rfl rfl,
        .nothing (fun _ h => Phase.noConfusion h) rfl rfl⟩
  | exception =>
      exact ⟨h, rfl, .lose rfl rfl rfl rfl rfl, .keep rfl rfl,
        .nothing (fun _ h => Phase.noConfusion h) rfl rfl⟩

theorem moved_checkReturned (s : State) (k conn : Nat) (validation : Validation)
    (h : s.calls[k]? = some (.rechecking conn)) :
    ∃ p', Moved s (checkReturned k conn validation s) k (.rechecking conn) p' := by
  cases validation with
  | valid =>
      exact ⟨.done, h, rfl, .push conn rfl rfl rfl rfl rfl rfl, .unlock rfl rfl rfl,
        .nothing (fun _ h => Phase.noConfusion h) rfl rfl⟩
  | invalid =>
      exact ⟨.replacing, h, rfl, .discard rfl rfl rfl rfl rfl, .keep rfl rfl,
        .nothing (fun _ h => Phase.noConfusion h) rfl rfl⟩
  | exception =>
      exact ⟨.done, h, rfl, .lose rfl rfl rfl rfl rfl, .unlock rfl rfl rfl,
        .nothing (fun _ h => Phase.noConfusion h) rfl rfl⟩

theorem moved_replace (s : State) (k : Nat) (created : Created)
    (h : s.calls[k]? = some .replacing) :
    ∃ p', Moved s (replace k created s) k .replacing p' := by
  refine ⟨.done, ?_⟩
  -- A place is filled with the new connection, or it is lost.
  cases created with
  | connection =>
      exact ⟨h, rfl, .fill rfl rfl rfl rfl rfl rfl, .unlock rfl rfl rfl,
        .nothing (fun _ h => Phase.noConfusion h) rfl rfl⟩
  | nullptr =>
      exact ⟨h, rfl, .lose rfl rfl rfl rfl rfl, .unlock rfl rfl rfl,
        .nothing (fun _ h => Phase.noConfusion h) rfl rfl⟩
  | exception =>
      exact ⟨h, rfl, .lose rfl rfl rfl rfl rfl, .unlock rfl rfl rfl,
        .nothing (fun _ h => Phase.noConfusion h) rfl rfl⟩

/-- A step begins a call or moves one. -/
theorem step_cases (s t : State) (a : Act) (h : step s a = some t) :
    t = { s with calls := s.calls ++ [.waiting 0] } ∨ ∃ k p p', Moved s t k p p' := by
  -- Every step but a new call moves exactly one call.
  cases turn_of_step s t a h with
  | getConnection => exact Or.inl rfl
  | lock k attempt hfree hcall =>
      exact Or.inr ⟨k, _, .searching attempt, hcall, rfl, .keep rfl rfl rfl rfl rfl,
        .lock hfree rfl, .nothing (fun _ h => Phase.noConfusion h) rfl rfl⟩
  | relock k conn hfree hcall =>
      exact Or.inr ⟨k, _, .rechecking conn, hcall, rfl, .keep rfl rfl rfl rfl rfl,
        .lock hfree rfl, .nothing (fun _ h => Phase.noConfusion h) rfl rfl⟩
  | pass k attempt hcall => exact Or.inr ⟨k, _, moved_search s k attempt hcall⟩
  | validate k attempt conn validation hcall =>
      exact Or.inr ⟨k, _, moved_checkPopped s k attempt conn validation hcall⟩
  | revalidate k conn validation hcall =>
      exact Or.inr ⟨k, _, moved_checkReturned s k conn validation hcall⟩
  | create k attempt connects hcall => exact Or.inr ⟨k, _, moved_refill s k attempt _ hcall⟩
  | recreate k connects hcall => exact Or.inr ⟨k, _, moved_replace s k _ hcall⟩
  | handOut k conn hcall =>
      exact Or.inr ⟨k, _, .holding conn, hcall, rfl, .keep rfl rfl rfl rfl rfl,
        .unlock rfl rfl rfl, .lease conn rfl rfl rfl rfl⟩
  | returnConnection k conn hcall =>
      exact Or.inr ⟨k, _, .returning conn, hcall, rfl, .keep rfl rfl rfl rfl rfl,
        .keep rfl rfl, .nothing (fun _ h => Phase.noConfusion h) rfl rfl⟩

/-! ### The invariant -/

/-- What a pool of `n` places keeps: no connection is in two hands, those of
    the driver to come are in none, every place is accounted for, the mutex is
    held by the call that is inside, and a connection is validated before it is
    returned. -/
structure Kept (n : Nat) (s : State) : Prop where
  nodup : (s.connectionQueue ++ inUse s).Nodup
  known : ∀ conn ∈ s.connectionQueue ++ inUse s, conn < s.nextConnection
  places : s.connectionQueue.length + (s.calls.map Phase.place).sum + s.dropped = n
  locked : ∀ k p, s.calls[k]? = some p → p.inside = true → s.mutex = some k
  passed : ∀ k conn, s.calls[k]? = some (.found conn) → (k, conn) ∈ s.validated
  handed : ∀ lease ∈ s.handedOut, lease ∈ s.validated

/-- What the calls have after one of them has moved. -/
theorem inUse_moved (s t : State) (k : Nat) (p p' : Phase) (h : Moved s t k p p') :
    (p.connection.toList ++ inUse t).Perm (p'.connection.toList ++ inUse s) := by
  unfold inUse
  rw [h.calls]
  exact ListModify.filterMap_modify_perm Phase.connection (fun _ => p') h.before

/-- A step takes nothing from the driver, or the next connection. -/
theorem owned_moved (s t : State) (k : Nat) (p p' : Phase) (h : Moved s t k p p') :
    (t.nextConnection = s.nextConnection ∧
        (t.connectionQueue ++ inUse t).Subperm (s.connectionQueue ++ inUse s)) ∨
      (t.nextConnection = s.nextConnection + 1 ∧
        (t.connectionQueue ++ inUse t).Perm
          (s.nextConnection :: (s.connectionQueue ++ inUse s))) := by
  have huse := inUse_moved s t k p p' h
  -- Where a call gives its connection up, the others have what they had.
  have hless : p'.connection = none → (inUse t).Subperm (inUse s) := by
    intro hp'
    rw [hp', Option.toList_none, List.nil_append] at huse
    exact (List.sublist_append_right _ _).subperm.trans huse.subperm
  cases h.effect with
  | keep hconn _ hq hn _ =>
      rw [hconn] at huse
      have hsame : (inUse t).Perm (inUse s) := (List.perm_append_left_iff _).mp huse
      rw [hq]
      exact Or.inl ⟨hn, (hsame.append_left _).subperm⟩
  | pop conn hp hp' _ hq hn _ =>
      rw [hp, hp', Option.toList_none, List.nil_append, Option.toList_some,
        List.singleton_append] at huse
      rw [hq, List.cons_append]
      refine Or.inl ⟨hn, List.Perm.subperm ?_⟩
      exact (huse.append_left _).trans List.perm_middle
  | discard hp' _ hq hn _ =>
      rw [hq]
      exact Or.inl ⟨hn, (List.subperm_append_left _).mpr (hless hp')⟩
  | lose hp' _ hq hn _ =>
      rw [hq]
      exact Or.inl ⟨hn, (List.subperm_append_left _).mpr (hless hp')⟩
  | push conn hp hp' _ hq hn _ =>
      rw [hp, hp', Option.toList_none, List.nil_append, Option.toList_some,
        List.singleton_append] at huse
      rw [hq, List.append_assoc, List.singleton_append]
      exact Or.inl ⟨hn, (huse.append_left _).subperm⟩
  | fill hp hp' _ hq hn _ =>
      rw [hp, hp', Option.toList_none, List.nil_append, List.nil_append] at huse
      rw [hq, List.append_assoc, List.singleton_append]
      exact Or.inr ⟨hn, List.perm_middle.trans ((huse.append_left _).cons _)⟩

/-- The phase of a call after a step, if it is not the call that moved. -/
theorem call_moved (s t : State) (k j : Nat) (p p' q : Phase) (h : Moved s t k p p')
    (hq : t.calls[j]? = some q) : (j = k ∧ q = p') ∨ (j ≠ k ∧ s.calls[j]? = some q) := by
  rw [h.calls] at hq
  by_cases hj : j = k
  · rw [hj, List.getElem?_modify_eq, h.before, Option.map_eq_map, Option.map_some,
      Option.some.injEq] at hq
    exact Or.inl ⟨hj, hq.symm⟩
  · rw [List.getElem?_modify_ne _ _ (Ne.symm hj)] at hq
    exact Or.inr ⟨hj, hq⟩

theorem places_moved (s t : State) (k : Nat) (p p' : Phase) (h : Moved s t k p p') :
    t.connectionQueue.length + (t.calls.map Phase.place).sum + t.dropped =
      s.connectionQueue.length + (s.calls.map Phase.place).sum + s.dropped := by
  have hsum := ListModify.sum_modify Phase.place (fun _ => p') h.before
  rw [← h.calls] at hsum
  cases h.effect with
  | keep _ hplace hq _ hd => rw [hq, hd]; omega
  | pop conn _ _ hplace hq _ hd => rw [hq, hd, List.length_cons]; omega
  | discard _ hplace hq _ hd => rw [hq, hd]; omega
  | lose _ hplace hq _ hd => rw [hq, hd]; omega
  | push conn _ _ hplace hq _ hd => rw [hq, hd, List.length_append, List.length_singleton]; omega
  | fill _ _ hplace hq _ hd => rw [hq, hd, List.length_append, List.length_singleton]; omega

theorem locked_moved (s t : State) (k : Nat) (p p' : Phase) (h : Moved s t k p p')
    (hs : ∀ j q, s.calls[j]? = some q → q.inside = true → s.mutex = some j) :
    ∀ j q, t.calls[j]? = some q → q.inside = true → t.mutex = some j := by
  intro j q hq hinside
  cases h.locking with
  | lock hfree hmutex =>
      -- Nobody was inside.
      rcases call_moved s t k j p p' q h hq with ⟨hj, _⟩ | ⟨_, hold⟩
      · rw [hmutex, hj]
      · exact absurd (hfree.symm.trans (hs j q hold hinside)) (Option.some_ne_none j).symm
  | keep hsame hmutex =>
      rw [hmutex]
      rcases call_moved s t k j p p' q h hq with ⟨hj, heq⟩ | ⟨_, hold⟩
      · rw [hj]
        exact hs k p h.before (by rw [← hsame, ← heq]; exact hinside)
      · exact hs j q hold hinside
  | unlock hin hout _ =>
      -- Only the call that unlocks was inside.
      rcases call_moved s t k j p p' q h hq with ⟨_, heq⟩ | ⟨hne, hold⟩
      · rw [heq, hout] at hinside
        exact absurd hinside Bool.false_ne_true
      · have hk := hs k p h.before hin
        have hj := hs j q hold hinside
        exact absurd (Option.some.inj (hj.symm.trans hk)) hne

theorem passed_moved (s t : State) (k : Nat) (p p' : Phase) (h : Moved s t k p p')
    (hpassed : ∀ j conn, s.calls[j]? = some (.found conn) → (j, conn) ∈ s.validated) :
    ∀ j conn, t.calls[j]? = some (.found conn) → (j, conn) ∈ t.validated := by
  intro j conn hj
  -- A call that has just found its connection has validated it in this step.
  rcases call_moved s t k j p p' _ h hj with ⟨hjk, hfound⟩ | ⟨_, hold⟩
  · cases h.noting with
    | nothing hnot _ _ => exact absurd hfound.symm (hnot conn)
    | validation conn' hp' hv _ =>
        rw [← hfound] at hp'
        rw [hv, hjk, Phase.found.inj hp']
        exact List.mem_append_right _ List.mem_cons_self
    | lease conn' _ hp' _ _ =>
        -- A call that hands its connection out has none any more that it found.
        rw [← hfound] at hp'
        exact Phase.noConfusion hp'
  · cases h.noting with
    -- What the other calls found was validated before.
    | nothing _ hv _ => rw [hv]; exact hpassed j conn hold
    | validation conn' _ hv _ => rw [hv]; exact List.mem_append_left _ (hpassed j conn hold)
    | lease conn' _ _ hv _ => rw [hv]; exact hpassed j conn hold

theorem handed_moved (s t : State) (k : Nat) (p p' : Phase) (h : Moved s t k p p')
    (hpassed : ∀ j conn, s.calls[j]? = some (.found conn) → (j, conn) ∈ s.validated)
    (hhanded : ∀ lease ∈ s.handedOut, lease ∈ s.validated) :
    ∀ lease ∈ t.handedOut, lease ∈ t.validated := by
  intro lease hmem
  cases h.noting with
  | nothing _ hv hh =>
      rw [hh] at hmem
      rw [hv]
      exact hhanded lease hmem
  | validation conn _ hv hh =>
      rw [hh] at hmem
      rw [hv]
      exact List.mem_append_left _ (hhanded lease hmem)
  | lease conn hp _ hv hh =>
      rw [hh] at hmem
      rw [hv]
      -- What is handed out now was found by the call, and so it was validated.
      rcases List.mem_append.mp hmem with hold | hnew
      · exact hhanded lease hold
      · rw [List.mem_singleton.mp hnew]
        exact hpassed k conn (by rw [h.before, hp])

theorem kept_moved (n : Nat) (s t : State) (k : Nat) (p p' : Phase) (h : Moved s t k p p')
    (hs : Kept n s) : Kept n t := by
  refine ⟨?_, ?_, (places_moved s t k p p' h).trans hs.places,
    locked_moved s t k p p' h hs.locked, passed_moved s t k p p' h hs.passed,
    handed_moved s t k p p' h hs.passed hs.handed⟩
  · -- Nothing is new, or the connection is the next one of the driver.
    rcases owned_moved s t k p p' h with ⟨_, hsub⟩ | ⟨_, hperm⟩
    · rcases hsub with ⟨l, hperm, hsub⟩
      exact hperm.nodup_iff.mp (hs.nodup.sublist hsub)
    · -- The driver's next connection was in nobody's hands.
      refine hperm.nodup_iff.mpr (List.nodup_cons.mpr ⟨fun hmem => ?_, hs.nodup⟩)
      exact absurd (hs.known _ hmem) (Nat.lt_irrefl _)
  · intro conn hmem
    rcases owned_moved s t k p p' h with ⟨hnext, hsub⟩ | ⟨hnext, hperm⟩
    · rw [hnext]
      exact hs.known conn (hsub.subset hmem)
    · rw [hnext]
      rcases List.mem_cons.mp (hperm.subset hmem) with rfl | hold
      · exact Nat.lt_succ_self _
      · exact Nat.lt_succ_of_lt (hs.known conn hold)

/-- With a new call that waits, whatever else is said of a call is said of one
    that was there before. -/
theorem call_before (s : State) (k : Nat) (p : Phase) (hp : p ≠ .waiting 0)
    (hk : (s.calls ++ [.waiting 0])[k]? = some p) : s.calls[k]? = some p := by
  by_cases hlt : k < s.calls.length
  · rw [List.getElem?_append_left hlt] at hk
    exact hk
  · rw [List.getElem?_append_right (Nat.le_of_not_lt hlt)] at hk
    exact absurd (List.mem_singleton.mp (List.mem_of_getElem? hk)) hp

/-- A new call has no connection and is not inside. -/
theorem kept_getConnection (n : Nat) (s : State) (hs : Kept n s) :
    Kept n { s with calls := s.calls ++ [.waiting 0] } := by
  -- The new call has no connection.
  have huse : inUse { s with calls := s.calls ++ [.waiting 0] } = inUse s := by
    unfold inUse
    rw [List.filterMap_append]
    exact List.append_nil _
  refine ⟨?_, ?_, ?_, fun k p hk hin => ?_, fun k conn hk => ?_, hs.handed⟩
  · rw [huse]
    exact hs.nodup
  · rw [huse]
    exact hs.known
  · rw [List.map_append, List.sum_append]
    exact hs.places
  · refine hs.locked k p (call_before s k p (fun heq => ?_) hk) hin
    rw [heq] at hin
    exact absurd hin Bool.false_ne_true
  · exact hs.passed k conn (call_before s k _ (fun h => Phase.noConfusion h) hk)

theorem kept_step (n : Nat) (s t : State) (a : Act) (hs : Kept n s) (h : step s a = some t) :
    Kept n t := by
  rcases step_cases s t a h with rfl | ⟨k, p, p', hmoved⟩
  · exact kept_getConnection n s hs
  · exact kept_moved n s t k p p' hmoved hs

/-! ### The constructor -/

/-- A pool before its first call, with `n` places. -/
structure Built (n : Nat) (s : State) : Prop where
  calls : s.calls = []
  mutex : s.mutex = none
  queue : s.connectionQueue = List.range s.nextConnection
  places : s.connectionQueue.length + s.dropped = n
  handed : s.handedOut = []

theorem built_createConnection (n : Nat) (connects : Nat → Connect) (s t : State)
    (hs : Built n s) (h : createConnection connects s = some t) : Built (n + 1) t := by
  unfold createConnection at h
  have hplaces := hs.places
  split at h
  · -- A connection more, and a place more.
    rw [Option.some.injEq] at h
    rw [← h]
    refine ⟨hs.calls, hs.mutex, ?_, ?_, hs.handed⟩
    · simp only [State.pushNew, List.range_succ, hs.queue]
    · simp only [State.pushNew, List.length_append, List.length_singleton]
      omega
  · -- No connection, and a place that is dropped.
    rw [Option.some.injEq] at h
    rw [← h]
    refine ⟨hs.calls, hs.mutex, hs.queue, ?_, hs.handed⟩
    simp only [State.drop]
    omega
  · simp only [reduceCtorEq] at h

theorem built_createConnections (connects : Nat → Nat → Connect) :
    ∀ (remaining i n : Nat) (s t : State), Built n s →
      createConnections connects i remaining s = some t → Built (n + remaining) t := by
  intro remaining
  induction remaining with
  | zero =>
      intro i n s t hs h
      simp only [createConnections, Option.some.injEq] at h
      rw [← h]
      exact hs
  | succ m ih =>
      intro i n s t hs h
      -- If one attempt ends with an exception, there is no pool.
      simp only [createConnections] at h
      split at h
      · simp only [reduceCtorEq] at h
      · rename_i u hu
        have hbuilt := ih (i + 1) (n + 1) u t (built_createConnection n _ s u hs hu) h
        have hsum : n + 1 + m = n + (m + 1) := by omega
        rw [← hsum]
        exact hbuilt

theorem built_construct (poolSize : Int) (connects : Nat → Nat → Connect) (s : State)
    (h : construct poolSize connects = some s) : Built poolSize.toNat s := by
  have hbuilt := built_createConnections connects poolSize.toNat 0 0 _ s
    ⟨rfl, rfl, rfl, rfl, rfl⟩ h
  rw [Nat.zero_add] at hbuilt
  exact hbuilt

theorem kept_of_built (n : Nat) (s : State) (hs : Built n s) : Kept n s := by
  have hplaces := hs.places
  -- Nothing is in use before the first call.
  have huse : s.connectionQueue ++ inUse s = List.range s.nextConnection := by
    unfold inUse
    rw [hs.calls, hs.queue]
    exact List.append_nil _
  refine ⟨?_, ?_, ?_, fun k p hk => ?_, fun k conn hk => ?_, fun lease hmem => ?_⟩
  · rw [huse]
    exact List.nodup_range
  · rw [huse]
    exact fun conn hmem => List.mem_range.mp hmem
  · rw [hs.calls]
    exact hplaces
  · rw [hs.calls] at hk
    simp only [List.getElem?_nil, reduceCtorEq] at hk
  · rw [hs.calls] at hk
    simp only [List.getElem?_nil, reduceCtorEq] at hk
  · rw [hs.handed] at hmem
    exact absurd hmem List.not_mem_nil

/-- Every reachable state keeps the invariant. -/
theorem reaches_kept (poolSize : Int) (connects : Nat → Nat → Connect) (s0 s : State)
    (h0 : construct poolSize connects = some s0) (h : machine.Reaches s0 s) :
    Kept poolSize.toNat s :=
  Machine.invariant h (kept_of_built _ s0 (built_construct poolSize connects s0 h0))
    (fun t a u ht _ hstep => kept_step _ t u a ht hstep)

/-! ### Leases -/

theorem mem_inUse_of_leased (s : State) (k conn : Nat) (h : Leased s k conn) : conn ∈ inUse s := by
  rcases h with ⟨p, hp, hleased⟩
  exact List.mem_filterMap.mpr
    ⟨p, List.mem_of_getElem? hp, connection_of_leased p conn hleased⟩

/-- Every reachable state of the pool, for any size, any number of calls and
    whatever the database does: no connection is idle twice, idle and leased,
    or leased to two callers, there are no more of them than places, and each
    that was handed out had been validated in the same call. -/
theorem leases_exclusive (poolSize : Int) (connects : Nat → Nat → Connect) (s0 s : State)
    (h0 : construct poolSize connects = some s0) (h : machine.Reaches s0 s) :
    s.connectionQueue.Nodup ∧
      (∀ k conn, Leased s k conn → conn ∉ s.connectionQueue) ∧
      (∀ j k conn, Leased s j conn → Leased s k conn → j = k) ∧
      ((s.connectionQueue.length + (leased s).length : Nat) : Int) ≤ max poolSize 0 ∧
      (∀ k conn, (k, conn) ∈ s.handedOut → (k, conn) ∈ s.validated) := by
  have hkept := reaches_kept poolSize connects s0 s h0 h
  -- What is idle and what is in use together have no connection twice.
  rcases List.nodup_append.mp hkept.nodup with ⟨hqueue, huse, hdisjoint⟩
  refine ⟨hqueue, fun k conn hk hidle => ?_, fun j k conn hj hk => ?_, ?_,
    fun k conn hmem => hkept.handed _ hmem⟩
  · exact hdisjoint conn hidle conn (mem_inUse_of_leased s k conn hk) rfl
  · rcases hj with ⟨p, hp, hpl⟩
    rcases hk with ⟨q, hq, hql⟩
    exact ListModify.index_unique Phase.connection conn s.calls j k p q huse hp hq
      (connection_of_leased p conn hpl) (connection_of_leased q conn hql)
  · -- A leased connection takes up a place, so there are no more than places.
    have hplaces := hkept.places
    have hle : (leased s).length ≤ (s.calls.map Phase.place).sum :=
      ListModify.length_filterMap_le_sum Phase.leased Phase.place leased_le_place s.calls
    omega

/-! ### A call that runs alone -/

/-- Steps of call `k` only, with every `SELECT 1` and every connect
    succeeding. -/
def Alone (k : Nat) : State → Act → Prop
  | _, .lock j => j = k
  | _, .pass j => j = k
  | _, .validate j validation => j = k ∧ validation = .valid
  | _, .create j connects => j = k ∧ ∀ i, connects i = .connected
  | _, .handOut j => j = k
  | _, _ => False

/-- A new call of `getConnection`. -/
def called (s : State) : State := { s with calls := s.calls ++ [.waiting 0] }

/-- A new call that runs alone returns a connection it has validated. -/
def Returns (s : State) : Prop :=
  ∃ t conn, machine.ReachesBy (Alone s.calls.length) (called s) t ∧
    t.calls[s.calls.length]? = some (.holding conn) ∧ (s.calls.length, conn) ∈ t.validated

/-- A new call that runs alone throws. -/
def Throws (s : State) : Prop :=
  ∃ t, machine.ReachesBy (Alone s.calls.length) (called s) t ∧
    t.calls[s.calls.length]? = some .failed

/-- Where the call is, and the queue and the mutex then. -/
structure At (s : State) (k : Nat) (p : Phase) (queue : List Nat) (mutex : Option Nat) : Prop where
  call : s.calls[k]? = some p
  queue : s.connectionQueue = queue
  mutex : s.mutex = mutex

theorem at_called (s : State) (hmutex : s.mutex = none) :
    At (called s) s.calls.length (.waiting 0) s.connectionQueue none := by
  refine ⟨?_, rfl, hmutex⟩
  rw [called, List.getElem?_append_right (Nat.le_refl _), Nat.sub_self, List.getElem?_cons_zero]

theorem call_setCall (s : State) (k : Nat) (p p' : Phase) (h : s.calls[k]? = some p) :
    (s.setCall k p').calls[k]? = some p' := by
  rw [State.setCall, List.getElem?_modify_eq, h, Option.map_eq_map, Option.map_some]

theorem lock_alone (s : State) (k attempt : Nat) (queue : List Nat)
    (h : At s k (.waiting attempt) queue none) :
    ∃ t, machine.ReachesBy (Alone k) s t ∧ At t k (.searching attempt) queue (some k) := by
  refine ⟨{ s.setCall k (.searching attempt) with mutex := some k },
    Machine.reachesBy_of_step (a := Act.lock k) rfl ?_, ?_, h.queue, rfl⟩
  · simp only [machine, step, h.mutex, h.call]
  · exact call_setCall s k _ _ h.call

/-- An attempt on an empty queue. -/
theorem attempt_empty (s : State) (k attempt : Nat) (h : At s k (.waiting attempt) [] none) :
    ∃ t, machine.ReachesBy (Alone k) s t ∧
      At t k (if attempt < maxAttempts - 1 then .waiting (attempt + 1) else .failed) [] none := by
  rcases lock_alone s k attempt [] h with ⟨t, ht, hat⟩
  have hpass : machine.step t (.pass k) = some (search k attempt t) := by
    simp only [machine, step, hat.call]
  refine ⟨_, Machine.ReachesBy.step t _ (.pass k) ht rfl hpass, ?_⟩
  simp only [search, hat.queue]
  by_cases hlast : attempt < maxAttempts - 1
  · simp only [hlast, if_true]
    exact ⟨call_setCall t k _ _ hat.call, hat.queue, rfl⟩
  · simp only [hlast, if_false]
    exact ⟨call_setCall t k _ _ hat.call, hat.queue, rfl⟩

theorem take_alone (s : State) (k attempt conn : Nat) (rest : List Nat)
    (h : At s k (.searching attempt) (conn :: rest) (some k)) :
    ∃ t, machine.ReachesBy (Alone k) s t ∧ t.calls[k]? = some (.validating attempt conn) := by
  have hpass : machine.step s (.pass k) = some (search k attempt s) := by
    simp only [machine, step, h.call]
  refine ⟨_, Machine.reachesBy_of_step (a := Act.pass k) rfl hpass, ?_⟩
  simp only [search, h.queue]
  exact call_setCall { s with connectionQueue := rest } k _ _ h.call

theorem validate_alone (s : State) (k attempt conn : Nat)
    (h : s.calls[k]? = some (.validating attempt conn)) :
    ∃ t, machine.ReachesBy (Alone k) s t ∧ t.calls[k]? = some (.found conn) ∧
      (k, conn) ∈ t.validated := by
  have hvalidate : machine.step s (.validate k .valid) =
      some (checkPopped k attempt conn .valid s) := by
    simp only [machine, step, h]
  exact ⟨_, Machine.reachesBy_of_step (a := Act.validate k .valid) ⟨rfl, rfl⟩ hvalidate,
    call_setCall { s with validated := s.validated ++ [(k, conn)] } k _ _ h,
    List.mem_append_right _ List.mem_cons_self⟩

theorem return_alone (s : State) (k conn : Nat) (h : s.calls[k]? = some (.found conn)) :
    ∃ t, machine.ReachesBy (Alone k) s t ∧ t.calls[k]? = some (.holding conn) ∧
      t.validated = s.validated := by
  have hreturn : machine.step s (.handOut k) = some (returnFound k conn s) := by
    simp only [machine, step, h]
  exact ⟨_, Machine.reachesBy_of_step (a := Act.handOut k) rfl hreturn,
    call_setCall { s with handedOut := s.handedOut ++ [(k, conn)] } k _ _ h, rfl⟩

/-- With an idle connection a call returns it. -/
theorem returns_of_idle (s : State) (hmutex : s.mutex = none) (hidle : s.connectionQueue ≠ []) :
    Returns s := by
  rcases List.exists_cons_of_ne_nil hidle with ⟨conn, rest, hqueue⟩
  have hat := at_called s hmutex
  rw [hqueue] at hat
  rcases lock_alone _ _ _ _ hat with ⟨t, ht, hsearching⟩
  rcases take_alone t _ _ conn rest hsearching with ⟨u, hu, hvalidating⟩
  rcases validate_alone u _ _ conn hvalidating with ⟨v, hv, hfound, hvalid⟩
  rcases return_alone v _ conn hfound with ⟨w, hw, hholding, hsame⟩
  refine ⟨w, conn, ?_, hholding, by rw [hsame]; exact hvalid⟩
  exact Machine.reachesBy_trans (Machine.reachesBy_trans ht hu) (Machine.reachesBy_trans hv hw)

/-- Without one it throws after three attempts. -/
theorem throws_of_empty (s : State) (hmutex : s.mutex = none) (hempty : s.connectionQueue = []) :
    Throws s := by
  have hat := at_called s hmutex
  rw [hempty] at hat
  rcases attempt_empty _ _ _ hat with ⟨t1, ht1, hat1⟩
  rcases attempt_empty t1 _ 1 hat1 with ⟨t2, ht2, hat2⟩
  rcases attempt_empty t2 _ 2 hat2 with ⟨t3, ht3, hat3⟩
  exact ⟨t3, Machine.reachesBy_trans (Machine.reachesBy_trans ht1 ht2) ht3, hat3.call⟩

/-- What a step of a call that runs alone can be. The last case is a call that
    has a bad connection or gives one back. -/
theorem alone_cases (s t : State) (k : Nat) (a : Act) (p : Phase) (ha : Alone k s a)
    (hp : s.calls[k]? = some p) (h : step s a = some t) :
    (∃ n, s.mutex = none ∧ p = .waiting n ∧
        t = { s.setCall k (.searching n) with mutex := some k }) ∨
      (∃ n, p = .searching n ∧ t = search k n s) ∨
      (∃ n conn, p = .validating n conn ∧ t = checkPopped k n conn .valid s) ∨
      (∃ conn, p = .found conn ∧ t = returnFound k conn s) ∨
      (∃ conn, p = .returning conn ∨ p = .rechecking conn) ∨ (∃ n, p = .creating n) ∨
      p = .replacing := by
  -- A call is in one place only.
  have hphase : ∀ q, s.calls[k]? = some q → p = q := fun q hq => Option.some.inj (hp.symm.trans hq)
  cases turn_of_step s t a h with
  -- Call `k` begins no other call, and returns no connection.
  | getConnection => exact absurd ha not_false
  | returnConnection => exact absurd ha not_false
  | lock j n hfree hcall =>
      have hj : j = k := ha
      subst hj
      exact Or.inl ⟨n, hfree, hphase _ hcall, rfl⟩
  | pass j n hcall =>
      have hj : j = k := ha
      subst hj
      exact Or.inr (Or.inl ⟨n, hphase _ hcall, rfl⟩)
  | validate j n conn validation hcall =>
      rcases ha with ⟨rfl, rfl⟩
      exact Or.inr (Or.inr (Or.inl ⟨n, conn, hphase _ hcall, rfl⟩))
  | handOut j conn hcall =>
      have hj : j = k := ha
      subst hj
      exact Or.inr (Or.inr (Or.inr (Or.inl ⟨conn, hphase _ hcall, rfl⟩)))
  | relock j conn hfree hcall =>
      have hj : j = k := ha
      subst hj
      exact Or.inr (Or.inr (Or.inr (Or.inr (Or.inl ⟨conn, Or.inl (hphase _ hcall)⟩))))
  | revalidate j conn validation hcall =>
      rcases ha with ⟨rfl, _⟩
      exact Or.inr (Or.inr (Or.inr (Or.inr (Or.inl ⟨conn, Or.inr (hphase _ hcall)⟩))))
  | create j n connects hcall =>
      rcases ha with ⟨rfl, _⟩
      exact Or.inr (Or.inr (Or.inr (Or.inr (Or.inr (Or.inl ⟨n, hphase _ hcall⟩)))))
  | recreate j connects hcall =>
      rcases ha with ⟨rfl, _⟩
      exact Or.inr (Or.inr (Or.inr (Or.inr (Or.inr (Or.inr (hphase _ hcall))))))

/-- A call that has a connection in reach, or has it already. -/
def Phase.Lucky (idle : Prop) : Phase → Prop
  | .waiting _ => idle
  | .searching _ => idle
  | .validating _ _ => True
  | .found _ => True
  | .holding _ => True
  | _ => False

/-- A call that has none in reach. -/
def Phase.Unlucky (empty : Prop) : Phase → Prop
  | .waiting _ => empty
  | .searching _ => empty
  | .failed => True
  | _ => False

theorem lucky_step (s t : State) (k : Nat) (a : Act) (ha : Alone k s a)
    (hs : ∃ p, s.calls[k]? = some p ∧ p.Lucky (s.connectionQueue ≠ []))
    (h : step s a = some t) : ∃ p, t.calls[k]? = some p ∧ p.Lucky (t.connectionQueue ≠ []) := by
  rcases hs with ⟨p, hp, hlucky⟩
  -- Alone, the call is at one of the places of its search or behind it.
  rcases alone_cases s t k a p ha hp h with ⟨n, _, rfl, rfl⟩ | ⟨n, rfl, rfl⟩ |
    ⟨n, conn, rfl, rfl⟩ | ⟨conn, rfl, rfl⟩ | ⟨conn, rfl | rfl⟩ | ⟨n, rfl⟩ | rfl
  · exact ⟨_, call_setCall s k _ _ hp, hlucky⟩
  · rcases List.exists_cons_of_ne_nil hlucky with ⟨conn, rest, hqueue⟩
    refine ⟨.validating n conn, ?_, trivial⟩
    simp only [search, hqueue]
    exact call_setCall { s with connectionQueue := rest } k _ _ hp
  · exact ⟨_, call_setCall { s with validated := s.validated ++ [(k, conn)] } k _ _ hp, trivial⟩
  · exact ⟨_, call_setCall { s with handedOut := s.handedOut ++ [(k, conn)] } k _ _ hp, trivial⟩
  all_goals exact absurd hlucky not_false

theorem unlucky_step (s t : State) (k : Nat) (a : Act) (ha : Alone k s a)
    (hs : ∃ p, s.calls[k]? = some p ∧ p.Unlucky (s.connectionQueue = []))
    (h : step s a = some t) : ∃ p, t.calls[k]? = some p ∧ p.Unlucky (t.connectionQueue = []) := by
  rcases hs with ⟨p, hp, hunlucky⟩
  -- Alone, the call is at one of the places of its search or behind it.
  rcases alone_cases s t k a p ha hp h with ⟨n, _, rfl, rfl⟩ | ⟨n, rfl, rfl⟩ |
    ⟨n, conn, rfl, rfl⟩ | ⟨conn, rfl, rfl⟩ | ⟨conn, rfl | rfl⟩ | ⟨n, rfl⟩ | rfl
  · exact ⟨_, call_setCall s k _ _ hp, hunlucky⟩
  · have hqueue : s.connectionQueue = [] := hunlucky
    simp only [search, hqueue]
    by_cases hlast : n < maxAttempts - 1
    · simp only [hlast, if_true]
      exact ⟨_, call_setCall s k _ _ hp, hqueue⟩
    · simp only [hlast, if_false]
      exact ⟨_, call_setCall s k _ _ hp, trivial⟩
  all_goals exact absurd hunlucky not_false

/-- While another call is inside, a new one does not get on. -/
theorem free_of_alone (s t : State) (p : Phase) (hp : ∀ n, p ≠ .waiting n)
    (h : machine.ReachesBy (Alone s.calls.length) (called s) t)
    (ht : t.calls[s.calls.length]? = some p) : s.mutex = none := by
  by_contra hmutex
  have hcall : (called s).calls[s.calls.length]? = some (.waiting 0) := by
    rw [called, List.getElem?_append_right (Nat.le_refl _), Nat.sub_self, List.getElem?_cons_zero]
  -- The call waits for the mutex, and none of its steps is possible.
  have hstays : t = called s := by
    refine Machine.invariant (I := fun u => u = called s) h rfl (fun u a v hu ha hstep => ?_)
    rw [hu] at hstep ha
    rcases alone_cases _ v _ a _ ha hcall hstep with ⟨_, hfree, _⟩ | ⟨_, hn, _⟩ | ⟨_, _, hn, _⟩ |
      ⟨_, hn, _⟩ | ⟨_, hn | hn⟩ | ⟨_, hn⟩ | hn
    · exact absurd hfree hmutex
    all_goals exact Phase.noConfusion hn
  rw [hstays, hcall, Option.some.injEq] at ht
  exact hp 0 ht.symm

/-- Where no other call is inside, a call returns a connection if and only if
    the queue is not empty, and throws if and only if it is. -/
theorem returns_iff (s : State) :
    (Returns s ↔ s.mutex = none ∧ s.connectionQueue ≠ []) ∧
      (Throws s ↔ s.mutex = none ∧ s.connectionQueue = []) := by
  refine ⟨⟨?_, fun h => returns_of_idle s h.1 h.2⟩, ⟨?_, fun h => throws_of_empty s h.1 h.2⟩⟩
  · rintro ⟨t, conn, ht, hholding, _⟩
    have hmutex := free_of_alone s t _ (fun _ h => Phase.noConfusion h) ht hholding
    refine ⟨hmutex, fun hempty => ?_⟩
    -- Alone on an empty queue a call never comes to a connection.
    rcases Machine.invariant ht ⟨_, (at_called s hmutex).call, hempty⟩
      (fun u a v hu ha h => unlucky_step u v _ a ha hu h) with ⟨p, hp, hunlucky⟩
    rw [Option.some.inj (hp.symm.trans hholding)] at hunlucky
    exact hunlucky
  · rintro ⟨t, ht, hfailed⟩
    have hmutex := free_of_alone s t _ (fun _ h => Phase.noConfusion h) ht hfailed
    refine ⟨hmutex, ?_⟩
    by_contra hidle
    -- Alone on a queue that is not empty it never comes to throw.
    rcases Machine.invariant ht ⟨_, (at_called s hmutex).call, hidle⟩
      (fun u a v hu ha h => lucky_step u v _ a ha hu h) with ⟨p, hp, hlucky⟩
    rw [Option.some.inj (hp.symm.trans hfailed)] at hlucky
    exact hlucky

/-- With the mutex free every place is idle, leased or dropped. -/
theorem places_free (n : Nat) (s : State) (hs : Kept n s) (hmutex : s.mutex = none) :
    s.connectionQueue.length + (leased s).length + s.dropped = n := by
  have hplaces := hs.places
  have hsum : (leased s).length = (s.calls.map Phase.place).sum := by
    refine ListModify.length_filterMap_eq_sum Phase.leased Phase.place s.calls (fun p hp => ?_)
    rcases List.getElem?_of_mem hp with ⟨k, hk⟩
    refine leased_eq_place p (Bool.eq_false_iff.mpr fun hinside => ?_)
    exact absurd (hmutex.symm.trans (hs.locked k p hk hinside)) (Option.some_ne_none k).symm
  omega

/-- In every reachable state of a pool with fewer connections leased than it
    has places: a call that runs alone, with the database back, returns a valid
    connection if and only if no other call is inside and fewer places were
    dropped than are not leased. Otherwise it throws, or waits for the other
    call. -/
theorem recovers_iff (poolSize : Int) (connects : Nat → Nat → Connect) (s0 s : State)
    (h0 : construct poolSize connects = some s0) (h : machine.Reaches s0 s)
    (hleased : ((leased s).length : Int) < poolSize) :
    (Returns s ↔
        s.mutex = none ∧ ((leased s).length + s.dropped : Nat) < poolSize) ∧
      (Throws s ↔
        s.mutex = none ∧ ¬ ((leased s).length + s.dropped : Nat) < poolSize) := by
  -- With the mutex free the queue holds what is neither leased nor dropped.
  have hlen : s.mutex = none →
      (s.connectionQueue = [] ↔ ¬ ((leased s).length + s.dropped : Nat) < poolSize) := by
    intro hmutex
    have hplaces := places_free _ s (reaches_kept poolSize connects s0 s h0 h) hmutex
    rw [← List.length_eq_zero_iff]
    omega
  rcases returns_iff s with ⟨hreturns, hthrows⟩
  refine ⟨hreturns.trans (and_congr_right fun hmutex => ?_),
    hthrows.trans (and_congr_right hlen)⟩
  rw [ne_eq, hlen hmutex, not_not]

/-- A pool of three connections. -/
def threeIdle : State :=
  { connectionQueue := [0, 1, 2], mutex := none, calls := [], nextConnection := 3, dropped := 0,
    validated := [], handedOut := [] }

/-- Calls 0 and 1 lease a connection each. The database goes down, and the place
    of the one that call 0 returns is lost. -/
def loseOne : List Act :=
  [.getConnection, .lock 0, .pass 0, .validate 0 .valid, .handOut 0,
    .getConnection, .lock 1, .pass 1, .validate 1 .valid, .handOut 1,
    .returnConnection 0, .lock 0, .validate 0 .invalid, .create 0 (fun _ => .sqlException)]

/-- So is that of the last one, with call 2. -/
def loseAnother : List Act :=
  [.getConnection, .lock 2, .pass 2, .validate 2 .valid, .handOut 2,
    .returnConnection 2, .lock 2, .validate 2 .invalid, .create 2 (fun _ => .exception)]

/-- A pool of three connections of which one is leased. With one place lost a
    call still returns a connection, and with two places lost it throws. -/
theorem recovers_iff_three :
    construct 3 (fun _ _ => .connected) = some threeIdle ∧
      (∃ s, machine.Reaches threeIdle s ∧ (leased s).length = 1 ∧ s.dropped = 1 ∧
        Returns s ∧ ¬ Throws s) ∧
      ∃ s, machine.Reaches threeIdle s ∧ (leased s).length = 1 ∧ s.dropped = 2 ∧
        Throws s ∧ ¬ Returns s := by
  refine ⟨rfl, ?_, ?_⟩
  · -- One place lost: two are left for one lease, so a call returns.
    rcases Machine.reaches_of_check (M := machine) (s := threeIdle) loseOne
      (fun s => decide (s.mutex = none ∧ (leased s).length = 1 ∧ s.dropped = 1)) rfl with
      ⟨s, hs, hcheck⟩
    rcases of_decide_eq_true hcheck with ⟨hmutex, hleased, hdropped⟩
    have h := recovers_iff 3 (fun _ _ => .connected) _ s rfl hs (by omega)
    exact ⟨s, hs, hleased, hdropped, h.1.mpr ⟨hmutex, by omega⟩,
      fun hthrows => (h.2.mp hthrows).2 (by omega)⟩
  · -- Two places lost: the only connection is leased, so a call throws.
    rcases Machine.reaches_of_check (M := machine) (s := threeIdle) (loseOne ++ loseAnother)
      (fun s => decide (s.mutex = none ∧ (leased s).length = 1 ∧ s.dropped = 2)) rfl with
      ⟨s, hs, hcheck⟩
    rcases of_decide_eq_true hcheck with ⟨hmutex, hleased, hdropped⟩
    have h := recovers_iff 3 (fun _ _ => .connected) _ s rfl hs (by omega)
    refine ⟨s, hs, hleased, hdropped, h.2.mpr ⟨hmutex, by omega⟩, fun hreturns => ?_⟩
    have hlt := (h.1.mp hreturns).2
    omega

/-- A pool of one connection. It is leased and returned while the database is
    down, and three attempts to make another one fail. With the database back,
    nothing idle and nothing leased, every call throws. -/
theorem pool_exhausted :
    ∃ s0 s, construct 1 (fun _ _ => .connected) = some s0 ∧ machine.Reaches s0 s ∧
      s.mutex = none ∧ leased s = [] ∧ ¬ Returns s ∧ Throws s := by
  refine ⟨_, _, rfl, Machine.reaches_of_execute
    [.getConnection, .lock 0, .pass 0, .validate 0 .valid, .handOut 0, .returnConnection 0,
      .lock 0, .validate 0 .invalid, .create 0 (fun _ => .sqlException)] _ _ rfl, rfl, rfl, ?_⟩
  refine ⟨fun hreturns => ?_, (returns_iff _).2.mpr ⟨rfl, rfl⟩⟩
  exact ((returns_iff _).1.mp hreturns).2 rfl

/-- Calls 0 and 1 lease a connection each, call 0 returns its own, and call 2
    leases the last one of three. -/
def leaseTwo : List Act :=
  [.getConnection, .lock 0, .pass 0, .validate 0 .valid, .handOut 0,
    .getConnection, .lock 1, .pass 1, .validate 1 .valid, .handOut 1,
    .returnConnection 0, .lock 0, .validate 0 .valid,
    .getConnection, .lock 2, .pass 2, .validate 2 .valid, .handOut 2]

/-- A pool of three connections, of which two are leased to one call each, and
    one is idle again. -/
theorem leases_exclusive_two :
    construct 3 (fun _ _ => .connected) = some threeIdle ∧
      ∃ s, machine.Reaches threeIdle s ∧ Leased s 1 1 ∧ Leased s 2 2 ∧ s.connectionQueue = [0] ∧
        1 ∉ s.connectionQueue ∧ (∀ k, Leased s k 2 → k = 2) ∧
        ∀ k conn, (k, conn) ∈ s.handedOut → (k, conn) ∈ s.validated := by
  rcases Machine.reaches_of_check (M := machine) (s := threeIdle) leaseTwo
    (fun s => decide (s.calls = [.done, .holding 1, .holding 2] ∧ s.connectionQueue = [0])) rfl with
    ⟨s, hs, hcheck⟩
  rcases of_decide_eq_true hcheck with ⟨hcalls, hqueue⟩
  rcases leases_exclusive 3 (fun _ _ => .connected) _ s rfl hs with
    ⟨_, hidle, hone, _, hvalidated⟩
  have hfirst : Leased s 1 1 := ⟨.holding 1, by rw [hcalls]; rfl, rfl⟩
  have hsecond : Leased s 2 2 := ⟨.holding 2, by rw [hcalls]; rfl, rfl⟩
  exact ⟨rfl, s, hs, hfirst, hsecond, hqueue, hidle 1 1 hfirst, fun k hk => hone k 2 2 hk hsecond,
    hvalidated⟩

end ConnectionPool

end EpollServer
