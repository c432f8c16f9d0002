import Mathlib

/-!
# Machines and Reachability

A machine is a partial step function: in a state, an action either is not
possible or leads to one next state. Whatever a system does not decide by
itself (which thread runs next, what a call returns, which message is lost)
is put into the action, so a run is a sequence of actions and every
interleaving is some sequence.

Reachability carries a guard. `ReachesBy P` only takes steps whose state and
action satisfy `P`, which is how a run whose steps all meet a condition is
spoken of; `Reaches` is the unguarded case. Steps are added at the far end,
so an induction over a run follows it in the order of time and the invariant
rule needs nothing but one step.

`reachesBy_terminal` is the other direction: it does not say what every run
keeps but that some run arrives. A state that can always take a step towards
a goal, with a rank that drops, reaches the goal.

## Main definitions

* `Machine`: A partial step function.
* `ReachesBy`: Reachability through steps that satisfy a guard.
* `Reaches`: Reachability.
* `execute`, `executeBy`: Running a list of actions, with a guard.

## Theorems

* `reachesBy_of_step`: One guarded step is a run.
* `reachesBy_trans`: Guarded reachability is transitive.
* `reachesBy_mono`: A weaker guard reaches more.
* `reachesBy_head`: A step in front of a run.
* `invariant`: What holds at the start and is kept by guarded steps holds
  throughout.
* `invariant_of`: The same, with facts already known of every state.
* `reachesBy_of_execute`, `reaches_of_execute`: An executed list of actions is
  a run.
* `reaches_of_check`: A checked execution shows a reachable state.
* `reachesBy_of_check`: The same for a guard that is checked at every step.
* `reachesBy_terminal`: A goal approached with a dropping rank is reached.
* `reachesBy_or_first`: A run meets the guard, or has a first step that does
  not.
* `reaches_image`: A machine inside another one, seen from it.
-/

namespace EpollServer

/-- A partial step function. `step s a = none` means that the action is not
    possible in `s`. -/
structure Machine (σ α : Type*) where
  step : σ → α → Option σ

namespace Machine

variable {σ α : Type*} (M : Machine σ α)

/-- `t` is reached from `s` by steps that each satisfy the guard `P` in the
    state they are taken from. -/
inductive ReachesBy (P : σ → α → Prop) (s : σ) : σ → Prop where
  | refl : ReachesBy P s s
  | step (t u : σ) (a : α) :
      ReachesBy P s t → P t a → M.step t a = some u → ReachesBy P s u

/-- `t` is reached from `s`. -/
def Reaches (s t : σ) : Prop := M.ReachesBy (fun _ _ => True) s t

/-- Run a list of actions in order, or `none` where one of them is not
    possible. -/
def execute (s : σ) : List α → Option σ
  | [] => some s
  | a :: as => match M.step s a with
    | none => none
    | some t => execute t as

/-- Run a list of actions that each pass the check `p` where they are taken. -/
def executeBy (p : σ → α → Bool) (s : σ) : List α → Option σ
  | [] => some s
  | a :: as =>
      if p s a then
        match M.step s a with
        | none => none
        | some t => executeBy p t as
      else none

variable {M} {P Q : σ → α → Prop} {s t u : σ} {a : α}

theorem reachesBy_of_step (ha : P s a) (h : M.step s a = some t) : M.ReachesBy P s t :=
  ReachesBy.step s t a ReachesBy.refl ha h

theorem reachesBy_trans (h1 : M.ReachesBy P s t) (h2 : M.ReachesBy P t u) :
    M.ReachesBy P s u := by
  induction h2 with
  | refl => exact h1
  | step v w a _ ha hstep ih => exact ReachesBy.step v w a ih ha hstep

theorem reachesBy_head (ha : P s a) (h : M.step s a = some t) (ht : M.ReachesBy P t u) :
    M.ReachesBy P s u :=
  reachesBy_trans (reachesBy_of_step ha h) ht

theorem reachesBy_mono (hPQ : ∀ s a, P s a → Q s a) (h : M.ReachesBy P s t) :
    M.ReachesBy Q s t := by
  induction h with
  | refl => exact ReachesBy.refl
  | step v w a _ ha hstep ih => exact ReachesBy.step v w a ih (hPQ v a ha) hstep

theorem reaches_of_reachesBy (h : M.ReachesBy P s t) : M.Reaches s t :=
  reachesBy_mono (fun _ _ _ => trivial) h

theorem reaches_refl (s : σ) : M.Reaches s s := ReachesBy.refl

theorem reaches_step (h : M.Reaches s t) (hstep : M.step t a = some u) : M.Reaches s u :=
  ReachesBy.step t u a h trivial hstep

theorem reaches_trans (h1 : M.Reaches s t) (h2 : M.Reaches t u) : M.Reaches s u :=
  reachesBy_trans h1 h2

/-- What holds at the start and is kept by every guarded step holds in every
    state a guarded run reaches. -/
theorem invariant {I : σ → Prop} (h : M.ReachesBy P s t) (h0 : I s)
    (hstep : ∀ t a u, I t → P t a → M.step t a = some u → I u) : I t := by
  induction h with
  | refl => exact h0
  | step v w a _ ha hs ih => exact hstep v a w ih ha hs

/-- The invariant rule with facts `K` already known of every state the run
    passes: an invariant may rest on one proved before it. -/
theorem invariant_of {I K : σ → Prop} (h : M.ReachesBy P s t)
    (hK : ∀ t, M.ReachesBy P s t → K t) (h0 : I s)
    (hstep : ∀ t a u, K t → I t → P t a → M.step t a = some u → I u) : I t := by
  induction h with
  | refl => exact h0
  | step v w a hv ha hs ih => exact hstep v a w (hK v hv) ih ha hs

/-- A list of actions that satisfy the guard wherever they are taken. -/
theorem reachesBy_of_execute : ∀ (as : List α) (s t : σ), (∀ a ∈ as, ∀ u, P u a) →
    M.execute s as = some t → M.ReachesBy P s t := by
  intro as
  induction as with
  | nil =>
      intro s t _ h
      simp only [execute, Option.some.injEq] at h
      rw [h]
      exact ReachesBy.refl
  | cons a as ih =>
      intro s t hP h
      simp only [execute] at h
      cases hstep : M.step s a with
      | none => rw [hstep] at h; exact absurd h (by simp only [reduceCtorEq, not_false_eq_true])
      | some v =>
          rw [hstep] at h
          exact reachesBy_head (hP a List.mem_cons_self s) hstep
            (ih v t (fun b hb => hP b (List.mem_cons_of_mem a hb)) h)

theorem reaches_of_execute (as : List α) (s t : σ) (h : M.execute s as = some t) :
    M.Reaches s t :=
  reachesBy_of_execute as s t (fun _ _ _ => trivial) h

/-- A list of actions that can be executed, and whose last state passes a
    check, shows a reachable state that passes it. -/
theorem reaches_of_check {s : σ} (as : List α) (p : σ → Bool)
    (h : (M.execute s as).map p = some true) : ∃ t, M.Reaches s t ∧ p t = true := by
  cases ht : M.execute s as with
  | none => rw [ht] at h; simp only [Option.map_none, reduceCtorEq] at h
  | some t =>
      rw [ht, Option.map_some, Option.some.injEq] at h
      exact ⟨t, reaches_of_execute as s t ht, h⟩

theorem reachesBy_of_executeBy (p : σ → α → Bool) (hp : ∀ s a, p s a = true → P s a) :
    ∀ (as : List α) (s t : σ), M.executeBy p s as = some t → M.ReachesBy P s t := by
  intro as
  induction as with
  | nil =>
      intro s t h
      simp only [executeBy, Option.some.injEq] at h
      rw [h]
      exact ReachesBy.refl
  | cons a as ih =>
      intro s t h
      simp only [executeBy] at h
      split at h
      · rename_i ha
        cases hstep : M.step s a with
        | none => simp only [hstep, reduceCtorEq] at h
        | some v =>
            simp only [hstep] at h
            exact reachesBy_head (hp s a ha) hstep (ih v t h)
      · simp only [reduceCtorEq] at h

/-- A list of actions whose guard is checked wherever one is taken. -/
theorem reachesBy_of_check {s : σ} (p : σ → α → Bool) (hp : ∀ s a, p s a = true → P s a)
    (as : List α) (q : σ → Bool) (h : (M.executeBy p s as).map q = some true) :
    ∃ t, M.ReachesBy P s t ∧ q t = true := by
  rw [Option.map_eq_some_iff] at h
  rcases h with ⟨t, ht, hq⟩
  exact ⟨t, reachesBy_of_executeBy p hp as s t ht, hq⟩

/-- A goal that is approached is reached: while `I` holds and the goal `T`
    does not, some guarded step keeps `I` and lowers the rank. -/
theorem reachesBy_terminal {β : Type*} [LT β] [WellFoundedLT β] (rank : σ → β)
    {I T : σ → Prop}
    (hstep : ∀ s, I s → ¬ T s → ∃ a t, P s a ∧ M.step s a = some t ∧ I t ∧ rank t < rank s) :
    ∀ s, I s → ∃ t, M.ReachesBy P s t ∧ I t ∧ T t := by
  intro s
  induction hr : rank s using WellFoundedLT.induction generalizing s with
  | _ r ih =>
      intro hI
      by_cases hT : T s
      · exact ⟨s, ReachesBy.refl, hI, hT⟩
      · rcases hstep s hI hT with ⟨a, t, ha, hst, hIt, hlt⟩
        rcases ih (rank t) (by rw [← hr]; exact hlt) t rfl hIt with ⟨u, htu, hIu, hTu⟩
        exact ⟨u, reachesBy_head ha hst htu, hIu, hTu⟩

/-- Every step of a run meets the guard, or there is a first one that does
    not. -/
theorem reachesBy_or_first (h : M.Reaches s t) :
    M.ReachesBy P s t ∨
      ∃ u a v, M.ReachesBy P s u ∧ ¬ P u a ∧ M.step u a = some v ∧ M.Reaches v t := by
  induction h with
  | refl => exact Or.inl ReachesBy.refl
  | step v w a _ _ hs ih =>
      rcases ih with hsafe | ⟨u, b, x, hu, hb, hx, hv⟩
      · by_cases ha : P v a
        · exact Or.inl (ReachesBy.step v w a hsafe ha hs)
        · exact Or.inr ⟨v, a, w, hsafe, ha, hs, reaches_refl w⟩
      · exact Or.inr ⟨u, b, x, hu, hb, hx, reaches_step hv hs⟩

/-- Where every step is a run of another machine on a part of the state, every
    run is one. -/
theorem reaches_image {τ β : Type*} {N : Machine τ β} (f : σ → τ)
    (hstep : ∀ s a t, M.step s a = some t → N.Reaches (f s) (f t)) (h : M.Reaches s t) :
    N.Reaches (f s) (f t) :=
  invariant (I := fun t => N.Reaches (f s) (f t)) h (reaches_refl (f s))
    (fun t a u ht _ hs => reaches_trans ht (hstep t a u hs))

end Machine

end EpollServer
