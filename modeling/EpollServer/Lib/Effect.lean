import Mathlib

/-!
# Programs that Return or Throw

Rules of pre- and postconditions for programs with a state and an exception.

A program in `EStateM` ends in one of two ways, and keeps its state in both.
`Holds P x Q E` is about both of them: from a state with `P`, a result comes
with `Q` and an exception with `E`. With `E` false it says that there is a
result; with `E` true, that nothing is promised of an exception.

There is a rule for each way to build a program. A proof follows the program
from its first step on, and what is known between two steps is the middle
condition of `holds_bind`. Where the result of the first step is known, the run
goes on from it (`bind_ok`).

## Main definitions

* `Holds`: Precondition, postcondition, and the condition of an exception.

## Theorems

* `holds_pure`, `holds_throw`, `holds_modify`, `holds_get`: The steps.
* `holds_bind`: One after the other.
* `holds_ite`: Either one.
* `holds_mono`: Weaker conditions.
* `holds_exists`: A precondition for some value.
* `ok_of_holds`: A program that throws nothing has a result.
* `bind_run`, `bind_ok`, `bind_error`, `bind_congr_run`: The first step of a run.
-/

namespace EpollServer

namespace Effect

variable {ε σ α β : Type}

/-- From a state with `P`, the program returns with `Q` or throws with `E`. -/
def Holds (P : σ → Prop) (x : EStateM ε σ α) (Q : α → σ → Prop) (E : ε → σ → Prop) : Prop :=
  ∀ s, P s → match x s with
    | .ok a t => Q a t
    | .error e t => E e t

variable {P P' : σ → Prop} {Q Q' : α → σ → Prop} {E E' : ε → σ → Prop}

theorem holds_pure (a : α) (h : ∀ s, P s → Q a s) :
    Holds P (pure a : EStateM ε σ α) Q E := h

theorem holds_throw (e : ε) (h : ∀ s, P s → E e s) :
    Holds P (throw e : EStateM ε σ α) Q E := h

theorem holds_modify (f : σ → σ) {Q : Unit → σ → Prop} (h : ∀ s, P s → Q () (f s)) :
    Holds P (modify f : EStateM ε σ PUnit) Q E := h

theorem holds_get {Q : σ → σ → Prop} (h : ∀ s, P s → Q s s) :
    Holds P (get : EStateM ε σ σ) Q E := h

/-- A run of two steps is a run of the first and, after a result, of the second. -/
theorem bind_run (x : EStateM ε σ α) (f : α → EStateM ε σ β) (s : σ) :
    (x >>= f) s = match x s with
      | .ok a t => f a t
      | .error e t => .error e t := rfl

/-- The result of the first step is where the rest goes on. -/
theorem bind_ok {x : EStateM ε σ α} {s t : σ} {a : α} (f : α → EStateM ε σ β)
    (h : x s = .ok a t) : (x >>= f) s = f a t := by
  rw [bind_run, h]

/-- What the first step throws is thrown. -/
theorem bind_error {x : EStateM ε σ α} {s t : σ} {e : ε} (f : α → EStateM ε σ β)
    (h : x s = .error e t) : (x >>= f) s = .error e t := by
  rw [bind_run, h]

/-- Two first steps that end alike. -/
theorem bind_congr_run {x y : EStateM ε σ α} {s t : σ} (f : α → EStateM ε σ β) (h : x s = y t) :
    (x >>= f) s = (y >>= f) t := by
  rw [bind_run, h]
  rfl

theorem holds_bind {x : EStateM ε σ α} {f : α → EStateM ε σ β} {R : β → σ → Prop}
    (hx : Holds P x Q E) (hf : ∀ a, Holds (Q a) (f a) R E) : Holds P (x >>= f) R E := by
  intro s hs
  have hmid := hx s hs
  cases hrun : x s with
  | ok a t =>
      rw [hrun] at hmid
      rw [bind_ok f hrun]
      exact hf a t hmid
  | error e t =>
      rw [hrun] at hmid
      rw [bind_error f hrun]
      exact hmid

theorem holds_ite {c : Prop} [Decidable c] {x y : EStateM ε σ α}
    (hx : c → Holds P x Q E) (hy : ¬ c → Holds P y Q E) : Holds P (if c then x else y) Q E := by
  by_cases hc : c
  · rw [if_pos hc]
    exact hx hc
  · rw [if_neg hc]
    exact hy hc

theorem holds_mono {x : EStateM ε σ α} (h : Holds P x Q E) (hP : ∀ s, P' s → P s)
    (hQ : ∀ a s, Q a s → Q' a s) (hE : ∀ e s, E e s → E' e s) : Holds P' x Q' E' := by
  intro s hs
  have hend := h s (hP s hs)
  cases hrun : x s with
  | ok a t =>
      rw [hrun] at hend
      exact hQ a t hend
  | error e t =>
      rw [hrun] at hend
      exact hE e t hend

theorem holds_exists {ι : Sort*} {x : EStateM ε σ α} {R : ι → σ → Prop}
    (h : ∀ i, Holds (R i) x Q E) : Holds (fun s => ∃ i, R i s) x Q E := by
  rintro s ⟨i, hi⟩
  exact h i s hi

/-- A program that throws nothing has a result. -/
theorem ok_of_holds {x : EStateM ε σ α} {s : σ} (h : Holds P x Q fun _ _ => False) (hs : P s) :
    ∃ a t, x s = .ok a t ∧ Q a t := by
  have hend := h s hs
  cases hrun : x s with
  | ok a t =>
      rw [hrun] at hend
      exact ⟨a, t, rfl, hend⟩
  | error e t =>
      rw [hrun] at hend
      exact hend.elim

end Effect

end EpollServer
