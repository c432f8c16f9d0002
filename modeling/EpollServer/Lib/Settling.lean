import Mathlib

/-!
# Values that Settle

A value that is replaced by a function of itself, again and again.

Such a value oscillates if it grows in one step and shrinks in a later one.
Whether it can is seen from two steps: if a step that does not shrink the value
is followed by another one, and a step that does not make it grow too, then the
whole run goes one way (`OneWay`). It ends if some rank drops with every step
that changes the value.

Both are asked for on the values that satisfy `I` only, which the function
keeps.

## Main definitions

* `OneWay`: No two steps turn the value around.

## Theorems

* `iterate_keeps`: What the function keeps, a run keeps.
* `OneWay.rises_after`, `OneWay.falls_after`: The steps behind one that rises or
  falls.
* `OneWay.not_turns`: A run does not turn around.
* `exists_fixed`: A rank that drops ends at a fixed point.
-/

namespace EpollServer

namespace Settling

variable {σ : Type*} {f : σ → σ} {I : σ → Prop}

/-- The function keeps `I`, and on its values two steps do not go different
    ways. -/
structure OneWay [Preorder σ] (f : σ → σ) (I : σ → Prop) : Prop where
  keeps : ∀ s, I s → I (f s)
  rises : ∀ s, I s → s ≤ f s → f s ≤ f (f s)
  falls : ∀ s, I s → f s ≤ s → f (f s) ≤ f s

theorem iterate_keeps (h : ∀ s, I s → I (f s)) {s : σ} (hs : I s) (n : Nat) : I (f^[n] s) := by
  induction n with
  | zero => exact hs
  | succ n ih =>
      rw [Function.iterate_succ_apply']
      exact h _ ih

namespace OneWay

variable [Preorder σ]

/-- Behind a step that does not shrink the value, no step does. -/
theorem rises_after (h : OneWay f I) {s : σ} (hs : I s) {n m : Nat} (hle : n ≤ m)
    (hn : f^[n] s ≤ f^[n + 1] s) : f^[m] s ≤ f^[m + 1] s := by
  induction m, hle using Nat.le_induction with
  | base => exact hn
  | succ m _ ih =>
      simp only [Function.iterate_succ_apply'] at ih ⊢
      exact h.rises _ (iterate_keeps h.keeps hs m) ih

/-- Behind a step that does not make the value grow, no step does. -/
theorem falls_after (h : OneWay f I) {s : σ} (hs : I s) {n m : Nat} (hle : n ≤ m)
    (hn : f^[n + 1] s ≤ f^[n] s) : f^[m + 1] s ≤ f^[m] s := by
  induction m, hle using Nat.le_induction with
  | base => exact hn
  | succ m _ ih =>
      simp only [Function.iterate_succ_apply'] at ih ⊢
      exact h.falls _ (iterate_keeps h.keeps hs m) ih

/-- A run does not turn around, however many steps lie between. -/
theorem not_turns (h : OneWay f I) {s : σ} (hs : I s) {n m : Nat} (hle : n ≤ m) :
    (f^[n] s < f^[n + 1] s → ¬ f^[m + 1] s < f^[m] s) ∧
      (f^[n + 1] s < f^[n] s → ¬ f^[m] s < f^[m + 1] s) :=
  ⟨fun hn => not_lt_of_ge (h.rises_after hs hle hn.le),
    fun hn => not_lt_of_ge (h.falls_after hs hle hn.le)⟩

end OneWay

/-- If a rank drops with every step that changes the value, the value gets to a
    fixed point. -/
theorem exists_fixed (rank : σ → Nat) (hkeeps : ∀ s, I s → I (f s))
    (hrank : ∀ s, I s → f s ≠ s → rank (f s) < rank s) :
    ∀ s, I s → ∃ n, f (f^[n] s) = f^[n] s := by
  intro s
  -- The induction is on the rank, which bounds the steps to come.
  induction hr : rank s using Nat.strong_induction_on generalizing s with
  | _ r ih =>
      intro hs
      by_cases hfixed : f s = s
      · exact ⟨0, hfixed⟩
      · rcases ih (rank (f s)) (by rw [← hr]; exact hrank s hs hfixed) (f s) rfl (hkeeps s hs)
          with ⟨n, hn⟩
        exact ⟨n + 1, hn⟩

end Settling

end EpollServer
