import EpollServer.Lib.Settling
import EpollServer.Core.Server

/-!
# The Size Settles

The sizes `adjustThreadPoolSize` asks for, one after the other, while the queue
stays as long as it is.

The rule doubles a pool that is smaller than the queue, and halves one that is
larger than twice the queue, down to ten. A pool that was doubled is smaller
than twice the queue, and one that was halved is not smaller than the queue, so
that the rule never takes a step back. While the pool grows, what it lacks to
the length of the queue gets less; while it shrinks, its size does. So it comes
to a size that it keeps, and these are the sizes between the queue and twice
the queue, and ten (`SettledSize`).

All this is about the rule on natural numbers. With 64 bits the rule is the same
as long as no sum wraps, and no sum wraps while the queue has at most `2 ^ 63`
tasks (`unwrapped_of_le`).

## Main definitions

* `SettledSize`: The sizes that are kept.
* `Unwrapped`: Neither the product nor the sum wraps.

## Theorems

* `adjustedSize_cases`: The three cases of the rule.
* `adjustedSize_eq_iff`: When a size is kept.
* `oneWay_adjustedSize`: The rule does not turn around.
* `adjustedSize_settles`: The rule comes to a size that is kept.
* `toNat_newSize`: The rule with 64 bits.
* `sizing_settles`: The rule settles.
-/

namespace EpollServer

namespace ThreadPool

open Settling

/-- A size between the length of the queue and twice that, or ten. -/
def SettledSize (queueSize currentSize : Nat) : Prop :=
  queueSize ≤ currentSize ∧ (currentSize / 2 ≤ queueSize ∨ currentSize = 10)

instance (queueSize currentSize : Nat) : Decidable (SettledSize queueSize currentSize) :=
  inferInstanceAs (Decidable (_ ∧ _))

/-- Neither the product nor the sum wraps. Both are computed if the queue is
    longer than the pool. -/
def Unwrapped (queueSize currentSize : UInt64) : Prop :=
  currentSize < queueSize →
    currentSize.toNat * 2 < 2 ^ 64 ∧ queueSize.toNat + currentSize.toNat < 2 ^ 64

/-! ### The rule -/

/-- The pool is doubled, halved down to ten, or left as it is. -/
theorem adjustedSize_cases (queueSize currentSize : Nat) :
    (currentSize < queueSize ∧ adjustedSize queueSize currentSize = 2 * currentSize) ∨
      (queueSize < currentSize / 2 ∧
        adjustedSize queueSize currentSize = max (currentSize / 2) 10) ∨
      (queueSize ≤ currentSize ∧ currentSize / 2 ≤ queueSize ∧
        adjustedSize queueSize currentSize = currentSize) := by
  unfold adjustedSize
  by_cases hlong : currentSize < queueSize
  · -- The sum of both is larger than twice the smaller one.
    refine .inl ⟨hlong, ?_⟩
    rw [if_pos hlong, Nat.min_eq_left (by omega), Nat.mul_comm]
  · rw [if_neg hlong]
    by_cases hshort : queueSize < currentSize / 2
    · exact .inr (.inl ⟨hshort, if_pos hshort⟩)
    · exact .inr (.inr ⟨Nat.le_of_not_lt hlong, Nat.le_of_not_lt hshort, if_neg hshort⟩)

/-- A pool of at least ten keeps its size exactly if that is settled. -/
theorem adjustedSize_eq_iff {queueSize currentSize : Nat} (h : 10 ≤ currentSize) :
    adjustedSize queueSize currentSize = currentSize ↔ SettledSize queueSize currentSize := by
  unfold SettledSize
  rcases adjustedSize_cases queueSize currentSize with ⟨hq, heq⟩ | ⟨hq, heq⟩ | ⟨hq, hhalf, heq⟩
  · rw [heq]
    omega
  · rw [heq]
    omega
  · rw [heq]
    exact iff_of_true rfl ⟨hq, .inl hhalf⟩

theorem ten_le_adjustedSize {queueSize currentSize : Nat} (h : 10 ≤ currentSize) :
    10 ≤ adjustedSize queueSize currentSize := by
  rcases adjustedSize_cases queueSize currentSize with ⟨_, heq⟩ | ⟨_, heq⟩ | ⟨_, _, heq⟩
  · rw [heq]
    omega
  · rw [heq]
    exact Nat.le_max_right _ _
  · rw [heq]
    exact h

/-- A pool that was doubled is smaller than twice the queue, and one that was
    halved is not smaller than the queue. -/
theorem oneWay_adjustedSize (queueSize : Nat) :
    OneWay (adjustedSize queueSize) fun currentSize => 10 ≤ currentSize where
  keeps _ h := ten_le_adjustedSize h
  rises c h hle := by
    -- Doubled, halved, or kept: each is followed by a step that does not turn back.
    rcases adjustedSize_cases queueSize c with ⟨hq, heq⟩ | ⟨hq, heq⟩ | ⟨_, _, heq⟩
    · rw [heq]
      rcases adjustedSize_cases queueSize (2 * c) with ⟨_, heq'⟩ | ⟨hq', _⟩ | ⟨_, _, heq'⟩
      · omega
      · -- Half of it is the old size, which the queue is longer than.
        omega
      · exact heq'.ge
    · -- It is halved and not less, so it was ten and is kept.
      have hten : adjustedSize queueSize c = c := by omega
      rw [hten, hten]
    · rw [heq, heq]
  falls c h hle := by
    rcases adjustedSize_cases queueSize c with ⟨hq, heq⟩ | ⟨hq, heq⟩ | ⟨_, _, heq⟩
    · omega
    · rcases adjustedSize_cases queueSize (adjustedSize queueSize c) with
        ⟨hq', _⟩ | ⟨_, heq'⟩ | ⟨_, _, heq'⟩
      · -- What is left is at least half, and the queue is shorter.
        omega
      · omega
      · exact heq'.le
    · rw [heq, heq]

/-- The size of a pool that shrinks, and otherwise what it lacks to the length
    of the queue. -/
def lack (queueSize currentSize : Nat) : Nat :=
  if queueSize < currentSize / 2 then currentSize else queueSize - currentSize

theorem lack_lt {queueSize currentSize : Nat} (h : 10 ≤ currentSize)
    (hne : adjustedSize queueSize currentSize ≠ currentSize) :
    lack queueSize (adjustedSize queueSize currentSize) < lack queueSize currentSize := by
  unfold lack
  rcases adjustedSize_cases queueSize currentSize with ⟨hq, heq⟩ | ⟨hq, heq⟩ | ⟨_, _, heq⟩
  · -- It grows, and does not shrink afterwards.
    rw [heq, if_neg (by omega), if_neg (by omega)]
    omega
  · rw [if_pos hq]
    by_cases hshort : queueSize < adjustedSize queueSize currentSize / 2
    · rw [if_pos hshort]
      omega
    · rw [if_neg hshort]
      omega
  · exact absurd heq hne

/-- With a queue of a fixed length the pool comes to a size that it keeps. -/
theorem adjustedSize_settles (queueSize currentSize : Nat) (h : 10 ≤ currentSize) :
    ∃ n, adjustedSize queueSize ((adjustedSize queueSize)^[n] currentSize) =
        (adjustedSize queueSize)^[n] currentSize ∧
      SettledSize queueSize ((adjustedSize queueSize)^[n] currentSize) := by
  rcases exists_fixed (f := adjustedSize queueSize) (I := fun c => 10 ≤ c) (lack queueSize)
    (fun _ => ten_le_adjustedSize) (fun _ => lack_lt) currentSize h with ⟨n, hn⟩
  have hten := iterate_keeps (f := adjustedSize queueSize) (I := fun c => 10 ≤ c)
    (fun _ => ten_le_adjustedSize) h n
  exact ⟨n, hn, (adjustedSize_eq_iff hten).mp hn⟩

/-! ### 64 bits -/

theorem toNat_newSize {queueSize currentSize : UInt64} (h : Unwrapped queueSize currentSize) :
    (newSize queueSize currentSize).toNat =
      adjustedSize queueSize.toNat currentSize.toNat := by
  have hhalf : (currentSize / 2).toNat = currentSize.toNat / 2 := UInt64.toNat_div currentSize 2
  unfold newSize adjustedSize
  by_cases hlong : currentSize < queueSize
  · rcases h hlong with ⟨hproduct, hsum⟩
    rw [if_pos hlong, if_pos (UInt64.lt_iff_toNat_lt.mp hlong), UInt64.toNat_min,
      UInt64.toNat_mul, UInt64.toNat_add, Nat.mod_eq_of_lt hsum]
    rw [show (2 : UInt64).toNat = 2 from rfl, Nat.mod_eq_of_lt hproduct]
  · rw [if_neg hlong, if_neg fun hlt => hlong (UInt64.lt_iff_toNat_lt.mpr hlt)]
    by_cases hshort : queueSize < currentSize / 2
    · have hlt := UInt64.lt_iff_toNat_lt.mp hshort
      rw [hhalf] at hlt
      rw [if_pos hshort, if_pos hlt, UInt64.toNat_max, hhalf]
      rfl
    · have hge : ¬ queueSize.toNat < currentSize.toNat / 2 := fun hlt =>
        hshort (UInt64.lt_iff_toNat_lt.mpr (by rw [hhalf]; exact hlt))
      rw [if_neg hshort, if_neg hge]

/-- Nothing wraps for a queue of at most `2 ^ 63`. -/
theorem unwrapped_of_le {queueSize : UInt64} (h : queueSize.toNat ≤ 2 ^ 63)
    (currentSize : UInt64) : Unwrapped queueSize currentSize := by
  intro hlt
  have hlt' := UInt64.lt_iff_toNat_lt.mp hlt
  omega

/-- The sizes with 64 bits are those on natural numbers as long as nothing
    wraps. -/
theorem toNat_iterate {queueSize currentSize : UInt64}
    (h : ∀ n, Unwrapped queueSize ((newSize queueSize)^[n] currentSize)) (n : Nat) :
    ((newSize queueSize)^[n] currentSize).toNat =
      (adjustedSize queueSize.toNat)^[n] currentSize.toNat := by
  induction n with
  | zero => rfl
  | succ n ih =>
      rw [Function.iterate_succ_apply', Function.iterate_succ_apply', toNat_newSize (h n), ih]

/-- For a queue of any length and a pool of at least ten, if nothing wraps on the
    way: the size stays at least ten, a pool that has grown does not shrink
    afterwards and one that has shrunk does not grow, and it comes to a size
    that is kept, between the length of the queue and twice that, or ten. -/
theorem sizing_settles (queueSize currentSize : UInt64) (hten : 10 ≤ currentSize)
    (hwrap : ∀ n, Unwrapped queueSize ((newSize queueSize)^[n] currentSize)) :
    (∀ n, 10 ≤ (newSize queueSize)^[n] currentSize) ∧
      (∀ n m, n ≤ m →
        ((newSize queueSize)^[n] currentSize < (newSize queueSize)^[n + 1] currentSize →
          ¬ (newSize queueSize)^[m + 1] currentSize < (newSize queueSize)^[m] currentSize) ∧
        ((newSize queueSize)^[n + 1] currentSize < (newSize queueSize)^[n] currentSize →
          ¬ (newSize queueSize)^[m] currentSize < (newSize queueSize)^[m + 1] currentSize)) ∧
      ∃ n, newSize queueSize ((newSize queueSize)^[n] currentSize) =
          (newSize queueSize)^[n] currentSize ∧
        queueSize ≤ (newSize queueSize)^[n] currentSize ∧
        ((newSize queueSize)^[n] currentSize / 2 ≤ queueSize ∨
          (newSize queueSize)^[n] currentSize = 10) := by
  -- Without a wrap the iteration over `UInt64` is the one over the naturals.
  have hoften : 10 ≤ currentSize.toNat := UInt64.le_iff_toNat_le.mp hten
  have hrun := toNat_iterate hwrap
  have hway := oneWay_adjustedSize queueSize.toNat
  refine ⟨fun n => ?_, fun n m hle => ?_, ?_⟩
  · rw [UInt64.le_iff_toNat_le, hrun n]
    exact iterate_keeps hway.keeps hoften n
  · simp only [UInt64.lt_iff_toNat_lt, hrun]
    exact hway.not_turns hoften hle
  · rcases adjustedSize_settles queueSize.toNat currentSize.toNat hoften with ⟨n, hfixed, hq, hor⟩
    refine ⟨n, ?_, ?_, ?_⟩
    · rw [← UInt64.toNat_inj, toNat_newSize (hwrap n), hrun n]
      exact hfixed
    · rw [UInt64.le_iff_toNat_le, hrun n]
      exact hq
    · rw [UInt64.le_iff_toNat_le, UInt64.toNat_div, ← UInt64.toNat_inj, hrun n]
      exact hor

/-- A queue of 35 tasks and the ten workers of the server. -/
theorem sizing_settles_thirtyFive :
    ∃ n, newSize 35 ((newSize 35)^[n] 10) = (newSize 35)^[n] 10 ∧
      35 ≤ (newSize 35)^[n] 10 ∧ ((newSize 35)^[n] 10 / 2 ≤ 35 ∨ (newSize 35)^[n] 10 = 10) :=
  (sizing_settles 35 10 (by decide) fun _ => unwrapped_of_le (by decide) _).2.2

end ThreadPool

end EpollServer
