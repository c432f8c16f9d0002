import Mathlib

/-!
# Copies of a Message

Counting the copies of one message on a channel that may lose them but never
makes them.

A sender puts copies on their way, some are lost, some are delivered, every
delivery sends an acknowledge back, and some of these are read. Nothing here
says when a sender repeats a message or what it makes of an acknowledge. The
counts alone bound each other, and that is what a protocol without sequence
numbers can rely on.

A copy is late if it is sent although an earlier one has been delivered or
still can be.

## Main definitions

* `Tally`: The counts for one message.
* `Tally.transmit`: One more copy.
* `Tally.Move`: What may happen to the counts.
* `Tally.Sound`: How they bound each other.

## Theorems

* `sound_move`: Every move keeps the bounds.
* `sound_moves`: So does every sequence of moves.
-/

namespace EpollServer

/-- The counts for one message. -/
structure Tally where
  sent : Nat
  onWay : Nat
  delivered : Nat
  late : Nat
  acks : Nat
  answers : Nat

namespace Tally

/-- One more copy is sent. -/
def transmit (x : Tally) : Tally :=
  { x with
    sent := x.sent + 1,
    onWay := x.onWay + 1,
    late := if 0 < x.onWay + x.delivered then x.late + 1 else x.late }

/-- What may happen to the copies of a message and to their acknowledges. -/
inductive Move (x : Tally) : Tally → Prop where
  /-- Some are lost, or nothing happens to them. -/
  | fade (onWay acks : Nat) (hw : onWay ≤ x.onWay) (ha : acks ≤ x.acks) :
      Move x { x with onWay := onWay, acks := acks }
  | transmit : Move x x.transmit
  /-- A copy is delivered, and acknowledged. -/
  | deliver (onWay : Nat) (hw : x.onWay = onWay + 1) :
      Move x { x with onWay := onWay, delivered := x.delivered + 1, acks := x.acks + 1 }
  /-- An acknowledge is read. -/
  | answer (acks : Nat) (ha : x.acks = acks + 1) :
      Move x { x with acks := acks, answers := x.answers + 1 }

/-- A copy is delivered or on its way once, and all but one of them at most
    are late. An acknowledge is on its way or read once. -/
structure Sound (x : Tally) : Prop where
  copies : x.delivered + x.onWay ≤ x.sent
  once : x.delivered + x.onWay ≤ 1 + x.late
  acks : x.acks + x.answers ≤ x.delivered

theorem move_refl (x : Tally) : Move x x :=
  Move.fade x.onWay x.acks (Nat.le_refl x.onWay) (Nat.le_refl x.acks)

theorem sound_transmit {x : Tally} (h : Sound x) : Sound x.transmit := by
  refine ⟨?_, ?_, h.acks⟩
  · have hcopies := h.copies
    simp only [transmit]
    omega
  · have honce := h.once
    simp only [transmit]
    by_cases hlate : 0 < x.onWay + x.delivered
    · rw [if_pos hlate]
      omega
    · rw [if_neg hlate]
      omega

theorem sound_move {x y : Tally} (h : Sound x) (hm : Move x y) : Sound y := by
  rcases h with ⟨hcopies, honce, hacks⟩
  cases hm with
  | fade onWay acks hw ha =>
      refine ⟨?_, ?_, ?_⟩
      · exact Nat.le_trans (Nat.add_le_add_left hw _) hcopies
      · exact Nat.le_trans (Nat.add_le_add_left hw _) honce
      · exact Nat.le_trans (Nat.add_le_add_right ha _) hacks
  | transmit => exact sound_transmit ⟨hcopies, honce, hacks⟩
  | deliver onWay hw =>
      refine ⟨?_, ?_, ?_⟩
      · simp only; omega
      · simp only; omega
      · simp only; omega
  | answer acks ha =>
      refine ⟨hcopies, honce, ?_⟩
      simp only
      omega

theorem sound_moves {x y : Tally} (h : Sound x) (hm : Relation.ReflTransGen Move x y) :
    Sound y := by
  induction hm with
  | refl => exact h
  | tail _ hlast ih => exact sound_move ih hlast

end Tally

end EpollServer
