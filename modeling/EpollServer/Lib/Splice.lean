import Mathlib

/-!
# Writing a Buffer Piece by Piece

A buffer of fixed length into which pieces are copied, each at its own offset,
in any order, over one another and with gaps.

`splice` is one such write. After a number of them the element at a position
is the one of the newest piece that covers the position, or what the buffer
held before if none does (`getElem?_writes`). Pieces are listed newest first,
so that the next write is a `cons` and every fact about a history is an
induction on the list.

Whether everything has been written cannot be seen from the last piece. It can
be if every piece starts within what the earlier ones reach (`Gapless`): then
everything below the furthest end is covered.

## Main definitions

* `splice`: Overwrite part of a list.
* `Piece`: Data with the offset it is written at.
* `Piece.Covers`: A position is one the piece is written to.
* `writes`: A buffer after a number of writes.
* `newest`: The element the pieces leave at a position.
* `extent`: The furthest end of the pieces.
* `Gapless`: Every piece starts within the extent of the earlier ones.

## Theorems

* `length_splice`: A write that fits keeps the length.
* `getElem?_splice`: The elements after a write.
* `take_splice`: Writing at the end of a prefix extends the prefix.
* `splice_set`: A write begins with its first element.
* `getElem?_writes`: The elements after a number of writes.
* `covered_of_gapless`: Without gaps, everything below the extent is covered.
-/

namespace EpollServer

namespace Splice

variable {β : Type*}

/-- Overwrite the elements from `offset` on. -/
def splice (buffer data : List β) (offset : Nat) : List β :=
  buffer.take offset ++ data ++ buffer.drop (offset + data.length)

/-- Data with the offset it is written at. -/
structure Piece (β : Type*) where
  offset : Nat
  data : List β
  deriving DecidableEq

/-- The position right behind the piece. -/
def Piece.stop (p : Piece β) : Nat := p.offset + p.data.length

/-- The piece is written to this position. -/
def Piece.Covers (p : Piece β) (i : Nat) : Prop := p.offset ≤ i ∧ i < p.stop

instance (p : Piece β) (i : Nat) : Decidable (p.Covers i) :=
  inferInstanceAs (Decidable (_ ∧ _))

/-- A buffer after writing some pieces, the newest of which comes first. -/
def writes (buffer : List β) : List (Piece β) → List β
  | [] => buffer
  | p :: ps => splice (writes buffer ps) p.data p.offset

/-- The element the pieces leave at a position, if one of them covers it. -/
def newest (i : Nat) : List (Piece β) → Option β
  | [] => none
  | p :: ps => if p.Covers i then p.data[i - p.offset]? else newest i ps

/-- The furthest end of the pieces. -/
def extent : List (Piece β) → Nat
  | [] => 0
  | p :: ps => max p.stop (extent ps)

/-- Every piece starts within the extent of those written before it. -/
def Gapless : List (Piece β) → Prop
  | [] => True
  | p :: ps => p.offset ≤ extent ps ∧ Gapless ps

instance decidableGapless : (ps : List (Piece β)) → Decidable (Gapless ps)
  | [] => isTrue trivial
  | p :: ps =>
      have : Decidable (Gapless ps) := decidableGapless ps
      inferInstanceAs (Decidable (p.offset ≤ extent ps ∧ Gapless ps))

/-! ### One write -/

theorem length_splice (buffer data : List β) (offset : Nat)
    (h : offset + data.length ≤ buffer.length) :
    (splice buffer data offset).length = buffer.length := by
  unfold splice
  rw [List.length_append, List.length_append, List.length_take, List.length_drop]
  omega

/-- The elements after a write: the data where it was written, and the old
    elements everywhere else. -/
theorem getElem?_splice (buffer data : List β) (offset i : Nat)
    (h : offset + data.length ≤ buffer.length) :
    (splice buffer data offset)[i]? =
      if offset ≤ i ∧ i < offset + data.length then data[i - offset]? else buffer[i]? := by
  have htake : (buffer.take offset).length = offset := by
    rw [List.length_take]
    omega
  unfold splice
  by_cases hlow : i < offset
  · -- In front of the data.
    have hout : ¬ (offset ≤ i ∧ i < offset + data.length) := by omega
    rw [if_neg hout, List.append_assoc, List.getElem?_append_left (by omega),
      List.getElem?_take_of_lt hlow]
  · by_cases hhigh : i < offset + data.length
    · rw [if_pos ⟨Nat.le_of_not_lt hlow, hhigh⟩,
        List.getElem?_append_left (by rw [List.length_append]; omega),
        List.getElem?_append_right (by omega), htake]
    · -- Behind the data.
      have hout : ¬ (offset ≤ i ∧ i < offset + data.length) := by omega
      have hlen : (buffer.take offset ++ data).length = offset + data.length := by
        rw [List.length_append, htake]
      rw [if_neg hout, List.getElem?_append_right (by omega), hlen, List.getElem?_drop]
      congr 1
      omega

/-- Writing at the end of a prefix extends the prefix by the data. -/
theorem take_splice (buffer data : List β) (offset : Nat)
    (h : offset + data.length ≤ buffer.length) :
    (splice buffer data offset).take (offset + data.length) = buffer.take offset ++ data := by
  have hlen : (buffer.take offset ++ data).length = offset + data.length := by
    rw [List.length_append, List.length_take]
    omega
  unfold splice
  rw [← hlen, List.take_left]

/-- A write begins with its first element. -/
theorem splice_set (buffer data : List β) (offset : Nat) (x : β) (h : offset < buffer.length) :
    splice (buffer.set offset x) data (offset + 1) = splice buffer (x :: data) offset := by
  have htake : (buffer.set offset x).take (offset + 1) = buffer.take offset ++ [x] := by
    rw [List.take_add_one, List.take_set_of_le (Nat.le_refl offset), List.getElem?_set_self h]
    rfl
  have hdrop : (buffer.set offset x).drop (offset + 1 + data.length) =
      buffer.drop (offset + 1 + data.length) := List.drop_set_of_lt (by omega)
  unfold splice
  rw [htake, hdrop, List.length_cons, Nat.add_assoc, Nat.add_comm 1 data.length,
    List.append_assoc, List.append_assoc, List.append_assoc]
  rfl

/-! ### A history of writes -/

theorem length_writes (buffer : List β) (ps : List (Piece β))
    (h : ∀ p ∈ ps, p.stop ≤ buffer.length) : (writes buffer ps).length = buffer.length := by
  induction ps with
  | nil => rfl
  | cons p ps ih =>
      have hrest := ih (fun q hq => h q (List.mem_cons_of_mem p hq))
      have hp := h p List.mem_cons_self
      unfold Piece.stop at hp
      rw [writes, length_splice _ _ _ (by rw [hrest]; exact hp), hrest]

/-- After a number of writes a position holds what the newest piece that covers
    it has there, and the old element if there is none. -/
theorem getElem?_writes (buffer : List β) (ps : List (Piece β))
    (h : ∀ p ∈ ps, p.stop ≤ buffer.length) (i : Nat) :
    (writes buffer ps)[i]? = (newest i ps).or buffer[i]? := by
  induction ps with
  | nil => rfl
  | cons p ps ih =>
      have hrest := fun q hq => h q (List.mem_cons_of_mem p hq)
      have hp := h p List.mem_cons_self
      have hfits : p.offset + p.data.length ≤ (writes buffer ps).length := by
        rw [length_writes buffer ps hrest]
        exact hp
      rw [writes, newest, getElem?_splice _ _ _ _ hfits]
      by_cases hc : p.Covers i
      · -- The new piece has an element there.
        have hin : p.offset ≤ i ∧ i < p.offset + p.data.length := hc
        have hlt : i - p.offset < p.data.length := by omega
        rw [if_pos hin, if_pos hc, List.getElem?_eq_getElem hlt, Option.some_or]
      · have hout : ¬ (p.offset ≤ i ∧ i < p.offset + p.data.length) := hc
        rw [if_neg hout, if_neg hc]
        exact ih hrest

/-- Without gaps, every position below the extent is covered. -/
theorem covered_of_gapless (ps : List (Piece β)) (h : Gapless ps) (i : Nat) (hi : i < extent ps) :
    ∃ p ∈ ps, p.Covers i := by
  induction ps with
  | nil => exact absurd hi (Nat.not_lt_zero i)
  | cons p ps ih =>
      rcases h with ⟨hstart, hrest⟩
      by_cases hold : i < extent ps
      · rcases ih hrest hold with ⟨q, hq, hc⟩
        exact ⟨q, List.mem_cons_of_mem p hq, hc⟩
      · -- Behind the old extent there is only the new piece.
        have hlt : i < p.stop := by
          rw [extent] at hi
          omega
        exact ⟨p, List.mem_cons_self, by omega, hlt⟩

end Splice

end EpollServer
