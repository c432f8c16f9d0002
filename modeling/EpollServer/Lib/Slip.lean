import Mathlib

/-!
# Byte Stuffing

Frames of bytes on a line of bytes, each ended by a byte that stands nowhere
else.

The end byte and the escape byte cannot stand in a frame, so each is replaced
by the escape byte and a substitute. A receiver looks at one byte at a time. It
keeps the bytes of the frame so far and whether the next byte is to be taken
as it is or as a substitute; the end byte tells it that the frame is complete.

`decode_encode` is the law a link rests on: fed with the encoding of a frame,
the receiver has the frame at the last byte, and was not done at any byte
before it.

## Main definitions

* `escape`: A byte of a frame on the line.
* `encode`: A frame on the line.
* `Receiver`: The bytes so far, and how the next one is taken.
* `receive`: One byte.
* `decode`: Bytes until a frame is complete.

## Theorems

* `receive_length`: The receiver keeps within its buffer.
* `decode_escape`: The bytes of one byte of a frame add that byte.
* `decode_encode`: Decoding undoes encoding.
* `encode_append_inj`: The first frame on the line is told from what follows it.
-/

namespace EpollServer

namespace Slip

/-- The byte at the end of a frame. -/
def endByte : UInt8 := 0xC0

/-- The byte in front of an escaped one. -/
def escByte : UInt8 := 0xDB

/-- What stands for the end byte behind an escape byte. -/
def escEnd : UInt8 := 0xDC

/-- What stands for the escape byte behind an escape byte. -/
def escEsc : UInt8 := 0xDD

/-- A byte of a frame on the line. -/
def escape (b : UInt8) : List UInt8 :=
  if b = endByte then [escByte, escEnd] else if b = escByte then [escByte, escEsc] else [b]

/-- A frame on the line. -/
def encode (frame : List UInt8) : List UInt8 := frame.flatMap escape ++ [endByte]

/-- What a receiver keeps. -/
structure Receiver where
  frame : List UInt8
  /-- The next byte is taken as it is. -/
  normal : Bool
  deriving DecidableEq, Repr

/-- Between two frames. -/
def Receiver.start : Receiver := { frame := [], normal := true }

/-- A byte for the frame, unless the buffer of `maxLength` bytes is full. -/
def Receiver.push (maxLength : Nat) (b : UInt8) (r : Receiver) : Receiver :=
  { frame := if r.frame.length < maxLength then r.frame ++ [b] else r.frame, normal := true }

/-- One byte: whether the frame is complete, and what the receiver keeps. -/
def receive (maxLength : Nat) (b : UInt8) (r : Receiver) : Bool × Receiver :=
  if r.normal then
    if b = endByte then (true, r)
    else if b = escByte then (false, { r with normal := false })
    else (false, r.push maxLength b)
  else
    (false, r.push maxLength
      (if b = escEnd then endByte else if b = escEsc then escByte else b))

/-- Bytes until a frame is complete: the frame and the bytes behind it. -/
def decode (maxLength : Nat) : Receiver → List UInt8 → Option (List UInt8 × List UInt8)
  | _, [] => none
  | r, b :: rest =>
      if (receive maxLength b r).1 then some ((receive maxLength b r).2.frame, rest)
      else decode maxLength (receive maxLength b r).2 rest

/-- The receiver keeps within its buffer. -/
theorem receive_length (maxLength : Nat) (b : UInt8) (r : Receiver)
    (h : r.frame.length ≤ maxLength) :
    (receive maxLength b r).2.frame.length ≤ maxLength := by
  have hpush : ∀ c : UInt8, (r.push maxLength c).frame.length ≤ maxLength := by
    intro c
    unfold Receiver.push
    by_cases hroom : r.frame.length < maxLength
    · simp only [if_pos hroom, List.length_append, List.length_singleton]
      omega
    · simp only [if_neg hroom]
      exact h
  unfold receive
  by_cases hnormal : r.normal = true
  · rw [if_pos hnormal]
    by_cases hend : b = endByte
    · rw [if_pos hend]
      exact h
    · rw [if_neg hend]
      by_cases hesc : b = escByte
      · rw [if_pos hesc]
        exact h
      · rw [if_neg hesc]
        exact hpush b
  · rw [if_neg hnormal]
    exact hpush _

/-- The bytes that stand for one byte of a frame add that byte. -/
theorem decode_escape (maxLength : Nat) (b : UInt8) (frame rest : List UInt8)
    (h : frame.length < maxLength) :
    decode maxLength { frame := frame, normal := true } (escape b ++ rest) =
      decode maxLength { frame := frame ++ [b], normal := true } rest := by
  unfold escape
  by_cases hend : b = endByte
  · rw [if_pos hend, hend]
    simp only [List.cons_append, List.nil_append, decode, receive, Receiver.push, if_true,
      Bool.false_eq_true, if_false, if_pos h, show escByte ≠ endByte from by decide]
  · by_cases hesc : b = escByte
    · rw [if_neg hend, if_pos hesc, hesc]
      simp only [List.cons_append, List.nil_append, decode, receive, Receiver.push, if_true,
        Bool.false_eq_true, if_false, if_pos h, show escByte ≠ endByte from by decide,
        show escEsc ≠ escEnd from by decide]
    · rw [if_neg hend, if_neg hesc]
      simp only [List.cons_append, List.nil_append, decode, receive, Receiver.push, if_true,
        Bool.false_eq_true, if_false, if_pos h, hend, hesc]

/-- Fed with the encoding of a frame that fits, the receiver has it at the last
    byte. -/
theorem decode_encode (maxLength : Nat) (frame rest : List UInt8) (h : frame.length ≤ maxLength) :
    decode maxLength Receiver.start (encode frame ++ rest) = some (frame, rest) := by
  -- The part of the frame that was received grows from the left.
  have hpart : ∀ todo done : List UInt8, (done ++ todo).length ≤ maxLength →
      decode maxLength { frame := done, normal := true }
        (todo.flatMap escape ++ ([endByte] ++ rest)) = some (done ++ todo, rest) := by
    intro todo
    induction todo with
    | nil =>
        intro done _
        simp only [List.flatMap_nil, List.nil_append, List.cons_append, decode, receive, if_true,
          List.append_nil]
    | cons b todo ih =>
        intro done hfits
        have hroom : done.length < maxLength := by
          rw [List.length_append, List.length_cons] at hfits
          omega
        rw [List.flatMap_cons, List.append_assoc, decode_escape maxLength b done _ hroom,
          ih (done ++ [b]) (by rw [List.append_assoc]; exact hfits), List.append_assoc,
          List.singleton_append]
  unfold encode Receiver.start
  rw [List.append_assoc]
  exact hpart frame [] h

/-- The first frame on the line is told from what follows it. -/
theorem encode_append_inj (a b x y : List UInt8) (h : encode a ++ x = encode b ++ y) :
    a = b ∧ x = y := by
  have ha := decode_encode (max a.length b.length) a x (le_max_left _ _)
  have hb := decode_encode (max a.length b.length) b y (le_max_right _ _)
  rw [h, hb, Option.some.injEq, Prod.mk.injEq] at ha
  exact ⟨ha.1.symm, ha.2.symm⟩

end Slip

end EpollServer
