import EpollServer.Core.Address

/-!
# Numbers in Texts

What `std::stoi` and `strtol` make of a text, and a number printed and read
again.

Both read the number a text begins with (`Begins`): space, a sign and digits,
with anything behind them that is no digit. There is at most one
(`begins_iff`). They differ in what is not read: `stoi` throws without a number
and for one that is no `int`, `strtol` gives 0 and the nearest `long`.

## Main definitions

* `Begins`: The number a text begins with.

## Theorems

* `begins_iff`: They read the number the text begins with.
* `stoi_iff`, `strtol_of_begins`, `strtol_of_not_begins`: What they return.
* `begins_decimal`: A printed number is read.
-/

namespace EpollServer

namespace Address

open Library (isSpace isDigit digitsValue stoi)

/-- The text begins with the number `z`, behind any space. -/
def Begins (text : List UInt8) (z : Int) : Prop :=
  ∃ space sign digits rest : List UInt8, text = space ++ (sign ++ (digits ++ rest)) ∧
    (∀ b ∈ space, isSpace b = true) ∧
    digits ≠ [] ∧ (∀ b ∈ digits, isDigit b = true) ∧ (∀ b ∈ rest.head?, isDigit b = false) ∧
    ((sign = [] ∨ sign = [43]) ∧ z = digitsValue digits ∨
      sign = [45] ∧ z = -(digitsValue digits : Int))

theorem signed_plain (b : UInt8) (rest : List UInt8) (hplus : b ≠ 43) (hminus : b ≠ 45) :
    signed (b :: rest) = (false, b :: rest) := by
  rw [signed, if_neg hplus, if_neg hminus]

theorem signed_minus (rest : List UInt8) : signed (45 :: rest) = (true, rest) := by
  rw [signed, if_neg (by decide), if_pos rfl]

theorem stoi_scanned (s : List UInt8) :
    stoi s = if (scanned s).2 ≠ [] ∧ -(2 ^ 31) ≤ number (scanned s) ∧ number (scanned s) < 2 ^ 31
      then some (number (scanned s)) else none := by
  unfold stoi scanned number
  dsimp only
  split
  · rename_i rest h
    rw [h, signed, if_pos rfl]
  · rename_i rest h
    rw [h, signed_minus]
  · rename_i hplus hminus
    have hsigned : signed (s.dropWhile isSpace) = (false, s.dropWhile isSpace) := by
      cases hrest : s.dropWhile isSpace with
      | nil => rfl
      | cons b rest =>
          refine signed_plain b rest (fun hb => ?_) (fun hb => ?_)
          · exact hplus rest (by rw [hrest, hb])
          · exact hminus rest (by rw [hrest, hb])
    rw [hsigned]

/-- A digit is no sign and no space. -/
theorem digit_plain (b : UInt8) (h : isDigit b = true) :
    isSpace b = false ∧ b ≠ 43 ∧ b ≠ 45 := by
  simp only [isDigit, decide_eq_true_eq, UInt8.le_iff_toNat_le] at h
  have h48 : (48 : UInt8).toNat = 48 := rfl
  have h57 : (57 : UInt8).toNat = 57 := rfl
  refine ⟨?_, ?_, ?_⟩
  · simp only [isSpace, decide_eq_false_iff_not, not_or, not_and, UInt8.le_iff_toNat_le]
    have h13 : (13 : UInt8).toNat = 13 := rfl
    refine ⟨?_, fun _ => by omega⟩
    rintro rfl
    exact absurd h.1 (by decide)
  · rintro rfl
    exact absurd h.1 (by decide)
  · rintro rfl
    exact absurd h.1 (by decide)

/-- Where the digits end. -/
theorem takeWhile_digits (digits rest : List UInt8) (hdigits : ∀ b ∈ digits, isDigit b = true)
    (hrest : ∀ b ∈ rest.head?, isDigit b = false) :
    (digits ++ rest).takeWhile isDigit = digits := by
  rw [List.takeWhile_append_of_pos hdigits]
  cases rest with
  | nil => rw [List.takeWhile_nil, List.append_nil]
  | cons b rest =>
      rw [List.takeWhile_cons_of_neg (by rw [hrest b rfl]; exact Bool.false_ne_true),
        List.append_nil]

/-- Where the space ends. -/
theorem dropWhile_space (space : List UInt8) (b : UInt8) (rest : List UInt8)
    (hspace : ∀ x ∈ space, isSpace x = true) (hb : isSpace b = false) :
    (space ++ b :: rest).dropWhile isSpace = b :: rest := by
  rw [List.dropWhile_append_of_pos hspace,
    List.dropWhile_cons_of_neg (by rw [hb]; exact Bool.false_ne_true)]

/-- The sign is what stands in front of the rest. -/
theorem signed_split (t : List UInt8) :
    ∃ sign, t = sign ++ (signed t).2 ∧
      ((sign = [] ∨ sign = [43]) ∧ (signed t).1 = false ∨ sign = [45] ∧ (signed t).1 = true) := by
  cases t with
  | nil => exact ⟨[], rfl, Or.inl ⟨Or.inl rfl, rfl⟩⟩
  | cons b rest =>
      by_cases hplus : b = 43
      · rw [hplus]
        exact ⟨[43], rfl, Or.inl ⟨Or.inr rfl, rfl⟩⟩
      · by_cases hminus : b = 45
        · rw [hminus, signed_minus]
          exact ⟨[45], rfl, Or.inr ⟨rfl, rfl⟩⟩
        · rw [signed_plain b rest hplus hminus]
          exact ⟨[], rfl, Or.inl ⟨Or.inl rfl, rfl⟩⟩

/-- A text begins with one number at most, the one that is read. -/
theorem begins_iff (s : List UInt8) (z : Int) :
    Begins s z ↔ (scanned s).2 ≠ [] ∧ z = number (scanned s) := by
  constructor
  · rintro ⟨space, sign, digits, rest, rfl, hspace, hdigits, hall, hrest, hz⟩
    rcases List.exists_cons_of_ne_nil hdigits with ⟨d, ds, rfl⟩
    have hd := digit_plain d (hall d List.mem_cons_self)
    have htake := takeWhile_digits (d :: ds) rest hall hrest
    -- No sign, a plus, or a minus.
    rcases hz with ⟨rfl | rfl, hz⟩ | ⟨rfl, hz⟩
    · rw [List.nil_append, List.cons_append, scanned, dropWhile_space space d _ hspace hd.1,
        signed_plain d _ hd.2.1 hd.2.2, ← List.cons_append, htake]
      exact ⟨hdigits, hz⟩
    · rw [List.singleton_append, scanned, dropWhile_space space 43 _ hspace (by decide), signed,
        if_pos rfl, htake]
      exact ⟨hdigits, hz⟩
    · rw [List.singleton_append, scanned, dropWhile_space space 45 _ hspace (by decide),
        signed_minus, htake]
      exact ⟨hdigits, hz⟩
  · -- The pieces are those the scan leaves.
    rintro ⟨hdigits, rfl⟩
    rcases signed_split (s.dropWhile isSpace) with ⟨sign, hsplit, hsign⟩
    refine ⟨s.takeWhile isSpace, sign, (scanned s).2,
      (signed (s.dropWhile isSpace)).2.dropWhile isDigit, ?_,
      fun b hb => List.mem_takeWhile_imp hb, hdigits, fun b hb => List.mem_takeWhile_imp hb, ?_, ?_⟩
    · rw [scanned, List.takeWhile_append_dropWhile, ← hsplit, List.takeWhile_append_dropWhile]
    · intro b hb
      have hnot := List.head?_dropWhile_not isDigit (signed (s.dropWhile isSpace)).2
      rw [Option.mem_def.mp hb] at hnot
      exact hnot
    · rcases hsign with ⟨hsign, hfalse⟩ | ⟨hsign, htrue⟩
      · refine Or.inl ⟨hsign, ?_⟩
        rw [number, scanned, hfalse]
        rfl
      · refine Or.inr ⟨hsign, ?_⟩
        rw [number, scanned, htrue]
        rfl

/-- `std::stoi` reads the number the text begins with, if it is an `int`. -/
theorem stoi_iff (s : List UInt8) (z : Int) :
    stoi s = some z ↔ Begins s z ∧ -(2 ^ 31) ≤ z ∧ z < 2 ^ 31 := by
  rw [stoi_scanned, begins_iff]
  split
  · rename_i h
    rw [Option.some.injEq]
    refine ⟨?_, fun hz => hz.1.2.symm⟩
    rintro rfl
    exact ⟨⟨h.1, rfl⟩, h.2⟩
  · rename_i h
    refine iff_of_false (Option.some_ne_none z).symm ?_
    rintro ⟨⟨hdigits, rfl⟩, hrange⟩
    exact h ⟨hdigits, hrange⟩

/-- `strtol` reads it if it is a `long`. -/
theorem strtol_of_begins (s : List UInt8) (z : Int) (h : Begins s z) (hlow : -(2 ^ 63) ≤ z)
    (hhigh : z < 2 ^ 63) : strtol s = z := by
  rw [strtol, ← ((begins_iff s z).mp h).2]
  omega

/-- Without a number it gives 0. -/
theorem strtol_of_not_begins (s : List UInt8) (h : ∀ z, ¬ Begins s z) : strtol s = 0 := by
  have hnone : (scanned s).2 = [] := by
    by_contra hdigits
    exact h _ ((begins_iff s _).mpr ⟨hdigits, rfl⟩)
  have hzero : number (scanned s) = 0 := by
    rw [number, hnone]
    cases (scanned s).1 <;> rfl
  rw [strtol, hzero]
  rfl

/-! ### Printed numbers -/

/-- A digit as a byte. -/
theorem byte_digit (ch : Char) (h : ch.isDigit = true) :
    isDigit (UInt8.ofNat ch.toNat) = true ∧ (UInt8.ofNat ch.toNat).toNat = ch.toNat := by
  have hrange : 48 ≤ ch.toNat ∧ ch.toNat ≤ 57 := by
    simp only [Char.isDigit, Bool.and_eq_true, decide_eq_true_eq, UInt32.le_iff_toNat_le] at h
    exact h
  have hbyte : (UInt8.ofNat ch.toNat).toNat = ch.toNat :=
    UInt8.toNat_ofNat_of_lt' (Nat.lt_of_le_of_lt hrange.2 (by decide))
  refine ⟨?_, hbyte⟩
  simp only [isDigit, decide_eq_true_eq, UInt8.le_iff_toNat_le, hbyte]
  exact hrange

/-- The value of digits, read as characters and as bytes. -/
theorem foldl_digits (chars : List Char) (h : ∀ ch ∈ chars, ch.isDigit = true) : ∀ n : Nat,
    (chars.map fun ch => UInt8.ofNat ch.toNat).foldl (fun n b => 10 * n + (b.toNat - 48)) n =
      Nat.ofDigitChars 10 chars n := by
  induction chars with
  | nil => exact fun n => rfl
  | cons ch chars ih =>
      intro n
      rw [List.forall_mem_cons] at h
      rw [List.map_cons, List.foldl_cons, Nat.ofDigitChars_cons, ih h.2, (byte_digit ch h.1).2]
      rfl

theorem digitsValue_toDigits (n : Nat) :
    digitsValue ((Nat.toDigits 10 n).map fun ch => UInt8.ofNat ch.toNat) = n := by
  rw [digitsValue, foldl_digits _ (fun ch hch => Nat.isDigit_of_mem_toDigits (by decide)
    (by decide) hch), Nat.ofDigitChars_ten_toDigits]

/-- A printed number is read, with anything behind it that is no digit. -/
theorem begins_decimal (z : Int) (rest : List UInt8) (hrest : ∀ b ∈ rest.head?, isDigit b = false) :
    Begins (decimal z ++ rest) z := by
  have hdigits : ∀ n, ∀ b ∈ (Nat.toDigits 10 n).map (fun ch => UInt8.ofNat ch.toNat),
      isDigit b = true := by
    intro n b hb
    rcases List.mem_map.mp hb with ⟨ch, hch, rfl⟩
    exact (byte_digit ch (Nat.isDigit_of_mem_toDigits (by decide) (by decide) hch)).1
  have hne : ∀ n, (Nat.toDigits 10 n).map (fun ch => UInt8.ofNat ch.toNat) ≠ [] := by
    intro n h
    exact Nat.toDigits_ne_nil (List.map_eq_nil_iff.mp h)
  -- Only a negative number is printed with a sign.
  cases z with
  | ofNat n =>
      refine ⟨[], [], _, rest, rfl, fun _ h => absurd h List.not_mem_nil, hne n, hdigits n, hrest,
        Or.inl ⟨Or.inl rfl, ?_⟩⟩
      exact (congrArg Int.ofNat (digitsValue_toDigits n)).symm
  | negSucc n =>
      refine ⟨[], [45], _, rest, rfl, fun _ h => absurd h List.not_mem_nil, hne (n + 1),
        hdigits (n + 1), hrest, Or.inr ⟨rfl, ?_⟩⟩
      rw [digitsValue_toDigits]
      rfl

end Address

end EpollServer
