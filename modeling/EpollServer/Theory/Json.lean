import EpollServer.Core.Library

/-!
# What the JSON Library Does

`JsonLibrary` holds the functions of the JSON library as parameters. Here is
what its documentation says of them, in terms of the values.

`operator[]` of a value that may change gives `null` for a key that is not
there, also where the value itself is `null`. Of a constant value it has no
meaning then. Both throw on a value that has no members. A loop over `null` has
no pass, a loop over an object goes through its values, and a loop over a number
or a string has one pass, with the value itself. `get<int>()` gives an integer
that is an `int`, and nothing else ends it than an exception.

Nothing is assumed of `contains` and `get<uint32_t>()`.

## Main definitions

* `Json.members`, `Json.field`, `Json.contains`, `Json.elements`: The parts of a
  value.
* `JsonLibrary.Documented`: What is assumed of the library.
* `nlohmann`: A library that does so.

## Theorems

* `indexConst_object`: A member of an object is there, or has no meaning.
* `nlohmann_documented`: The assumptions are met.
-/

namespace EpollServer

namespace Library

variable {ν : Type}

/-- The members of an object. -/
def Json.members : Json ν → List (String × Json ν)
  | .object members => members
  | _ => []

/-- The member with this key, or `null`. -/
def Json.field (key : String) (value : Json ν) : Json ν := (value.members.lookup key).getD .null

/-- Whether there is a member with this key. -/
def Json.contains (key : String) (value : Json ν) : Bool := (value.members.lookup key).isSome

/-- The values a loop goes through. -/
def Json.elements : Json ν → List (Json ν)
  | .null => []
  | .array elements => elements
  | .object members => members.map Prod.snd
  | value => [value]

/-- What is assumed of the library. -/
structure JsonLibrary.Documented (L : JsonLibrary ν) : Prop where
  index : ∀ key value, (value = .null ∨ ∃ members, value = .object members) →
    L.index key value = .ok (value.field key)
  index_throws : ∀ key value, ¬ (value = .null ∨ ∃ members, value = .object members) →
    L.index key value = .error .exception
  indexConst : ∀ key value, value.contains key = true →
    L.indexConst key value = .ok (value.field key)
  indexConst_undefined : ∀ key members, (Json.object members).contains key = false →
    L.indexConst key (.object members) = .error .undefined
  indexConst_throws : ∀ key value, (¬ ∃ members, value = .object members) →
    L.indexConst key value = .error .exception
  elements : ∀ value, L.elements value = value.elements
  getInt : ∀ n : Int, -(2 ^ 31) ≤ n → n < 2 ^ 31 → L.getInt (.integer n) = .ok n
  getInt_throws : ∀ value e, L.getInt value = .error e → e = .exception

theorem object_of_contains {value : Json ν} {key : String} (h : value.contains key = true) :
    ∃ members, value = .object members := by
  cases value with
  | object members => exact ⟨members, rfl⟩
  | _ => exact absurd h Bool.false_ne_true

/-- A member of an object is there, or it has no meaning to ask for it. -/
theorem indexConst_object {L : JsonLibrary ν} (hL : L.Documented) {value : Json ν}
    (h : ∃ members, value = .object members) (key : String) :
    L.indexConst key value = if value.contains key = true then .ok (value.field key)
      else .error .undefined := by
  by_cases hkey : value.contains key = true
  · rw [if_pos hkey, hL.indexConst key value hkey]
  · rw [if_neg hkey]
    rcases h with ⟨members, rfl⟩
    exact hL.indexConst_undefined key members (Bool.eq_false_iff.mpr hkey)

/-! ### A library -/

/-- `operator[]` of a constant value, for a member that may be missing. -/
def memberOf : Option (Json ν) → Except Interruption (Json ν)
  | some value => .ok value
  | none => .error .undefined

/-- The library, with a conversion of the numbers that are not integers. -/
def nlohmann (truncate : ν → Int) (dump : Json ν → List UInt8) : JsonLibrary ν where
  index key
    | .null => .ok .null
    | .object members => .ok ((members.lookup key).getD .null)
    | _ => .error .exception
  indexConst key
    | .object members => memberOf (members.lookup key)
    | _ => .error .exception
  contains := Json.contains
  elements := Json.elements
  getInt
    | .integer n => .ok (n.bmod (2 ^ 32))
    | .float x => .ok (truncate x)
    | .boolean b => .ok (if b then 1 else 0)
    | _ => .error .exception
  getUInt32
    | .integer n => .ok (UInt32.ofInt n)
    | .float x => .ok (UInt32.ofInt (truncate x))
    | .boolean b => .ok (if b then 1 else 0)
    | _ => .error .exception
  dump := dump

theorem nlohmann_documented (truncate : ν → Int) (dump : Json ν → List UInt8) :
    (nlohmann truncate dump).Documented where
  index key value h := by
    rcases h with rfl | ⟨members, rfl⟩
    · rfl
    · rfl
  index_throws key value h := by
    cases value with
    | null => exact absurd (.inl rfl) h
    | object members => exact absurd (.inr ⟨members, rfl⟩) h
    | _ => rfl
  indexConst key value h := by
    rcases object_of_contains h with ⟨members, rfl⟩
    rcases Option.isSome_iff_exists.mp h with ⟨member, hmember⟩
    change memberOf (members.lookup key) = .ok ((members.lookup key).getD .null)
    rw [show members.lookup key = some member from hmember]
    rfl
  indexConst_undefined key members h := by
    change memberOf (members.lookup key) = _
    have hnone : members.lookup key = none :=
      Option.isNone_iff_eq_none.mp (Option.isSome_eq_false_iff.mp h)
    rw [hnone]
    rfl
  indexConst_throws key value h := by
    cases value with
    | object members => exact absurd ⟨members, rfl⟩ h
    | _ => rfl
  elements value := rfl
  getInt n hlow hhigh := by
    -- The conversion does not change an `int`.
    change Except.ok (n.bmod (2 ^ 32)) = _
    rw [Int.bmod_eq_of_le (by omega) (by omega)]
  getInt_throws value e h := by
    cases value with
    | integer n => cases h
    | float x => cases h
    | boolean b => cases h
    | _ =>
        cases h
        rfl

end Library

end EpollServer
