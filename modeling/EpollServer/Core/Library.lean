import Mathlib

/-!
# Library Files

What `server.cpp` computes from the files of its library: the version a file
name or an `.algo` file gives, and the meat types an answer takes from an
`.algo` file.

JSON is read and written by a library that is not part of the repository. Its
values are here, with the members of an object in the order of their keys, and
what the program calls is a parameter. A number that is not an integer is
passed on only.

A `std::string` is a list of bytes.

## Main definitions

* `Json`: A JSON value.
* `Interruption`: How a function may end without a result.
* `JsonLibrary`: What the program calls of the library.
* `path`: The path of a file.
* `newMeatType`, `filterMeatTypes`: The loop of `handleAlgoRequest`.
* `answer`: The JSON it sends.
* `hasPrefix`, `hasPostfix`, `stoi`: What the version functions call.
* `LibraryFile`: A file as `operator>>` reads it.
* `getFileVersion`, `getAlgoVersion`: A version.
-/

namespace EpollServer

namespace Library

/-- A value of `nlohmann::json`. -/
inductive Json (ν : Type) where
  | null
  | boolean (b : Bool)
  | integer (n : Int)
  | float (x : ν)
  | string (s : String)
  | array (elements : List (Json ν))
  | object (members : List (String × Json ν))

/-- How a function may end without a result. -/
inductive Interruption where
  /-- `std::exception`. -/
  | exception
  /-- Something without a meaning was done. -/
  | undefined
  /-- It has not ended yet. -/
  | unfinished
  deriving DecidableEq, Repr

/-- What the program calls of the library that reads and writes JSON. -/
structure JsonLibrary (ν : Type) where
  /-- `operator[]` of a value that may change. -/
  index : String → Json ν → Except Interruption (Json ν)
  /-- `operator[]` of a constant value. -/
  indexConst : String → Json ν → Except Interruption (Json ν)
  contains : String → Json ν → Bool
  /-- The values of a loop over a value. -/
  elements : Json ν → List (Json ν)
  /-- `get<int>()`. -/
  getInt : Json ν → Except Interruption Int
  /-- `get<uint32_t>()`. -/
  getUInt32 : Json ν → Except Interruption UInt32
  dump : Json ν → List UInt8

variable {ν : Type} (L : JsonLibrary ν)

/-! ### Paths -/

/-- The name of the directory in `FILE_LIBRARY`. -/
def library : List UInt8 :=
  ['l', 'i', 'b', 'r', 'a', 'r', 'y'].map fun ch => UInt8.ofNat ch.toNat

/-- `'/'`. -/
def separator : UInt8 := 47

/-- `'.'`. -/
def dot : UInt8 := 46

/-- `FILE_LIBRARY`, which is `"./library/"`. -/
def fileLibrary : List UInt8 := dot :: separator :: (library ++ [separator])

/-- The path that is opened for a name. -/
def path (filename : List UInt8) : List UInt8 := fileLibrary ++ filename

/-! ### Meat types -/

/-- The value `newMeatType` of `handleAlgoRequest`. -/
def newMeatType (meatType : Json ν) : Except Interruption (Json ν) := do
  let id ← L.indexConst "id" meatType
  let cubic ← L.indexConst "cubic" meatType
  let quadratic ← L.indexConst "quadratic" meatType
  let linear ← L.indexConst "linear" meatType
  let adjConstant ← L.indexConst "adjConstant" meatType
  let max_days ← L.indexConst "max_days" meatType
  pure (.object [("adjConstant", adjConstant), ("cubic", cubic), ("id", id), ("linear", linear),
    ("max_days", max_days), ("quadratic", quadratic)])

/-- The loop over `originalJson["meat_types"]`, with the meat types found so
    far, of which there are `count`. -/
def filterMeatTypes (requestedIds : List Int) :
    List (Json ν) → List (Json ν) → Except Interruption (List (Json ν))
  | [], filteredMeatTypes => pure filteredMeatTypes
  | meatType :: rest, filteredMeatTypes => do
      let value ← L.indexConst "id" meatType
      let id ← L.getInt value
      if id ∈ requestedIds then
        let new ← newMeatType L meatType
        -- `if (count >= 5) break;`, behind the increment.
        if 5 ≤ filteredMeatTypes.length + 1 then pure (filteredMeatTypes ++ [new])
        else filterMeatTypes requestedIds rest (filteredMeatTypes ++ [new])
      else filterMeatTypes requestedIds rest filteredMeatTypes

/-- `filteredMeatTypes`, which `push_back` turns from `null` into an array. -/
def meatTypesJson : List (Json ν) → Json ν
  | [] => .null
  | filteredMeatTypes => .array filteredMeatTypes

/-- `jsonToSend`, with its algorithm if it has one. -/
def answer (algorithm : Option (Json ν)) (filteredMeatTypes : List (Json ν)) : Json ν :=
  .object ((algorithm.map fun value => ("algorithm", value)).toList ++
    [("meat_types", meatTypesJson filteredMeatTypes)])

/-! ### Versions -/

/-- `hasPrefix`. -/
def hasPrefix (fullString pre : List UInt8) : Bool := fullString.take pre.length = pre

/-- `hasPostfix`. -/
def hasPostfix (fullString post : List UInt8) : Bool :=
  decide (post.length ≤ fullString.length) &&
    decide (fullString.drop (fullString.length - post.length) = post)

/-- `isspace`. -/
def isSpace (b : UInt8) : Bool := b = 32 ∨ (9 ≤ b ∧ b ≤ 13)

/-- `isdigit`. -/
def isDigit (b : UInt8) : Bool := 48 ≤ b ∧ b ≤ 57

/-- Digits as a number. -/
def digitsValue (digits : List UInt8) : Nat := digits.foldl (fun n b => 10 * n + (b.toNat - 48)) 0

/-- `std::stoi` to the base 10: the number in front, if there is one and it is
    an `int`. -/
def stoi (s : List UInt8) : Option Int :=
  let trimmed := s.dropWhile isSpace
  let (negative, rest) : Bool × List UInt8 := match trimmed with
    | 43 :: rest => (false, rest)
    | 45 :: rest => (true, rest)
    | rest => (false, rest)
  let digits := rest.takeWhile isDigit
  let value : Int := if negative then -(digitsValue digits : Int) else digitsValue digits
  if digits ≠ [] ∧ -(2 ^ 31) ≤ value ∧ value < 2 ^ 31 then some value else none

/-- `filename.substr(0, filename.size() - postfix.size()).substr(prefix.size())`. -/
def versionPart (filename pre post : List UInt8) : Except Interruption (List UInt8) :=
  let front := filename.take (filename.length - post.length)
  if pre.length ≤ front.length then pure (front.drop pre.length) else throw .exception

/-- The loop of `getFileVersion` over the names in the library. -/
def fileVersionLoop (pre post : List UInt8) :
    List (List UInt8) → UInt32 → Except Interruption UInt32
  | [], versionNumber => pure versionNumber
  | filename :: rest, versionNumber =>
      if hasPrefix filename pre && hasPostfix filename post then do
        -- `substr` is outside the `try` block, and throws if the two overlap.
        let version ← versionPart filename pre post
        fileVersionLoop pre post rest
          -- `std::stoi` throws for no number: the version stays that of the file before.
          (((stoi version).map UInt32.ofInt).getD versionNumber)
      else fileVersionLoop pre post rest versionNumber

/-- `getFileVersion`. Without a listing `opendir` has failed. -/
def getFileVersion (listing : Option (List (List UInt8))) (pre post : List UInt8) :
    Except Interruption UInt32 :=
  match listing with
  | none => pure 0
  | some filenames => fileVersionLoop pre post filenames 0

/-- A file of the library, as `std::ifstream` and `operator>>` read it. -/
inductive LibraryFile (ν : Type) where
  /-- It cannot be opened. -/
  | closed
  /-- It is no JSON. -/
  | malformed
  | json (value : Json ν)

/-- The version of a file, and the `try` block of `getAlgoVersion` that reads
    it: the new version, if there is one. -/
def algoFileVersion : LibraryFile ν → Except Interruption (Option UInt32)
  | .closed => pure none
  | .malformed => throw .exception
  | .json jsonFile =>
      if L.contains "algorithm" jsonFile then do
        let algorithm ← L.index "algorithm" jsonFile
        if L.contains "versionNumber" algorithm then do
          let version ← L.index "versionNumber" algorithm
          let versionNumber ← L.getUInt32 version
          pure (some versionNumber)
        else pure none
      else pure none

/-- The loop of `getAlgoVersion` over the names in the library. -/
def algoVersionLoop (file : List UInt8 → LibraryFile ν)
    (pre post : List UInt8) : List (List UInt8) → UInt32 → UInt32
  | [], versionNumber => versionNumber
  | filename :: rest, versionNumber =>
      if hasPrefix filename pre && hasPostfix filename post then
        match algoFileVersion L (file (path filename)) with
        | .ok version => algoVersionLoop file pre post rest (version.getD versionNumber)
        -- The exception is caught in the loop, and the file passed over.
        | .error _ => algoVersionLoop file pre post rest versionNumber
      else algoVersionLoop file pre post rest versionNumber

/-- `getAlgoVersion`. -/
def getAlgoVersion (file : List UInt8 → LibraryFile ν)
    (listing : Option (List (List UInt8))) (pre post : List UInt8) : UInt32 :=
  match listing with
  | none => 0
  | some filenames => algoVersionLoop L file pre post filenames 0

end Library

end EpollServer
