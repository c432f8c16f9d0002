import Mathlib

/-!
# The Configuration File

`loadConfig` of `mysqlConnectionPool.cpp`.

`std::getline` gives the bytes in front of the next newline, or of the end of
the file, and fails if there are none at all. A line has its key in front of
its first `=`. Of the value behind it the padding at both ends is cut off,
unless the value is nothing but padding.

A `std::string` is a list of bytes, and a `std::unordered_map` a function.

## Main definitions

* `getlines`: The lines of a file.
* `find`, `findFirstNotOf`, `findLastNotOf`: Positions in a string.
* `trim`: What is done to a value.
* `loadConfig`: The map of a file.
-/

namespace EpollServer

namespace Config

/-- `'\n'`. -/
def newline : UInt8 := 10

/-- `'='`. -/
def delimiter : UInt8 := 61

/-- A byte of `" \t'"`. -/
def isPadding (b : UInt8) : Bool := b = 32 ∨ b = 9 ∨ b = 39

/-- The lines `std::getline` gives, one after the other, with the bytes it has
    taken out for the present one. -/
def getlines : List UInt8 → List UInt8 → List (List UInt8)
  -- At the end of the file a line without bytes is a failure.
  | line, [] => if line = [] then [] else [line]
  | line, b :: rest => if b = newline then line :: getlines [] rest else getlines (line ++ [b]) rest

/-- `find`, and without a position `npos`. -/
def find (b : UInt8) (s : List UInt8) : Option Nat := s.findIdx? fun x => decide (x = b)

/-- `find_first_not_of(" \t'")`. -/
def findFirstNotOf (s : List UInt8) : Option Nat := s.findIdx? fun x => !isPadding x

/-- `find_last_not_of(" \t'")`. -/
def findLastNotOf (s : List UInt8) : Option Nat :=
  (s.reverse.findIdx? fun x => !isPadding x).map fun i => s.length - 1 - i

/-- The value without the padding at its ends. -/
def trim (value : List UInt8) : List UInt8 :=
  match findFirstNotOf value, findLastNotOf value with
  | some valueBegin, some valueEnd => (value.drop valueBegin).take (valueEnd - valueBegin + 1)
  | _, _ => value

/-- The map after a line. -/
def readLine (config : List UInt8 → Option (List UInt8)) (line : List UInt8) :
    List UInt8 → Option (List UInt8) :=
  match find delimiter line with
  | some delimiterPos =>
      let key := line.take delimiterPos
      let value := line.drop (delimiterPos + 1)
      Function.update config key (some (trim value))
  | none => config

/-- `loadConfig`. A file that cannot be opened has no lines. -/
def loadConfig (file : Option (List UInt8)) : List UInt8 → Option (List UInt8) :=
  (getlines [] (file.getD [])).foldl readLine fun _ => none

end Config

end EpollServer
