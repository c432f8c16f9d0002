import EpollServer.Lib.Path
import EpollServer.Core.Requests

/-!
# Paths in the Library

Where the path leads that `handleAlgoRequest` and `handleFirmwareRequest` open
for the name of a file.

## Main definitions

* `PassedOn`: The names `handleFileRequest` passes on.
* `segments`: The segments of a path.
* `resolvePath`: Where a path leads.
-/

namespace EpollServer

namespace Requests

open Paths
open Library (separator dot)

/-- The names `handleFileRequest` passes on. -/
def PassedOn (filename : List UInt8) : Prop :=
  5 < filename.length ∧ (filename.drop (filename.length - 5) = algoPostfix ∨
    filename.drop (filename.length - 4) = dfuPostfix)

instance (filename : List UInt8) : Decidable (PassedOn filename) :=
  inferInstanceAs (Decidable (_ ∧ _))

/-- What a segment does. -/
def segmentOf (s : List UInt8) : Segment (List UInt8) :=
  if s = [] ∨ s = [dot] then .current
  else if s = [dot, dot] then .parent
  else .name s

/-- The segments of a path. -/
def segments (path : List UInt8) : List (Segment (List UInt8)) :=
  (path.splitOn separator).map segmentOf

/-- Where a path leads from the working directory. -/
def resolvePath (path : List UInt8) : Place (List UInt8) := resolve ⟨0, []⟩ (segments path)

end Requests

end EpollServer
