import EpollServer.Lib.Machine

/-!
# Version Requests and `.algo` Files

`handleVersionRequest` and `handleAlgoRequest` of `server.cpp`, as far as they
decide whether an `.algo` file is sent with its "algorithm" section.

The two handlers share `isAlgorithmNeeded`, a static variable of the file. A
version request sets it when the versions differ, and a file request that
finds it set clears it and puts the section into the answer. Each connection
handles one request at a time, but the connections run in threads of their
own, so `handleAlgoRequest` is cut where another thread may come in between:
after the file has been read, between the test of the variable and its
clearing, before the answer is dumped, and before each block that is sent.

What a library file contains, which meat types are asked for and how long the
dump is play no part here; the version a request finds and the number of
blocks are arbitrary. A dump is never empty, so there is at least one block.

`lastVersion`, `served` and `delivered` are not part of the program. They
record for each connection what its last `.algo` version request found and
whether a file has been delivered since, and every delivery.

## Main definitions

* `Phase`: Where a connection stands in `handleAlgoRequest`.
* `Connection`, `State`: The connections and the shared variable.
* `Delivery`: An `.algo` file with every block acknowledged.
* `handleVersionRequest`: A version request.
* `openLibraryFile`, `testNeeded`, `clearNeeded`, `dumpAnswer`, `sendBlock`:
  The pieces of `handleAlgoRequest`.
* `machine`: The connections as a machine.
-/

namespace EpollServer

namespace Algo

/-- Where a connection stands in `handleAlgoRequest`. -/
inductive Phase where
  /-- Not in it. -/
  | idle
  /-- The file has been read, before the test of `isAlgorithmNeeded`. -/
  | opened
  /-- `isAlgorithmNeeded` was set, before it is cleared. -/
  | tested
  /-- The answer is put together, with the section or without. -/
  | building (algorithm : Bool)
  /-- A block is to be sent, and `rest` more after it. -/
  | sending (algorithm : Bool) (rest : Nat)
  deriving DecidableEq, Repr

/-- A connection, with what was recorded of its files. -/
structure Connection where
  phase : Phase
  /-- Whether the last `.algo` version request found another version. -/
  lastVersion : Option Bool
  /-- Whether a file has been delivered since. -/
  served : Bool
  deriving DecidableEq, Repr

/-- A connection before its first request. -/
def Connection.opened : Connection := { phase := .idle, lastVersion := none, served := false }

/-- An `.algo` file with every block acknowledged, and what was recorded of the
    connection then. -/
structure Delivery where
  connection : Nat
  algorithm : Bool
  lastVersion : Option Bool
  served : Bool
  deriving DecidableEq, Repr

/-- The static variable, the connections and what was delivered. -/
structure State where
  isAlgorithmNeeded : Bool
  connections : Nat → Connection
  delivered : List Delivery

/-- No request has been made. -/
def initial : State :=
  { isAlgorithmNeeded := false, connections := fun _ => Connection.opened, delivered := [] }

/-- A connection is replaced by another one. -/
def State.setConnection (s : State) (c : Nat) (k : Connection) : State :=
  { s with connections := Function.update s.connections c k }

/-- A connection goes on to another phase. -/
def State.setPhase (s : State) (c : Nat) (p : Phase) : State :=
  s.setConnection c { s.connections c with phase := p }

/-- `handleVersionRequest`. `version` is what `getAlgoVersion` returns. -/
def handleVersionRequest (c : Nat) (postfix' : String) (version algoVersion : UInt32) (s : State) :
    State :=
  if postfix' = ".algo" then
    { s with
      -- Equal versions leave the flag as it is, perhaps set by another connection.
      isAlgorithmNeeded := if version ≠ algoVersion then true else s.isAlgorithmNeeded }
    |>.setConnection c { s.connections c with
      lastVersion := some (decide (version ≠ algoVersion)), served := false }
  else s

/-- `handleAlgoRequest` up to the parsed file. When the file cannot be opened or
    parsed, the exception is answered with `fileErrorResponse`. -/
def openLibraryFile (c : Nat) (parsed : Bool) (s : State) : State :=
  if parsed then s.setPhase c .opened else s

/-- `if (isAlgorithmNeeded)`. -/
def testNeeded (c : Nat) (s : State) : State :=
  s.setPhase c (if s.isAlgorithmNeeded then .tested else .building false)

/-- The body of this `if`. Taking the section from a file that is no JSON object
    is an exception, which is answered with `fileErrorResponse`. -/
def clearNeeded (c : Nat) (object : Bool) (s : State) : State :=
  if object then { s.setPhase c (.building true) with isAlgorithmNeeded := false }
  else s.setPhase c .idle

/-- From there to the loop that sends the dump. `none` is an exception, which is
    answered with `fileErrorResponse`. -/
def dumpAnswer (c : Nat) (algorithm : Bool) (rest : Option Nat) (s : State) : State :=
  match rest with
  | none => s.setPhase c .idle
  | some n => s.setPhase c (.sending algorithm n)

/-- One pass through this loop. A block that is not acknowledged ends the
    request with `fileErrorResponse`. -/
def sendBlock (c : Nat) (algorithm : Bool) (rest : Nat) (acknowledged : Bool) (s : State) :
    State :=
  if acknowledged then
    match rest with
    | n + 1 => s.setPhase c (.sending algorithm n)
    | 0 =>
        { s.setConnection c { s.connections c with phase := .idle, served := true } with
          delivered := s.delivered ++
            [{ connection := c, algorithm := algorithm,
               lastVersion := (s.connections c).lastVersion,
               served := (s.connections c).served }] }
  else s.setPhase c .idle

/-- What the thread of a connection does next. -/
inductive Act where
  | version (c : Nat) (postfix' : String) (version algoVersion : UInt32)
  | openFile (c : Nat) (parsed : Bool)
  | test (c : Nat)
  | clear (c : Nat) (object : Bool)
  | dump (c : Nat) (rest : Option Nat)
  | send (c : Nat) (acknowledged : Bool)
  deriving DecidableEq, Repr

/-- The connections as a step function. -/
def step (s : State) : Act → Option State
  | .version c postfix' version algoVersion => match (s.connections c).phase with
    | .idle => some (handleVersionRequest c postfix' version algoVersion s)
    | _ => none
  | .openFile c parsed => match (s.connections c).phase with
    | .idle => some (openLibraryFile c parsed s)
    | _ => none
  | .test c => match (s.connections c).phase with
    | .opened => some (testNeeded c s)
    | _ => none
  | .clear c object => match (s.connections c).phase with
    | .tested => some (clearNeeded c object s)
    | _ => none
  | .dump c rest => match (s.connections c).phase with
    | .building algorithm => some (dumpAnswer c algorithm rest s)
    | _ => none
  | .send c acknowledged => match (s.connections c).phase with
    | .sending algorithm rest => some (sendBlock c algorithm rest acknowledged s)
    | _ => none

/-- The connections as a machine. -/
def machine : Machine State Act := { step := step }

end Algo

end EpollServer
