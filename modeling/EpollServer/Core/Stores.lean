import EpollServer.Core.Database
import Mathlib.Logic.Function.Basic

/-!
# The Database Connections Side by Side

The tables of `Core.Database` are shared: each handler has a database
connection of its own, and the statements of all of them reach the database in
some order. What a handler does with its statements is fixed by its log; how
the logs are interleaved is not.

`LAST_INSERT_ID()` is a value of the connection, not of the database: the id of
the last sweep inserted over it, whatever the others have inserted since. A
query for it is in a log as a success, and what it has returned is an outcome
of the environment of its connection, so it can only come where the two agree.

The id of a sweep is given by the database and has 32 bits. When all are used
up, the insert of a sweep does not succeed.

## Main definitions

* `State`: The tables, and for each connection its last id and how far it is.
* `possible`: Where an event of a log can come.
* `machine`: The connections as a machine.
-/

namespace EpollServer

namespace Stores

open Push (Database Environment Event)

variable {ν : Type}

/-- The database, and how far each connection is with its log. -/
structure State (ν : Type) where
  db : Database ν
  /-- What `LAST_INSERT_ID()` gives on each connection. -/
  lastInsertId : Nat → UInt32
  /-- How many events of its log each connection has behind it. -/
  position : Nat → Nat
  /-- How many of these were statements. -/
  statements : Nat → Nat

/-- Empty tables, and new connections. -/
def initial (ν : Type) : State ν :=
  { db := Database.empty ν, lastInsertId := fun _ => 0, position := fun _ => 0,
    statements := fun _ => 0 }

/-- An event that is the `n`-th statement of its connection, if it is one, can
    come now. -/
def possible (env : Environment) (n : Nat) (lastInsertId : UInt32) (db : Database ν) :
    Event ν → Bool
  | .statement .selectLastInsertId true =>
      decide (env.outcomes n = .done (some lastInsertId))
  | .statement (.insertSweep _ _) true => decide (db.nextSweepId ≠ 0)
  | _ => true

/-- What `LAST_INSERT_ID()` gives after an event. -/
def lastAfter (lastInsertId : UInt32) (db : Database ν) : Event ν → UInt32
  | .statement (.insertSweep _ _) true => db.nextSweepId
  | _ => lastInsertId

/-- How many statements were tried after an event. -/
def statementsAfter (n : Nat) : Event ν → Nat
  | .statement _ _ => n + 1
  | _ => n

/-- Connection `c` goes on with its log. -/
def step (env : Nat → Environment) (logs : Nat → List (Event ν)) (s : State ν) (c : Nat) :
    Option (State ν) :=
  match (logs c)[s.position c]? with
  | none => none
  | some e =>
      if possible (env c) (s.statements c) (s.lastInsertId c) s.db e then
        some
          { db := s.db.record e
            lastInsertId :=
              Function.update s.lastInsertId c (lastAfter (s.lastInsertId c) s.db e)
            position := Function.update s.position c (s.position c + 1)
            statements := Function.update s.statements c (statementsAfter (s.statements c) e) }
      else none

/-- The connections as a machine: its runs are the interleavings of the logs. -/
def machine (env : Nat → Environment) (logs : Nat → List (Event ν)) :
    Machine (State ν) Nat :=
  { step := step env logs }

end Stores

end EpollServer
