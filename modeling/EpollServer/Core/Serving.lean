import EpollServer.Core.Handler
import EpollServer.Core.ConnectionPool

/-!
# Handlers and Their Database Connections

The tasks of `Core.Handler` on the pool of `Core.ConnectionPool`.

Each half leaves open what the other one decides. To the handlers it is open
whether `getConnection` returns or throws, and to the pool who calls it and
when. Here the task of a connection makes the calls: it calls `getConnection`
once, goes on when its call has returned or thrown, and calls
`returnConnection` with what it was given. In between the calls of all tasks go
on in any order, one at a time behind the mutex.

A task that ends with an exception while it serves never returns its database
connection. The `shared_ptr` to it goes with the frame of `connectionHandler`;
for the pool its call holds the connection for ever.

`returnConnection` may throw too. The pool is then as after a return, so the
calls that have thrown are kept in a list of their own.

## Main definitions

* `Task`: A connection and its call of the pool.
* `State`: The tasks and the pool.
* `throws`: An exception that leaves `returnConnection`.
* `machine`: The tasks and the pool as a machine.
-/

namespace EpollServer

namespace Serving

open Handler (Connection TaskAct taskStep)
open Push (Layout Environment)

/-- The task of a connection, and the call of `getConnection` it has made. -/
structure Task (ν : Type) where
  handler : Connection ν
  call : Option Nat
  deriving DecidableEq, Repr

/-- The tasks of all connections, the counter, and the database pool. -/
structure State (ν : Type) where
  tasks : List (Task ν)
  activeConnections : Int
  pool : ConnectionPool.State
  /-- The calls of `returnConnection` that have thrown. -/
  thrown : List Nat
  deriving DecidableEq, Repr

/-- No connection, and a pool. -/
def initial (ν : Type) (pool : ConnectionPool.State) : State ν :=
  { tasks := [], activeConnections := 0, pool := pool, thrown := [] }

variable {ν : Type}

/-- The connections and the counter, as the handlers see them. -/
def State.handlers (s : State ν) : Handler.State ν :=
  { connections := s.tasks.map Task.handler, activeConnections := s.activeConnections }

/-- A task is replaced by another one. -/
def State.setTask (s : State ν) (c : Nat) (task : Task ν) : State ν :=
  { s with tasks := s.tasks.modify c (fun _ => task) }

/-- A piece of a task that is about its connection only. -/
def isLocal {L : Layout ν} : TaskAct L → Bool
  | .getConnection _ => false
  | .returnConnection _ => false
  | _ => true

/-- A piece of a call, behind its beginning. -/
def isInternal : ConnectionPool.Act → Bool
  | .getConnection => false
  | .returnConnection _ => false
  | _ => true

/-- The call of `returnConnection` that an exception leaves in this step. -/
def throws (pool : ConnectionPool.State) : ConnectionPool.Act → List Nat
  | .validate k .exception => match pool.calls[k]? with
    | some (.rechecking _) => [k]
    | _ => []
  | .create k connects => match pool.calls[k]?, ConnectionPool.createNewConnection connects with
    | some .replacing, .exception => [k]
    | _, _ => []
  | _ => []

/-- A piece `a` of the task of connection `c` has been taken. -/
def State.handled {L : Layout ν} (s : State ν) (c : Nat) (task : Task ν) (a : TaskAct L)
    (handler : Connection ν) : State ν :=
  { s.setTask c { task with handler := handler } with
    activeConnections := match a with
      | .decrement => s.activeConnections - 1
      | _ => s.activeConnections }

/-- A step of the task of a connection. -/
def handle (L : Layout ν) (env : Environment) (s : State ν) (c : Nat) (task : Task ν)
    (a : TaskAct L) : Option (State ν) :=
  (taskStep L env task.handler a).map (s.handled c task a)

/-- What happens next. -/
inductive Act (L : Layout ν) where
  | accept (registered : Bool)
  | task (c : Nat) (a : TaskAct L)
  /-- The task calls `getConnection`. -/
  | getConnection (c : Nat)
  /-- Its call has returned or thrown. -/
  | gotConnection (c : Nat)
  /-- The task calls `returnConnection`. -/
  | returnConnection (c : Nat)
  | gaveConnection (c : Nat)
  /-- A piece of a call. -/
  | pool (a : ConnectionPool.Act)

/-- The tasks and the pool as a step function. -/
def step (L : Layout ν) (env : Nat → Environment) (s : State ν) : Act L → Option (State ν)
  | .accept registered =>
      if registered then
        some { s with
          tasks := s.tasks ++ [{ handler := .opened ν, call := none }]
          activeConnections := s.activeConnections + 1 }
      else some s
  | .task c a => match s.tasks[c]? with
    | none => none
    | some task => if isLocal a then handle L (env c) s c task a else none
  | .getConnection c => match s.tasks[c]? with
    | none => none
    | some task =>
        if task.handler.phase = .started ∧ task.call = none then
          (ConnectionPool.step s.pool .getConnection).map fun pool =>
            { s.setTask c { task with call := some s.pool.calls.length } with pool := pool }
        else none
  -- The task goes on as soon as its call is over, and not before.
  | .gotConnection c => match s.tasks[c]? with
    | none => none
    | some task => match task.call.bind fun k => s.pool.calls[k]? with
      | some (.holding _) => handle L (env c) s c task (.getConnection true)
      | some .failed => handle L (env c) s c task (.getConnection false)
      | _ => none
  | .returnConnection c => match s.tasks[c]? with
    | none => none
    | some task =>
        if task.handler.phase = .removed then
          match task.call with
          | none => none
          | some k => (ConnectionPool.step s.pool (.returnConnection k)).map fun pool =>
              { s with pool := pool }
        else none
  | .gaveConnection c => match s.tasks[c]? with
    | none => none
    | some task => match task.call with
      | none => none
      | some k => match s.pool.calls[k]? with
        -- For the pool a call that has thrown is done as well.
        | some .done => handle L (env c) s c task (.returnConnection (decide (k ∉ s.thrown)))
        | _ => none
  | .pool a =>
      if isInternal a then
        (ConnectionPool.step s.pool a).map fun pool =>
          { s with pool := pool, thrown := s.thrown ++ throws s.pool a }
      else none

/-- The tasks and the pool as a machine. -/
def machine (L : Layout ν) (env : Nat → Environment) : Machine (State ν) (Act L) :=
  { step := step L env }

end Serving

end EpollServer
