import EpollServer.Lib.Machine

/-!
# The Database Connection Pool

`MySqlConnectionPool` of `mysqlConnectionPool.cpp`: a queue of idle
connections behind a mutex, `getConnection` and `returnConnection`.

Any number of threads call it, so a state holds every call of `getConnection`
made so far, each with the place it has come to. A call goes on after it has
returned: the caller holds the connection, and may return it once. Whatever is
done between `lock` and `unlock` is cut into the passes of the loop, the
validation of a connection and the making of a new one, with the mutex held
throughout; between two attempts `getConnection` sleeps without it.

A connection is a number, and `driver->connect` gives a new one each time or
fails. What `SELECT 1` and the driver answer is part of the action. An
exception other than `sql::SQLException` is kept apart, since only one of the
three callers of `createNewConnection` catches it.

`dropped`, `validated` and `handedOut` are not part of the program: how many
connections went away without another one in their place, which connections
each call of `getConnection` has found valid, and what it has returned.

## Main definitions

* `Phase`: Where a call has come to.
* `State`: The pool and all calls.
* `createNewConnection`: The connection loop.
* `construct`: The constructor.
* `search`, `checkPopped`, `refill`, `returnFound`: The pieces of
  `getConnection`.
* `checkReturned`, `replace`: The pieces of `returnConnection`.
* `machine`: The pool as a machine.
-/

namespace EpollServer

namespace ConnectionPool

/-- `maxAttempts` of `getConnection`. -/
def maxAttempts : Nat := 3

/-- `maxCreateAttempts` of `createNewConnection`. -/
def maxCreateAttempts : Nat := 3

/-- Where a call has come to. -/
inductive Phase where
  /-- Before it locks the mutex for attempt `attempt`. -/
  | waiting (attempt : Nat)
  /-- In front of `while (!connectionQueue.empty())`. -/
  | searching (attempt : Nat)
  /-- `conn` has been popped and is being validated. -/
  | validating (attempt : Nat) (conn : Nat)
  /-- A connection was not valid, and another one is being made. -/
  | creating (attempt : Nat)
  /-- `conn` is valid and about to be returned. -/
  | found (conn : Nat)
  /-- The caller has `conn`. -/
  | holding (conn : Nat)
  /-- The caller has called `returnConnection`, before it locks the mutex. -/
  | returning (conn : Nat)
  /-- `conn` is being validated by `returnConnection`. -/
  | rechecking (conn : Nat)
  /-- It was not valid, and `returnConnection` makes another one. -/
  | replacing
  /-- The connection has been returned. -/
  | done
  /-- `getConnection` has thrown. -/
  | failed
  deriving DecidableEq, Repr

/-- The pool and the calls on it, with what was recorded of them. -/
structure State where
  connectionQueue : List Nat
  /-- The call that holds the mutex. -/
  mutex : Option Nat
  calls : List Phase
  /-- The next connection of the driver. -/
  nextConnection : Nat
  dropped : Nat
  /-- Call and connection of each successful validation by `getConnection`. -/
  validated : List (Nat × Nat)
  /-- Call and connection of each return of `getConnection`. -/
  handedOut : List (Nat × Nat)
  deriving DecidableEq, Repr

/-- A call goes on to another phase. -/
def State.setCall (s : State) (k : Nat) (p : Phase) : State :=
  { s with calls := s.calls.modify k (fun _ => p) }

/-- A connection is gone and none is in its place. -/
def State.drop (s : State) : State := { s with dropped := s.dropped + 1 }

/-- `connectionQueue.push` of a connection just made. -/
def State.pushNew (s : State) : State :=
  { s with
    connectionQueue := s.connectionQueue ++ [s.nextConnection]
    nextConnection := s.nextConnection + 1 }

/-- The mutex is released. -/
def State.unlock (s : State) : State := { s with mutex := none }

/-! ### Making connections -/

/-- What `driver->connect` and `setSchema` do. -/
inductive Connect where
  | connected
  /-- `connect` returns a null pointer. -/
  | null
  | sqlException
  | exception
  deriving DecidableEq, Repr

/-- What `createNewConnection` returns or throws. -/
inductive Created where
  | connection
  | nullptr
  | exception
  deriving DecidableEq, Repr

/-- The loop of `createNewConnection` from attempt `attempt` on, with
    `remaining` attempts left. -/
def createLoop (connects : Nat → Connect) (attempt : Nat) : Nat → Created
  | 0 => .nullptr
  | remaining + 1 => match connects attempt with
    | .connected => .connection
    | .null => createLoop connects (attempt + 1) remaining
    | .sqlException => createLoop connects (attempt + 1) remaining
    | .exception => .exception

/-- `createNewConnection`, which makes three attempts. -/
def createNewConnection (connects : Nat → Connect) : Created :=
  createLoop connects 0 maxCreateAttempts

/-- `createConnection`. `none` is an exception that it does not catch. -/
def createConnection (connects : Nat → Connect) (s : State) : Option State :=
  match createNewConnection connects with
  | .connection => some s.pushNew
  -- Nothing is pushed, and the constructor goes on with a smaller pool.
  | .nullptr => some s.drop
  | .exception => none

/-- The loop of the constructor from `i` on, with `remaining` passes left. -/
def createConnections (connects : Nat → Nat → Connect) (i : Nat) : Nat → State → Option State
  | 0, s => some s
  | remaining + 1, s => match createConnection (connects i) s with
    | none => none
    | some t => createConnections connects (i + 1) remaining t

/-- The constructor. `none` is an exception, which leaves no pool. -/
def construct (poolSize : Int) (connects : Nat → Nat → Connect) : Option State :=
  createConnections connects 0 poolSize.toNat
    { connectionQueue := [], mutex := none, calls := [], nextConnection := 0, dropped := 0,
      validated := [], handedOut := [] }

/-! ### The two calls -/

/-- What `SELECT 1` comes to. -/
inductive Validation where
  | valid
  | invalid
  | exception
  deriving DecidableEq, Repr

/-- One test of `while (!connectionQueue.empty())`, and the end of the attempt
    if the queue is empty. -/
def search (k attempt : Nat) (s : State) : State :=
  match s.connectionQueue with
  | conn :: rest => { s with connectionQueue := rest }.setCall k (.validating attempt conn)
  | [] =>
      -- The lock is released to sleep, and taken again in the next attempt.
      if attempt < maxAttempts - 1 then (s.setCall k (.waiting (attempt + 1))).unlock
      else (s.setCall k .failed).unlock

/-- `getConnection` after `isConnectionValid`. -/
def checkPopped (k attempt conn : Nat) (validation : Validation) (s : State) : State :=
  match validation with
  | .valid => { s with validated := s.validated ++ [(k, conn)] }.setCall k (.found conn)
  | .invalid => s.setCall k (.creating attempt)
  -- The popped connection goes with the exception.
  | .exception => (s.setCall k .failed).drop.unlock

/-- `return conn`. -/
def returnFound (k conn : Nat) (s : State) : State :=
  ({ s with handedOut := s.handedOut ++ [(k, conn)] }.setCall k (.holding conn)).unlock

/-- `getConnection` after `createNewConnection`, back to the loop. An exception
    is caught. -/
def refill (k attempt : Nat) (created : Created) (s : State) : State :=
  match created with
  | .connection => (s.setCall k (.searching attempt)).pushNew
  -- The pool is one connection smaller, and the loop goes on.
  | .nullptr => (s.setCall k (.searching attempt)).drop
  | .exception => (s.setCall k (.searching attempt)).drop

/-- `returnConnection` after `isConnectionValid`. -/
def checkReturned (k conn : Nat) (validation : Validation) (s : State) : State :=
  match validation with
  | .valid =>
      ({ s with connectionQueue := s.connectionQueue ++ [conn] }.setCall k .done).unlock
  | .invalid => s.setCall k .replacing
  | .exception => (s.setCall k .done).drop.unlock

/-- `returnConnection` after `createNewConnection`. An exception goes to the
    caller. -/
def replace (k : Nat) (created : Created) (s : State) : State :=
  match created with
  | .connection => (s.setCall k .done).pushNew.unlock
  | .nullptr => (s.setCall k .done).drop.unlock
  | .exception => (s.setCall k .done).drop.unlock

/-- What a thread does next. -/
inductive Act where
  /-- A new call of `getConnection`. -/
  | getConnection
  | lock (k : Nat)
  | pass (k : Nat)
  | validate (k : Nat) (validation : Validation)
  | create (k : Nat) (connects : Nat → Connect)
  /-- `return conn`. -/
  | handOut (k : Nat)
  /-- The caller of call `k` returns its connection. -/
  | returnConnection (k : Nat)

/-- The pool as a step function. -/
def step (s : State) : Act → Option State
  | .getConnection => some { s with calls := s.calls ++ [.waiting 0] }
  | .lock k => match s.mutex, s.calls[k]? with
    | none, some (.waiting attempt) =>
        some { s.setCall k (.searching attempt) with mutex := some k }
    | none, some (.returning conn) =>
        some { s.setCall k (.rechecking conn) with mutex := some k }
    | _, _ => none
  | .pass k => match s.calls[k]? with
    | some (.searching attempt) => some (search k attempt s)
    | _ => none
  | .validate k validation => match s.calls[k]? with
    | some (.validating attempt conn) => some (checkPopped k attempt conn validation s)
    | some (.rechecking conn) => some (checkReturned k conn validation s)
    | _ => none
  | .create k connects => match s.calls[k]? with
    | some (.creating attempt) => some (refill k attempt (createNewConnection connects) s)
    | some .replacing => some (replace k (createNewConnection connects) s)
    | _ => none
  | .handOut k => match s.calls[k]? with
    | some (.found conn) => some (returnFound k conn s)
    | _ => none
  | .returnConnection k => match s.calls[k]? with
    | some (.holding conn) => some (s.setCall k (.returning conn))
    | _ => none

/-- The pool as a machine. -/
def machine : Machine State Act := { step := step }

end ConnectionPool

end EpollServer
