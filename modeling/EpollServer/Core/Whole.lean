import EpollServer.Core.Accepting
import EpollServer.Core.Serving

/-!
# The Whole Server

The threads of `Core.Accepting` and the connections of `Core.Serving`, which
are two views of one server.

The threads know of a connection when its task is queued, taken and left, and
the connections know what is read, stored and leased in between. Here each
step is taken in both: the main thread that comes out of `enqueue` has queued
the task of its connection, a worker that takes a task from the queue begins
it, and a worker in `connectionHandler` goes on with the connection whose task
it runs. A connection is known by its number, in the order of `amilinkAccept`.

`connectionHandler` is over when it has closed its connection, and an
exception in it is the end of the task.

## Main definitions

* `State`: The threads and the connections.
* `Piece`: What `connectionHandler` does next.
* `accept`, `proceed`: The main thread.
* `handler`, `leave`: The task of a connection in its worker.
* `work`: A worker between two tasks.
* `machine`: The server as a machine.
-/

namespace EpollServer

namespace Whole

open Handler (TaskAct Phase)
open Push (Layout Environment)

/-- The threads of the server, and its connections with the database pool. -/
structure State (ν : Type) where
  threads : Accepting.State
  serving : Serving.State ν

variable {ν : Type}

/-- `Server::Server`, with the database connections it is given. -/
def initial (ν : Type) (pool : ConnectionPool.State) : State ν :=
  { threads := Accepting.initial, serving := Serving.initial ν pool }

/-- The next piece of `connectionHandler`. -/
inductive Piece (L : Layout ν) where
  | task (a : TaskAct L)
  /-- It calls `getConnection`. -/
  | getConnection
  | gotConnection
  /-- It calls `returnConnection`. -/
  | returnConnection
  | gaveConnection

/-- The piece as it is known to the connections. -/
def Piece.of {L : Layout ν} (c : Nat) : Piece L → Serving.Act L
  | .task a => .task c a
  | .getConnection => .getConnection c
  | .gotConnection => .gotConnection c
  | .returnConnection => .returnConnection c
  | .gaveConnection => .gaveConnection c

/-- Not the queue, and not what follows `connectionHandler`. -/
def Piece.isHandler {L : Layout ν} : Piece L → Bool
  | .task .enqueue => false
  | .task .start => false
  | .task .decrement => false
  | _ => true

/-- How far the task of connection `c` is. -/
def phase (s : Serving.State ν) (c : Nat) : Option Phase :=
  s.tasks[c]?.map fun task => task.handler.phase

variable (L : Layout ν) (env : Nat → Environment)

/-- `amilinkAccept` returns the next connection. -/
def accept (registered : Bool) (s : State ν) : Option (State ν) :=
  (Accepting.accept s.serving.tasks.length registered s.threads).bind fun threads =>
    (Serving.step L env s.serving (.accept registered)).map fun serving =>
      { threads := threads, serving := serving }

/-- The main thread goes on in `handleNewConnection`. -/
def proceed (s : State ν) : Option (State ν) :=
  (Accepting.proceed s.threads).bind fun threads =>
    match s.threads.main, threads.main with
    -- It is back from `enqueue`.
    | .adding c _, .waiting => (Serving.step L env s.serving (.task c .enqueue)).map
        fun serving => { threads := threads, serving := serving }
    | _, _ => some { s with threads := threads }

/-- Worker `i` goes on in the `connectionHandler` of its connection. -/
def handler (i : Nat) (piece : Piece L) (s : State ν) : Option (State ν) :=
  match s.threads.runs i with
  | none => none
  | some c =>
      if s.threads.handles i && piece.isHandler then
        (Serving.step L env s.serving (piece.of c)).bind fun serving =>
          -- Nothing in the task catches an exception.
          if phase serving c = some .failed then
            (Accepting.fail i s.threads).map fun threads =>
              { threads := threads, serving := serving }
          else some { s with serving := serving }
      else none

/-- `connectionHandler` returns in worker `i`, and `activeConnections--`. -/
def leave (i : Nat) (s : State ν) : Option (State ν) :=
  match s.threads.runs i with
  | none => none
  | some c => (Accepting.leave i s.threads).bind fun threads =>
      (Serving.step L env s.serving (.task c .decrement)).map fun serving =>
        { threads := threads, serving := serving }

/-- Worker `i` goes on in `workerThread`, and begins the task it takes. -/
def work (i : Nat) (s : State ν) : Option (State ν) :=
  (Accepting.work i s.threads).bind fun threads =>
    match threads.runs i with
    | some c => (Serving.step L env s.serving (.task c .start)).map fun serving =>
        { threads := threads, serving := serving }
    | none => some { s with threads := threads }

/-- What happens next. -/
inductive Act where
  | accept (registered : Bool)
  | proceed
  | handler (i : Nat) (piece : Piece L)
  | leave (i : Nat)
  /-- The task of worker `i` goes on in `adjustThreadPoolSize`. -/
  | proceedTask (i : Nat)
  | work (i : Nat)
  | notifyOne (i : Nat)
  | wake (i : Nat)
  /-- A piece of a call of the database pool. -/
  | database (a : ConnectionPool.Act)

/-- The server as a step function. -/
def step (s : State ν) : Act L → Option (State ν)
  | .accept registered => accept L env registered s
  | .proceed => proceed L env s
  | .handler i piece => handler L env i piece s
  | .leave i => leave L env i s
  | .proceedTask i => (Accepting.proceedTask i s.threads).map fun threads =>
      { s with threads := threads }
  | .work i => work L env i s
  | .notifyOne i => (Accepting.step s.threads (.notifyOne i)).map fun threads =>
      { s with threads := threads }
  | .wake i => (Accepting.step s.threads (.wake i)).map fun threads =>
      { s with threads := threads }
  | .database a => (Serving.step L env s.serving (.pool a)).map fun serving =>
      { s with serving := serving }

/-- The server as a machine. -/
def machine : Machine (State ν) (Act L) := { step := step L env }

end Whole

end EpollServer
