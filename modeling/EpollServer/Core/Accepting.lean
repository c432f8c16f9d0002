import EpollServer.Core.Server

/-!
# Connections and Threads

`Server::handleNewConnection` and the task it queues for every connection, on
the pool of `threadPool.cpp`.

The main thread counts a connection, calls `adjustThreadPoolSize` and queues
the task. The task runs `connectionHandler`, which does not end by itself: it
ends when the client leaves. Then the task takes the connection off the count
and calls `adjustThreadPoolSize` too. If `connectionHandler` throws, the task
is over at once, because it was put into the pool as a `std::packaged_task`.

Between the pieces of `adjustThreadPoolSize` the other threads go on, so the
queue and the pool may have changed when it resizes.

A task is known by the worker that runs it. Between the acts of these threads
the pool takes steps of its own.

## Main definitions

* `MainPhase`, `TaskPhase`: Where the main thread and a task stand.
* `State`: The counter, the pool and the threads that use it.
* `accept`, `proceed`: `handleNewConnection`.
* `leave`, `fail`, `proceedTask`: The task of a connection.
* `machine`: The server as a machine.
-/

namespace EpollServer

namespace Accepting

open ThreadPool (Thread Task Position Pool Adjust call adjustThreadPoolSize)

/-- Where the main thread stands. -/
inductive MainPhase where
  /-- In `amilinkAccept`, or outside `handleNewConnection`. -/
  | waiting
  /-- A connection is counted, and its task is not yet queued. -/
  | adding (connection : Nat) (p : Adjust)
  deriving DecidableEq, Repr

/-- Where the task of a connection stands. -/
inductive TaskPhase where
  /-- In `connectionHandler`. -/
  | handling
  /-- After `activeConnections--`. -/
  | leaving (p : Adjust)
  /-- `connectionHandler` threw. -/
  | failed
  deriving DecidableEq, Repr

/-- The main thread, the thread pool and the tasks in it. -/
structure State where
  activeConnections : Nat
  main : MainPhase
  /-- The pool. A task of it is known by its connection. -/
  pool : Pool Nat
  /-- Where the task of each worker stands. -/
  tasks : Nat → TaskPhase

/-- `Server::Server`, with its pool of 10. -/
def initial : State :=
  { activeConnections := 0, main := .waiting, pool := ThreadPool.create Nat 10,
    tasks := fun _ => .handling }

/-- `amilinkAccept` returns a connection, which is counted if it can be
    registered, and closed otherwise. -/
def accept (connection : Nat) (registered : Bool) (s : State) : Option State :=
  match s.main with
  | .waiting =>
      if registered then
        some { s with activeConnections := s.activeConnections + 1,
                      main := .adding connection .called }
      else some s
  | .adding _ _ => none

/-- The main thread after `enqueue`. -/
def MainPhase.queued (connection : Nat) : Option Bool → MainPhase
  | some _ => .waiting
  | none => .adding connection .stuck

/-- The main thread goes on in `handleNewConnection`. -/
def proceed (s : State) : Option State :=
  match s.main with
  | .waiting => none
  -- The pool has been resized for the queue without this task.
  | .adding connection .returned =>
      (call (ThreadPool.enqueue (.caller 0) (.user connection)) s.pool).map fun (result, p') =>
        { s with main := MainPhase.queued connection result, pool := p' }
  | .adding connection p =>
      (adjustThreadPoolSize (.caller 0) s.pool p).map fun (p', pool') =>
        { s with main := .adding connection p', pool := pool' }

/-- The connection whose task worker `i` runs. -/
def State.runs (s : State) (i : Nat) : Option Nat :=
  match s.pool.workers[i]? with
  | some w => match w.position with
    | .running (.user connection) => some connection
    | _ => none
  | none => none

/-- Worker `i` is in the `connectionHandler` of a connection. -/
def State.handles (s : State) (i : Nat) : Bool :=
  (s.runs i).isSome && decide (s.tasks i = .handling)

/-- `connectionHandler` returns, and `activeConnections--`. -/
def leave (i : Nat) (s : State) : Option State :=
  if s.handles i then
    some { s with activeConnections := s.activeConnections - 1,
                  tasks := Function.update s.tasks i (.leaving .called) }
  else none

/-- `connectionHandler` throws. -/
def fail (i : Nat) (s : State) : Option State :=
  if s.handles i then some { s with tasks := Function.update s.tasks i .failed } else none

/-- A task goes on in `adjustThreadPoolSize`. -/
def proceedTask (i : Nat) (s : State) : Option State :=
  match s.runs i, s.tasks i with
  | some _, .leaving p =>
      (adjustThreadPoolSize (.worker i) s.pool p).map fun (p', pool') =>
        { s with tasks := Function.update s.tasks i (.leaving p'), pool := pool' }
  | _, _ => none

/-- The task of worker `i` is over, if it runs one. -/
def State.finished (s : State) (i : Nat) : Bool :=
  match s.runs i with
  | some _ => decide (s.tasks i = .leaving .returned ∨ s.tasks i = .failed)
  | none => true

/-- Worker `i` goes on in `workerThread`. A task it dequeues starts with
    `connectionHandler`. -/
def work (i : Nat) (s : State) : Option State :=
  if s.finished i then
    (ThreadPool.work i s.pool).map fun p' =>
      { s with pool := p', tasks := Function.update s.tasks i .handling }
  else none

/-- What may happen next. -/
inductive Act where
  | accept (connection : Nat) (registered : Bool)
  | proceed
  | leave (i : Nat)
  | fail (i : Nat)
  | proceedTask (i : Nat)
  | work (i : Nat)
  /-- A notification of `enqueue` is issued. -/
  | notifyOne (i : Nat)
  /-- Worker `i` wakes without a notification. -/
  | wake (i : Nat)
  deriving DecidableEq, Repr

/-- The server as a step function. -/
def step (s : State) : Act → Option State
  | .accept connection registered => accept connection registered s
  | .proceed => proceed s
  | .leave i => leave i s
  | .fail i => fail i s
  | .proceedTask i => proceedTask i s
  | .work i => work i s
  | .notifyOne i => (ThreadPool.notifyOne i s.pool).map fun p' => { s with pool := p' }
  | .wake i => (ThreadPool.wakeSpuriously i s.pool).map fun p' => { s with pool := p' }

/-- The server as a machine. -/
def machine : Machine State Act := { step := step }

end Accepting

end EpollServer
