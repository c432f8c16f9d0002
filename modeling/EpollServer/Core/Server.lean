import EpollServer.Core.ThreadPool

/-!
# The Server and its Pool

What `server.cpp` does with the thread pool: `adjustThreadPoolSize`, and the
life of a `Server` from its constructor to the end of its destructor.

`adjustThreadPoolSize` locks the mutex of the pool three times and lets go of
it in between, so the queue and the pool may have changed when it resizes. It
is cut there (`Adjust`). A call that asks for fewer workers locks a mutex it
owns, and its thread is `stuck` from then on.

A pool can also live outside a `Server`, as the tests of a pool would have
it. `Owner` says which; it decides what destruction does. `~ThreadPool` calls
`shutdown`. `~Server` calls `stop`, which calls `shutdown`, and the pool is a
member, so that `~ThreadPool` calls it again.

`stop` joins `mainThread` before it shuts down the pool, if there is one to
join. That waits for the end of `run`, which looks at `running` only between
two calls of `epoll_wait`, and `epoll_wait` returns only for an event
(`MainThread`). So a stop has two steps, and the second has to wait.

Between the acts of the owner the pool takes steps of its own, in any order,
among them those of the main thread. The life ends with the destructor's last
call of `shutdown`, or with an exception that leaves the destructor. From then
on nothing happens.

## Main definitions

* `adjustedSize`: The size `adjustThreadPoolSize` asks for.
* `newSize`: The same with 64 bits.
* `Adjust`: Where a thread stands in `adjustThreadPoolSize`.
* `adjustThreadPoolSize`: Its next piece.
* `Owner`: What holds the pool.
* `MainThread`: Where `run` stands.
* `Phase`: How far the destruction of the owner is.
* `Life`: The state of the owner and of its pool.
* `start`, `stop`, `stopJoined`, `destroy`, `destroyJoined`, `destroyMember`: The
  acts of the owner.
* `runLoop`, `epollEvent`: The main thread.
* `Life.ended`: Destruction is over.
* `Life.step`: The owner and its pool as a machine.
-/

namespace EpollServer

namespace ThreadPool

variable {α : Type}

/-- The size `adjustThreadPoolSize` asks for, from the sizes it has read.
    Both are sizes of containers in memory, so neither sum wraps. -/
def adjustedSize (queueSize currentSize : Nat) : Nat :=
  if queueSize > currentSize then min (currentSize * 2) (queueSize + currentSize)
  else if queueSize < currentSize / 2 then max (currentSize / 2) 10
  else currentSize

/-- The same size as `size_t` computes it, for any two sizes. -/
def newSize (queueSize currentSize : UInt64) : UInt64 :=
  if queueSize > currentSize then min (currentSize * 2) (queueSize + currentSize)
  else if queueSize < currentSize / 2 then max (currentSize / 2) 10
  else currentSize

/-- Where a thread stands in `adjustThreadPoolSize`. -/
inductive Adjust where
  /-- Before `getQueueSize`. -/
  | called
  /-- Before `getSize`. -/
  | queueRead (queueSize : Nat)
  /-- Before `resize`. -/
  | sizesRead (queueSize currentSize : Nat)
  | returned
  /-- It waits for a mutex it owns. -/
  | stuck
  deriving DecidableEq, Repr

/-- A call of a member function of the pool. Without a result the thread has
    locked a mutex it owns. Waiting for the mutex is no step. -/
def call {β : Type} (f : PoolM α β) (p : Pool α) : Option (Option β × Pool α) :=
  match f p with
  | .ok b p' => some (some b, p')
  | .error .blocked _ => none
  | .error fault p' => some (none, { p' with fault := some fault })

/-- The next piece of `Server::adjustThreadPoolSize`. Each of the three calls
    locks for itself. -/
def adjustThreadPoolSize (self : Thread) (p : Pool α) : Adjust → Option (Adjust × Pool α)
  | .called => (call (getQueueSize self) p).map fun (result, p') =>
      (match result with
        | some queueSize => .queueRead queueSize
        | none => .stuck, p')
  | .queueRead queueSize => (call (getSize self) p).map fun (result, p') =>
      (match result with
        | some currentSize => .sizesRead queueSize currentSize
        | none => .stuck, p')
  | .sizesRead queueSize currentSize =>
      (call (resize self (adjustedSize queueSize currentSize)) p).map fun (result, p') =>
        (match result with
          | some _ => .returned
          | none => .stuck, p')
  | .returned => none
  | .stuck => none

/-- What holds the pool and destroys it. -/
inductive Owner where
  /-- The pool stands alone. -/
  | pool
  /-- The pool is the member `threadPool` of a `Server`. -/
  | server
  deriving DecidableEq, Repr

/-- Where the thread of `mainThread` stands, in `Server::run`. -/
inductive MainThread where
  /-- `mainThread` is not joinable: it was never started, or it was joined. -/
  | notJoinable
  /-- At the condition of the loop, or among the events. -/
  | looping
  /-- In `epoll_wait`, without a timeout. -/
  | waiting
  /-- `run` has returned, and `mainThread` can be joined at once. -/
  | returned
  deriving DecidableEq, Repr

/-- How far destruction is. -/
inductive Phase where
  | alive
  /-- In the body of `~Server`, at the join of `mainThread`. -/
  | stopping (self : Thread)
  /-- In the body of `~Server`, at call `k` of `shutdown`. -/
  | body (k : Nat)
  /-- In `~ThreadPool`, at call `k` of `shutdown`. -/
  | member (k : Nat)
  deriving DecidableEq, Repr

/-- A `Server`, or a pool that stands alone, with what it has of a `Server`. -/
structure Life (α : Type) where
  owner : Owner
  running : Bool
  mainThread : MainThread
  /-- The explicit calls of `stop` that are at the join of `mainThread`. -/
  stops : List Thread
  pool : Pool α
  phase : Phase
  deriving DecidableEq, Repr

/-- `Server::Server`, or `ThreadPool::ThreadPool`. The `Server` passes 10. -/
def construct (α : Type) (owner : Owner) (threads : Nat) : Life α :=
  { owner := owner, running := false, mainThread := .notJoinable, stops := [],
    pool := create α threads, phase := .alive }

/-- `Server::start` after `initialize`. Assigning to a joinable `mainThread`
    would terminate the process. -/
def start (l : Life α) : Option (Life α) :=
  if l.owner = .server ∧ l.mainThread = .notJoinable then
    some { l with running := true, mainThread := .looping }
  else none

/-- `run` looks at `running`: it goes to `epoll_wait`, or it returns. -/
def runLoop (l : Life α) : Option (Life α) :=
  match l.mainThread with
  | .looping => some { l with mainThread := if l.running then .waiting else .returned }
  | _ => none

/-- `epoll_wait` returns for some event. What `run` does for a new connection
    are calls of the pool. -/
def epollEvent (l : Life α) : Option (Life α) :=
  match l.mainThread with
  | .waiting => some { l with mainThread := .looping }
  | _ => none

/-- The critical section of `threadPool.shutdown()`. -/
def shutdownPool (self : Thread) (l : Life α) : Option (Life α) :=
  match shutdown self l.pool with
  | .ok _ p => some { l with pool := p }
  | .error _ _ => none

/-- `if (mainThread.joinable()) mainThread.join()`, which waits for the end of
    `run`. -/
def joinMainThread (l : Life α) : Option (Life α) :=
  match l.mainThread with
  | .notJoinable => some l
  | .returned => some { l with mainThread := .notJoinable }
  | .looping => none
  | .waiting => none

/-- `Server::stop` up to the join of `mainThread`. -/
def stop (self : Thread) (l : Life α) : Life α :=
  { l with running := false, stops := l.stops ++ [self] }

/-- The `i`-th call of `stop` goes on: from the join of `mainThread` up to the
    join loop of `shutdown`. -/
def stopJoined (i : Nat) (l : Life α) : Option (Life α) :=
  match l.stops[i]? with
  | some self =>
      (joinMainThread l).bind fun l' => shutdownPool self { l' with stops := l'.stops.eraseIdx i }
  | none => none

/-- Destruction begins: the body of `~Server` calls `stop`, `~ThreadPool` has
    only its `shutdown`. -/
def destroy (self : Thread) (l : Life α) : Option (Life α) :=
  match l.owner with
  | .server => some { l with running := false, phase := .stopping self }
  | .pool =>
      (shutdownPool self l).map fun l' => { l' with phase := .member l.pool.shutdowns.length }

/-- The `stop` of `~Server` goes on up to the join loop of `shutdown`. -/
def destroyJoined (l : Life α) : Option (Life α) :=
  match l.phase with
  | .stopping self =>
      (joinMainThread l).bind fun l' => (shutdownPool self l').map fun m =>
        { m with phase := .body l.pool.shutdowns.length }
  | _ => none

/-- The body of `~Server` has returned, and the member is destroyed. -/
def destroyMember (self : Thread) (l : Life α) : Option (Life α) :=
  match l.phase with
  | .body k =>
      match l.pool.shutdowns[k]? with
      | some .returned =>
          (shutdownPool self l).map fun l' => { l' with phase := .member l.pool.shutdowns.length }
      | _ => none
  | _ => none

/-- Destruction is over: `~ThreadPool` returned, or `join` threw out of a
    destructor, which terminates the process. -/
def Life.ended (l : Life α) : Bool :=
  match l.phase with
  | .alive => false
  | .stopping _ => false
  | .body k => l.pool.shutdowns[k]? == some .threw
  | .member k =>
      l.pool.shutdowns[k]? == some .threw || l.pool.shutdowns[k]? == some .returned

/-- What may happen next in the life of a pool. -/
inductive LifeAct (α : Type) where
  /-- The pool takes a step: a thread calls a member function, a worker goes
      on, a call of `shutdown` joins. -/
  | pool (a : Act α)
  | start
  | runLoop
  | epollEvent
  /-- An explicit `Server::stop`. -/
  | stop (self : Thread)
  | stopJoined (i : Nat)
  | destroy (self : Thread)
  | destroyJoined
  | destroyMember (self : Thread)
  deriving DecidableEq, Repr

/-- The owner and its pool as a step function. -/
def Life.step (l : Life α) (a : LifeAct α) : Option (Life α) :=
  if l.ended then none
  else match a with
    | .pool a => (ThreadPool.step l.pool a).map fun p => { l with pool := p }
    | .start => if l.phase = .alive then ThreadPool.start l else none
    | .runLoop => ThreadPool.runLoop l
    | .epollEvent => ThreadPool.epollEvent l
    | .stop self =>
        if l.phase = .alive ∧ l.owner = .server then some (ThreadPool.stop self l) else none
    | .stopJoined i => ThreadPool.stopJoined i l
    | .destroy self => if l.phase = .alive then ThreadPool.destroy self l else none
    | .destroyJoined => ThreadPool.destroyJoined l
    | .destroyMember self => ThreadPool.destroyMember self l

/-- The life of a pool as a machine. -/
def lifeMachine (α : Type) : Machine (Life α) (LifeAct α) := { step := Life.step }

end ThreadPool

end EpollServer
