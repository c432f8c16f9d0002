import EpollServer.Lib.Machine

/-!
# The Thread Pool

`ThreadPool` of `threadPool.h` and `threadPool.cpp`, one definition for each
member function, over a state that records where every thread stands.

Member functions are written in `PoolM`, the state of the pool with a fault.
The mutex is part of the state and carries its owner: `lockQueueMutex` by the
thread that owns it already is the fault `relock`, which is what a
non-recursive `std::mutex` makes of it, and by another thread is `blocked`,
which only means that the step cannot be taken now. A fault keeps the state
it happened in, so a thread that locks twice leaves the mutex owned.

A critical section is one step of the machine. What a function does after
releasing the mutex is a step of its own: the `notify_one` of `enqueue`, the
`notify_all` of `resume` and of `shutdown`, the `join` loop. The state counts
the calls that have still to do it. A condition variable is the set of the
threads asleep on it, kept in the position of each thread.

`accepted`, `dequeued` and `finished` are not part of the program. They
record which tasks `enqueue` took, which ones a worker removed from the
queue, and which ones returned, each in order.

## Main definitions

* `Thread`: Who runs a piece of code.
* `Task`: What is queued: the caller's task, or the task `resize` queues.
* `Position`: Where a worker stands in `workerThread`.
* `Pool`: The state of the pool and of the calls in progress.
* `PoolM`: A member function that may fault.
* `takeTask`, `recheckPause`, `finishTask`, `retire`: The pieces of
  `workerThread`.
* `enqueue`, `pause`, `resume`, `shutdown`, `waitForCompletion`, `resize`:
  The member functions up to the release of the mutex.
* `Op`: The member functions as values.
* `Act`: What the scheduler may do next.
* `step`: The pool as a machine.
-/

namespace EpollServer

namespace ThreadPool

/-- Who runs a piece of code: a worker of the pool, or any other thread. -/
inductive Thread where
  | worker (i : Nat)
  | caller (k : Nat)
  deriving DecidableEq, Repr

/-- A queued `std::function<void()>`: a caller's task, or `[this] { stop = true; }`
    as queued by `resize`. -/
inductive Task (α : Type) where
  | user (body : α)
  | terminate
  deriving DecidableEq, Repr

/-- Where a worker stands in `workerThread`. A thread woken on `condition`
    locks the mutex and evaluates the predicate again, which is what it does
    at the top of the loop, so both are `top`. -/
inductive Position (α : Type) where
  /-- About to lock the mutex and evaluate the predicate of `condition.wait`. -/
  | top
  /-- Asleep in `condition.wait`. -/
  | sleepCondition
  /-- Asleep in `pauseCondition.wait`. -/
  | sleepPause
  /-- Woken in `pauseCondition.wait`, about to lock and evaluate `!paused`. -/
  | wokenPause
  /-- Inside `task()`, after the dequeue. -/
  | running (task : Task α)
  /-- After `task()`, about to lock and decrement `activeThreads`. -/
  | finished
  /-- Returned from `workerThread`. -/
  | exited
  deriving DecidableEq, Repr

/-- An element of `workers`: the `std::thread` and the code it runs. -/
structure Worker (α : Type) where
  position : Position α
  joinable : Bool
  deriving DecidableEq, Repr

/-- A thread that has just been created. -/
def Worker.spawned {α : Type} : Worker α := { position := .top, joinable := true }

/-- A call of `shutdown` after its critical section. -/
inductive ShutdownCall where
  /-- Before `condition.notify_all()`. -/
  | notifying
  /-- In the join loop, at `workers[next]`. -/
  | joining (next : Nat)
  | returned
  /-- `join` threw `std::system_error`. -/
  | threw
  deriving DecidableEq, Repr

/-- A call of `waitForCompletion` after its first evaluation of the predicate. -/
inductive CompletionCall where
  /-- Asleep in `pauseCondition.wait`. -/
  | asleep
  /-- Woken, about to lock and evaluate the predicate. -/
  | woken
  | returned
  deriving DecidableEq, Repr

/-- What stops a thread for good, or for now. -/
inductive Fault where
  /-- The thread locks `queueMutex` while it owns it. -/
  | relock (self : Thread)
  /-- Another thread owns `queueMutex`. -/
  | blocked
  /-- `tasks.front()` on an empty queue. -/
  | emptyFront
  deriving DecidableEq, Repr

/-- A `ThreadPool`, the calls on it, and the tasks so far. `accepted`, `dequeued`
    and `finished` are no part of the program. -/
structure Pool (α : Type) where
  workers : List (Worker α)
  tasks : List (Task α)
  queueMutex : Option Thread
  stop : Bool
  paused : Bool
  activeThreads : Nat
  /-- Calls of `enqueue` that have still to issue `condition.notify_one()`. -/
  enqueueNotifies : Nat
  /-- Calls of `resume` that have still to issue `pauseCondition.notify_all()`. -/
  resumeNotifies : Nat
  shutdowns : List ShutdownCall
  completions : List CompletionCall
  fault : Option Fault
  accepted : List (Task α)
  dequeued : List (Task α)
  finished : List (Task α)
  deriving DecidableEq, Repr

/-- `ThreadPool::ThreadPool(size_t threads)`. -/
def create (α : Type) (threads : Nat) : Pool α :=
  { workers := List.replicate threads Worker.spawned, tasks := [], queueMutex := none,
    stop := false, paused := false, activeThreads := 0, enqueueNotifies := 0,
    resumeNotifies := 0, shutdowns := [], completions := [], fault := none,
    accepted := [], dequeued := [], finished := [] }

variable {α : Type}

/-- Move worker `i` to another place in `workerThread`. -/
def Pool.setPosition (s : Pool α) (i : Nat) (p : Position α) : Pool α :=
  { s with workers := s.workers.modify i (fun w => { w with position := p }) }

/-- `pauseCondition.notify_all()` as it acts on a worker. -/
def Worker.wakePause (w : Worker α) : Worker α :=
  match w.position with
  | .sleepPause => { w with position := .wokenPause }
  | _ => w

/-- `condition.notify_all()` as it acts on a worker. -/
def Worker.wakeCondition (w : Worker α) : Worker α :=
  match w.position with
  | .sleepCondition => { w with position := .top }
  | _ => w

/-- `pauseCondition.notify_all()` as it acts on a call of `waitForCompletion`. -/
def CompletionCall.wake : CompletionCall → CompletionCall
  | .asleep => .woken
  | c => c

/-- `pauseCondition.notify_all()`: workers and completion waiters share the
    variable. -/
def Pool.notifyAllPause (s : Pool α) : Pool α :=
  { s with workers := s.workers.map Worker.wakePause,
           completions := s.completions.map CompletionCall.wake }

/-- `condition.notify_all()`. -/
def Pool.notifyAllCondition (s : Pool α) : Pool α :=
  { s with workers := s.workers.map Worker.wakeCondition }

/-- A piece of code of the pool: it returns with a new state, or faults in
    one. -/
abbrev PoolM (α β : Type) := EStateM Fault (Pool α) β

/-- `std::unique_lock<std::mutex> lock(queueMutex)`. -/
def lockQueueMutex (self : Thread) : PoolM α Unit := fun s =>
  match s.queueMutex with
  | none => .ok () { s with queueMutex := some self }
  | some owner => if owner = self then .error (.relock self) s else .error .blocked s

/-- The end of the scope of a `std::unique_lock`, or a `wait` giving it up. -/
def unlockQueueMutex : PoolM α Unit := modify fun s => { s with queueMutex := none }

/-- `ThreadPool::enqueue` up to the release of the mutex. `false` stands for
    the exception `enqueue on stopped ThreadPool`, which also releases it. -/
def enqueue (self : Thread) (task : Task α) : PoolM α Bool := do
  lockQueueMutex self
  let s ← get
  if s.stop then
    unlockQueueMutex
    pure false
  else
    set { s with tasks := s.tasks ++ [task], accepted := s.accepted ++ [task],
                 enqueueNotifies := s.enqueueNotifies + 1 }
    unlockQueueMutex
    pure true

/-- `ThreadPool::pause`. -/
def pause (self : Thread) : PoolM α Unit := do
  lockQueueMutex self
  modify fun s => { s with paused := true }
  unlockQueueMutex

/-- `ThreadPool::resume` up to the release of the mutex. -/
def resume (self : Thread) : PoolM α Unit := do
  lockQueueMutex self
  modify fun s => { s with paused := false, resumeNotifies := s.resumeNotifies + 1 }
  unlockQueueMutex

/-- `ThreadPool::shutdown` up to the release of the mutex. -/
def shutdown (self : Thread) : PoolM α Unit := do
  lockQueueMutex self
  modify fun s => { s with stop := true, shutdowns := s.shutdowns ++ [.notifying] }
  unlockQueueMutex

/-- The predicate of `waitForCompletion`: `tasks.empty() && activeThreads == 0`. -/
def Pool.complete (s : Pool α) : Bool := s.tasks.isEmpty && s.activeThreads == 0

/-- Where an evaluation of that predicate leaves the call. -/
def Pool.completionCall (s : Pool α) : CompletionCall :=
  if s.complete then .returned else .asleep

/-- `ThreadPool::waitForCompletion` up to its return or its first sleep. -/
def waitForCompletion (self : Thread) : PoolM α Unit := do
  lockQueueMutex self
  modify fun s => { s with completions := s.completions ++ [s.completionCall] }
  unlockQueueMutex

/-- A woken call `k` of `waitForCompletion` evaluates its predicate again. -/
def recheckCompletion (self : Thread) (k : Nat) : PoolM α Unit := do
  lockQueueMutex self
  modify fun s => { s with completions := s.completions.set k s.completionCall }
  unlockQueueMutex

/-- `ThreadPool::getQueueSize`. -/
def getQueueSize (self : Thread) : PoolM α Nat := do
  lockQueueMutex self
  let s ← get
  unlockQueueMutex
  pure s.tasks.length

/-- `ThreadPool::getActiveThreads`. -/
def getActiveThreads (self : Thread) : PoolM α Nat := do
  lockQueueMutex self
  let s ← get
  unlockQueueMutex
  pure s.activeThreads

/-- `ThreadPool::getSize`. -/
def getSize (self : Thread) : PoolM α Nat := do
  lockQueueMutex self
  let s ← get
  unlockQueueMutex
  pure s.workers.length

/-- `ThreadPool::addWorker`. -/
def addWorker : PoolM α Unit :=
  modify fun s => { s with workers := s.workers ++ [Worker.spawned] }

/-- The growing loop of `resize`. -/
def addWorkers : Nat → PoolM α Unit
  | 0 => pure ()
  | n + 1 => do
      addWorker
      addWorkers n

/-- The shrinking loop of `resize`: `diff` calls of `enqueue`. `false` stands
    for the exception of `enqueue`, which leaves the loop. -/
def enqueueTerminates (self : Thread) : Nat → PoolM α Bool
  | 0 => pure true
  | n + 1 => do
      -- `enqueue` locks `queueMutex` again, which `resize` still owns.
      let queued ← enqueue self .terminate
      if queued then enqueueTerminates self n else pure false

/-- `ThreadPool::resize`. The mutex is held over both loops. -/
def resize (self : Thread) (newSize : Nat) : PoolM α Bool := do
  lockQueueMutex self
  let s ← get
  if s.workers.length < newSize then
    addWorkers (newSize - s.workers.length)
    unlockQueueMutex
    pure true
  else if newSize < s.workers.length then
    let done ← enqueueTerminates self (s.workers.length - newSize)
    unlockQueueMutex
    pure done
  else
    unlockQueueMutex
    pure true

/-- The first critical section of `workerThread`, from the top of the loop to
    the dequeue, to a sleep, or to the return. -/
def takeTask (i : Nat) : PoolM α Unit := do
  lockQueueMutex (.worker i)
  let s ← get
  if !(s.stop || (!s.paused && !s.tasks.isEmpty)) then
    -- The predicate of `condition.wait` is false, and the mutex is released.
    set (s.setPosition i .sleepCondition)
    unlockQueueMutex
  else if s.stop && s.tasks.isEmpty then
    -- A worker returns only when the queue is empty, paused or not.
    set (s.setPosition i .exited)
    unlockQueueMutex
  else if s.paused then
    -- Only a pool that is stopped and paused gets here: it waits for `resume`.
    set (s.setPosition i .sleepPause)
    unlockQueueMutex
  else
    match s.tasks with
    | [] => throw .emptyFront
    | task :: rest =>
        set { s.setPosition i (.running task) with
              tasks := rest, activeThreads := s.activeThreads + 1,
              dequeued := s.dequeued ++ [task] }
        unlockQueueMutex

/-- A worker woken in `pauseCondition.wait` evaluates `!paused` again, and
    continues at the top of the loop when it holds. -/
def recheckPause (i : Nat) : PoolM α Unit := do
  lockQueueMutex (.worker i)
  modify fun s => s.setPosition i (if s.paused then .sleepPause else .top)
  unlockQueueMutex

/-- `task()` returns. The task of `resize` writes `stop` without the mutex. -/
def finishTask (i : Nat) (task : Task α) (s : Pool α) : Pool α :=
  { s.setPosition i .finished with
    -- It stops the whole pool, not the one worker.
    stop := s.stop || (match task with | .user _ => false | .terminate => true),
    finished := s.finished ++ [task] }

/-- The second critical section of `workerThread`. -/
def retire (i : Nat) : PoolM α Unit := do
  lockQueueMutex (.worker i)
  modify fun s => { s.setPosition i .top with activeThreads := s.activeThreads - 1 }
  let s ← get
  -- `waitForCompletion` waits on the same variable as a paused worker.
  if s.tasks.isEmpty && s.activeThreads == 0 then
    set s.notifyAllPause
  unlockQueueMutex

/-- The public member functions. -/
inductive Op (α : Type) where
  | enqueue (body : α)
  | pause
  | resume
  | shutdown
  | waitForCompletion
  | getQueueSize
  | getActiveThreads
  | getSize
  | resize (newSize : Nat)
  deriving DecidableEq, Repr

/-- A call of a public member function, up to the release of the mutex. -/
def Op.exec (self : Thread) : Op α → PoolM α Unit
  | .enqueue body => do let _ ← ThreadPool.enqueue self (.user body); pure ()
  | .pause => ThreadPool.pause self
  | .resume => ThreadPool.resume self
  | .shutdown => ThreadPool.shutdown self
  | .waitForCompletion => ThreadPool.waitForCompletion self
  | .getQueueSize => do let _ ← ThreadPool.getQueueSize self; pure ()
  | .getActiveThreads => do let _ ← ThreadPool.getActiveThreads self; pure ()
  | .getSize => do let _ ← ThreadPool.getSize self; pure ()
  | .resize newSize => do let _ ← ThreadPool.resize self newSize; pure ()

/-- One iteration of the join loop of call `k`, at `workers[next]`. `join`
    waits for a joinable thread to return, and throws for one that was joined
    before. -/
def joinNext (k next : Nat) (s : Pool α) : Option (Pool α) :=
  match s.workers[next]? with
  | none => some { s with shutdowns := s.shutdowns.set k .returned }
  | some w =>
      -- `std::thread::join` throws for a thread that is not joinable.
      if w.joinable then
        match w.position with
        | .exited =>
            some { s with workers := s.workers.modify next (fun w => { w with joinable := false }),
                          shutdowns := s.shutdowns.set k (.joining (next + 1)) }
        | _ => none
      else some { s with shutdowns := s.shutdowns.set k .threw }

/-- What the scheduler may do next. -/
inductive Act (α : Type) where
  /-- A thread calls a member function. -/
  | call (self : Thread) (op : Op α)
  /-- Worker `i` goes on in `workerThread`. -/
  | work (i : Nat)
  /-- An `enqueue` issues `notify_one`, and worker `i` is the one that wakes
      if some worker is asleep on `condition`. -/
  | notifyOne (i : Nat)
  /-- A `resume` issues `notify_all`. -/
  | notifyResume
  /-- Call `k` of `shutdown` issues `notify_all`. -/
  | notifyShutdown (k : Nat)
  /-- Call `k` of `shutdown` goes on in its join loop. -/
  | join (k : Nat)
  /-- Call `k` of `waitForCompletion` evaluates its predicate again. -/
  | recheck (k : Nat)
  /-- Worker `i` wakes without a notification. -/
  | wake (i : Nat)
  /-- Call `k` of `waitForCompletion` wakes without a notification. -/
  | wakeCompletion (k : Nat)
  deriving DecidableEq, Repr

/-- A finished or faulted piece of code as a step of the machine. Waiting for
    the mutex is no step. -/
def commit {β : Type} : EStateM.Result Fault (Pool α) β → Option (Pool α)
  | .ok _ s => some s
  | .error .blocked _ => none
  | .error f s => some { s with fault := some f }

/-- The worker sleeps in `condition.wait`. -/
def Position.isSleepCondition : Position α → Bool
  | .sleepCondition => true
  | _ => false

/-- The next piece of `workerThread` for worker `i`. -/
def work (i : Nat) (s : Pool α) : Option (Pool α) :=
  match s.workers[i]? with
  | none => none
  | some w => match w.position with
    | .top => commit (takeTask i s)
    | .wokenPause => commit (recheckPause i s)
    | .running task => some (finishTask i task s)
    | .finished => commit (retire i s)
    | .sleepCondition => none
    | .sleepPause => none
    | .exited => none

/-- `condition.notify_one()` of a call of `enqueue`. -/
def notifyOne (i : Nat) (s : Pool α) : Option (Pool α) :=
  match s.enqueueNotifies with
  | 0 => none
  | n + 1 =>
      -- Without a sleeper the notification is lost.
      if s.workers.any (fun w => w.position.isSleepCondition) then
        match s.workers[i]? with
        | none => none
        | some w =>
            if w.position.isSleepCondition then
              some { s.setPosition i .top with enqueueNotifies := n }
            else none
      else some { s with enqueueNotifies := n }

/-- A wake-up without a notification. -/
def wakeSpuriously (i : Nat) (s : Pool α) : Option (Pool α) :=
  match s.workers[i]? with
  | none => none
  | some w => match w.position with
    | .sleepCondition => some (s.setPosition i .top)
    | .sleepPause => some (s.setPosition i .wokenPause)
    | _ => none

/-- A wake-up of a call of `waitForCompletion` without a notification. -/
def wakeCompletion (k : Nat) (s : Pool α) : Option (Pool α) :=
  match s.completions[k]? with
  | some .asleep => some { s with completions := s.completions.set k .woken }
  | _ => none

/-- The pool as a step function. -/
def step (s : Pool α) : Act α → Option (Pool α)
  | .call self op => commit (op.exec self s)
  | .work i => work i s
  | .notifyOne i => notifyOne i s
  | .notifyResume => match s.resumeNotifies with
    | 0 => none
    | n + 1 => some { s.notifyAllPause with resumeNotifies := n }
  | .notifyShutdown k => match s.shutdowns[k]? with
    | some .notifying =>
        some { s.notifyAllCondition with shutdowns := s.shutdowns.set k (.joining 0) }
    | _ => none
  | .join k => match s.shutdowns[k]? with
    | some (.joining next) => joinNext k next s
    | _ => none
  | .recheck k => match s.completions[k]? with
    | some .woken => commit (recheckCompletion (.caller k) k s)
    | _ => none
  | .wake i => wakeSpuriously i s
  | .wakeCompletion k => wakeCompletion k s

/-- The pool as a machine. -/
def machine (α : Type) : Machine (Pool α) (Act α) := { step := step }

/-- A state some run of a pool of `threads` workers reaches. -/
def Reachable (threads : Nat) (s : Pool α) : Prop :=
  (machine α).Reaches (create α threads) s

end ThreadPool

end EpollServer
