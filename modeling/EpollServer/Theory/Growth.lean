import EpollServer.Theory.Accepting
import EpollServer.Theory.ThreadPool.Locking

/-!
# What Becomes of a Grown Pool

The server with a pool that has once been doubled.

A pool of ten is safe: `adjustThreadPoolSize` never asks for fewer. A grown one
is not. With a queue shorter than half the workers, whoever reads the sizes
asks for fewer workers than there are, and `resize` locks the mutex twice
(`grows_or_stays`). Between the reading and the resize nothing helps: the pool
never gets smaller, and only the main thread makes the queue longer, which is
behind its own resize. So the main thread gets no further than that resize,
and neither does a task that comes to its end (`declining_step`).

## Main definitions

* `Still`: A step of the pool that is none of its tasks'.
* `Works`: What a worker does with its next piece.
* `Did`: What a step of the threads is.
* `Open`: The pool is not stopped, and nothing in it will stop it.
* `Counted`: What a thread has read of the number of workers.
* `Doomed`: Where a thread stands whose resize will lock twice.
* `Spent`: A pool that is grown and drained.

## Theorems

* `reaches_pool`: A run of the threads is a run of the pool.
* `reaches_open`: The pool is never stopped.
* `doomed_adjusts`: A doomed thread stays it, and does not return.
* `sized_ten`: The pool has ten workers, or twenty and more.
* `owned_forever`: With the mutex owned no task is queued or begun again.
-/

namespace EpollServer

namespace ThreadPool

variable {α : Type}

/-! ### Tasks in a step -/

/-- A member function that neither adds a task nor stops the pool. -/
def Op.quiet : Op α → Bool
  | .enqueue _ => false
  | .shutdown => false
  | _ => true

/-- A step that moves no task. -/
def Act.quiet : Act α → Bool
  | .call _ op => op.quiet
  | .work _ => false
  | _ => true

/-- No task has moved. -/
structure Still (p q : Pool α) : Prop where
  tasks : q.tasks = p.tasks
  accepted : q.accepted = p.accepted
  dequeued : q.dequeued = p.dequeued
  finished : q.finished = p.finished
  stop : q.stop = p.stop
  length : p.workers.length ≤ q.workers.length
  holds : ∀ j task, q.holds j task → p.holds j task

theorem still_refl (p : Pool α) : Still p p :=
  ⟨rfl, rfl, rfl, rfl, rfl, Nat.le_refl _, fun _ _ h => h⟩

theorem still_of_move (p q : Pool α) (a : Act α) (h : Move p a q) (ha : a.quiet = true) :
    Still p q := by
  have hlength := length_of_move p q a h
  have hholds : ∀ j task, q.holds j task → p.holds j task := by
    intro j task hj
    rcases holds_of_move p q a h j task hj with hold | ⟨hwork, _⟩
    · exact hold
    · rw [hwork] at ha
      exact absurd ha Bool.false_ne_true
  cases h with
  -- These are steps of a worker, or queue a task or stop the pool.
  | enqueue | shutdown | sleepCondition | exit | sleepPause | dequeue | sleepAgain | unpause
  | finish | retire | retireLast => exact absurd ha Bool.false_ne_true
  | _ => exact ⟨rfl, rfl, rfl, rfl, rfl, hlength, hholds⟩

/-- What a worker does with its next piece: it goes on without a task, it comes
    to the end of its task, or it takes the first one of the queue. -/
inductive Works (i : Nat) (p q : Pool α) : Prop where
  | still (h : Still p q) (idle : ∀ task, ¬ p.holds i task)
  | finish (task : Task α) (holds : p.holds i task) (after : q = finishTask i task p)
  | dequeue (task : Task α) (w : Worker α) (free : p.queueMutex = none)
      (before : p.workers[i]? = some w) (top : w.position = .top)
      (front : p.tasks = task :: q.tasks)
      (after : q = { p.setPosition i (.running task) with
        tasks := q.tasks, activeThreads := p.activeThreads + 1,
        dequeued := p.dequeued ++ [task] })

/-- A worker that is not in a task goes on, and its place is not in one. -/
theorem works_idle (i : Nat) (p q : Pool α) (w : Worker α) (h : Move p (.work i) q)
    (hw : p.workers[i]? = some w) (hidle : w.position.task? = none)
    (htasks : q.tasks = p.tasks) (haccepted : q.accepted = p.accepted)
    (hdequeued : q.dequeued = p.dequeued) (hfinished : q.finished = p.finished)
    (hstop : q.stop = p.stop) : Works i p q := by
  -- The worker holds no task, so none of its steps finishes one.
  have hnone : ∀ task, ¬ p.holds i task := by
    rintro task ⟨v, hv, hp⟩
    rw [hw, Option.some.injEq] at hv
    rw [hv, hp] at hidle
    simp only [Position.task?, reduceCtorEq] at hidle
  refine .still ⟨htasks, haccepted, hdequeued, hfinished, hstop, length_of_move p q _ h,
    fun j task hj => ?_⟩ hnone
  rcases holds_of_move p q _ h j task hj with hold | ⟨_, hfront⟩
  · exact hold
  · -- The queue has not got shorter.
    rw [htasks] at hfront
    exact absurd hfront (List.ne_cons_self)

theorem works_of_work (i : Nat) (p q : Pool α) (h : work i p = some q) : Works i p q := by
  have hmove := move_of_work i p q h
  have hcopy := hmove
  cases hmove with
  | relock _ self hown =>
      -- A worker in a task does not lock.
      cases hw : p.workers[i]? with
      | none => simp only [work, hw, reduceCtorEq] at h
      | some w =>
          cases hp : w.position with
          | running task =>
              simp only [work, hw, hp, Option.some.injEq] at h
              exact .finish task ⟨w, hw, hp⟩ h.symm
          | _ => exact works_idle i p _ w hcopy hw (by rw [hp]; rfl) rfl rfl rfl rfl rfl
  | sleepCondition _ w _ hw hp | exit _ w _ hw hp | sleepPause _ w _ hw hp
  | sleepAgain _ w _ hw hp | unpause _ w _ hw hp | retire _ w _ hw hp | retireLast _ w _ hw hp =>
      exact works_idle i p _ w hcopy hw (by rw [hp]; rfl) rfl rfl rfl rfl rfl
  | dequeue _ w task rest hfree hw hp _ htasks => exact .dequeue task w hfree hw hp htasks rfl
  | finish _ w task hw hp => exact .finish task ⟨w, hw, hp⟩ rfl

theorem holds_finish (i : Nat) (task : Task α) (p : Pool α) (j : Nat) (other : Task α)
    (h : (finishTask i task p).holds j other) : j ≠ i ∧ p.holds j other := by
  rcases holds_setPosition p i j .finished other h with hother | ⟨_, hfinished⟩
  · exact hother
  · simp only [reduceCtorEq] at hfinished

/-- A worker that takes a task has had none. -/
theorem holds_dequeue (i : Nat) (p q : Pool α) (task : Task α)
    (hq : q.workers = (p.setPosition i (.running task)).workers) (j : Nat) (other : Task α)
    (h : q.holds j other) : (j ≠ i ∧ p.holds j other) ∨ (j = i ∧ other = task) := by
  have hset : (p.setPosition i (.running task)).holds j other := by
    unfold Pool.holds at h ⊢
    rw [← hq]
    exact h
  rcases holds_setPosition p i j (.running task) other hset with hother | ⟨hj, hrunning⟩
  · exact Or.inl hother
  · exact Or.inr ⟨hj, (Position.running.inj hrunning).symm⟩

/-- With the mutex owned, no task is queued and none is begun. -/
theorem owned_move (p q : Pool α) (a : Act α) (o : Thread) (hown : p.queueMutex = some o)
    (h : Move p a q) : q.queueMutex = some o ∧ q.tasks = p.tasks ∧ q.accepted = p.accepted ∧
      q.dequeued = p.dequeued ∧ q.workers.length = p.workers.length := by
  cases h with
  | relock | finish | notifyOne | notifyNobody | notifyResume | notifyShutdown | joinReturn
  | join | joinThrow | wakeCondition | wakePause | wakeCompletion =>
      simp only [finishTask, Pool.setPosition, Pool.notifyAllPause, Pool.notifyAllCondition,
        List.length_modify, List.length_map, hown, and_self]
  -- The others lock it first.
  | refuse _ _ hfree | enqueue _ _ hfree | pause _ hfree | resume _ hfree | shutdown _ hfree
  | waitForCompletion _ hfree | query _ _ hfree | grow _ _ hfree | shrink _ _ hfree
  | sleepCondition _ _ hfree | exit _ _ hfree | sleepPause _ _ hfree | dequeue _ _ _ _ hfree
  | sleepAgain _ _ hfree | unpause _ _ hfree | retire _ _ hfree | retireLast _ _ hfree
  | recheck _ hfree =>
      rw [hown] at hfree
      simp only [reduceCtorEq] at hfree

/-- Only a call changes the number of workers. -/
theorem length_of_step (p q : Pool α) (a : Act α) (ha : a.isCall = false)
    (h : step p a = some q) : q.workers.length = p.workers.length := by
  cases move_of_step p q a h with
  | grow => exact absurd ha.symm Bool.false_ne_true
  | sleepCondition | exit | sleepPause | dequeue | sleepAgain | unpause | finish | retire
  | notifyOne | join | wakeCondition | wakePause =>
      simp only [Pool.setPosition, finishTask, List.length_modify]
  | retireLast | notifyResume | notifyShutdown =>
      simp only [Pool.notifyAllPause, Pool.notifyAllCondition, Pool.setPosition, List.length_map,
        List.length_modify]
  | _ => rfl

theorem still_of_step (p q : Pool α) (a : Act α) (h : step p a = some q) (ha : a.quiet = true) :
    Still p q :=
  still_of_move p q a (move_of_step p q a h) ha

end ThreadPool

namespace Accepting

open ThreadPool (Thread Task Pool PoolM Worker Op Still Works Adjust call adjustedSize
  adjustThreadPoolSize)

/-! ### The pool of the server -/

/-- A call of a member function is a step of the pool. -/
theorem step_of_call {β : Type} (self : Thread) (op : Op Nat) (f : PoolM Nat β)
    (hop : op.exec self = (do let _ ← f; pure ())) (p p' : Pool Nat) (result : Option β)
    (h : call f p = some (result, p')) : ThreadPool.step p (.call self op) = some p' := by
  unfold call at h
  cases hf : f p with
  | ok b q =>
      simp only [hf, Option.some.injEq, Prod.mk.injEq] at h
      simp only [ThreadPool.step, hop, bind, EStateM.bind, hf, pure, EStateM.pure,
        ThreadPool.commit, h.2]
  | error fault q =>
      cases fault <;>
        simp only [hf, reduceCtorEq, Option.some.injEq, Prod.mk.injEq] at h <;>
        simp only [ThreadPool.step, hop, bind, EStateM.bind, hf, ThreadPool.commit, h.2]

/-- And so is a piece of `adjustThreadPoolSize`, which moves no task. -/
theorem adjust_step (self : Thread) (p p' : Pool Nat) (a a' : Adjust)
    (h : adjustThreadPoolSize self p a = some (a', p')) :
    ∃ b, b.quiet = true ∧ ThreadPool.step p b = some p' := by
  -- Each of the three calls is one step of the pool.
  cases a with
  | called =>
      simp only [adjustThreadPoolSize, Option.map_eq_some_iff, Prod.exists, Prod.mk.injEq] at h
      rcases h with ⟨result, q, hcall, _, rfl⟩
      exact ⟨.call self .getQueueSize, rfl, step_of_call self _ _ rfl p q result hcall⟩
  | queueRead queueSize =>
      simp only [adjustThreadPoolSize, Option.map_eq_some_iff, Prod.exists, Prod.mk.injEq] at h
      rcases h with ⟨result, q, hcall, _, rfl⟩
      exact ⟨.call self .getSize, rfl, step_of_call self _ _ rfl p q result hcall⟩
  | sizesRead queueSize currentSize =>
      simp only [adjustThreadPoolSize, Option.map_eq_some_iff, Prod.exists, Prod.mk.injEq] at h
      rcases h with ⟨result, q, hcall, _, rfl⟩
      exact ⟨.call self (.resize _), rfl, step_of_call self _ _ rfl p q result hcall⟩
  | returned => simp only [adjustThreadPoolSize, reduceCtorEq] at h
  | stuck => simp only [adjustThreadPoolSize, reduceCtorEq] at h

/-- The pool with the task of a connection behind its queue. -/
def queuedBehind (connection : Nat) (p : Pool Nat) : Pool Nat :=
  { p with tasks := p.tasks ++ [.user connection], accepted := p.accepted ++ [.user connection],
           enqueueNotifies := p.enqueueNotifies + 1 }

/-- Without `stop`, `enqueue` adds its task or waits for its own thread. -/
theorem enqueue_call (connection : Nat) (p p' : Pool Nat) (result : Option Bool)
    (hstop : p.stop = false)
    (h : call (ThreadPool.enqueue (.caller 0) (.user connection)) p = some (result, p')) :
    (result = none ∧ Still p p' ∧ p'.workers.length = p.workers.length) ∨
      (result = some true ∧ p' = queuedBehind connection p) := by
  -- Without the mutex `enqueue` hangs or waits; with it, it is one step.
  cases hm : p.queueMutex with
  | some o =>
      refine Or.inl ?_
      simp only [call, ThreadPool.enqueue, bind, EStateM.bind, ThreadPool.lockQueueMutex, hm] at h
      by_cases ho : o = .caller 0
      · -- It waits for itself.
        rw [if_pos ho] at h
        simp only [Option.some.injEq, Prod.mk.injEq] at h
        rw [← h.2]
        exact ⟨h.1.symm, ⟨rfl, rfl, rfl, rfl, rfl, Nat.le_refl _, fun _ _ hj => hj⟩, rfl⟩
      · rw [if_neg ho] at h
        simp only [reduceCtorEq] at h
  | none =>
      refine Or.inr ?_
      simp only [call, ThreadPool.enqueue_free _ _ p hm, hstop, Bool.false_eq_true, if_false,
        Option.some.injEq, Prod.mk.injEq] at h
      refine ⟨h.1.symm, ?_⟩
      rw [← h.2, queuedBehind, hstop]

/-! ### Steps -/

/-- A step of the pool that wakes a worker. -/
def Act.wakes : Act → Bool
  | .notifyOne _ => true
  | .wake _ => true
  | _ => false

/-- What a step of the threads is, for a pool that is not stopped. -/
inductive Did (s t : State) : Act → Prop where
  | close (connection : Nat) (after : t = s) : Did s t (.accept connection false)
  | accept (connection : Nat) (waiting : s.main = .waiting)
      (after : t = { s with
        activeConnections := s.activeConnections + 1, main := .adding connection .called }) :
      Did s t (.accept connection true)
  | adjust (connection : Nat) (p p' : Adjust) (pool : Pool Nat)
      (main : s.main = .adding connection p) (adjusts : Adjusts s.pool p p' pool)
      (still : Still s.pool pool)
      (after : t = { s with main := .adding connection p', pool := pool }) : Did s t .proceed
  | enqueue (connection : Nat) (main : s.main = .adding connection .returned)
      (after : t = { s with main := .waiting, pool := queuedBehind connection s.pool }) :
      Did s t .proceed
  | relock (connection : Nat) (pool : Pool Nat) (main : s.main = .adding connection .returned)
      (still : Still s.pool pool) (length : pool.workers.length = s.pool.workers.length)
      (after : t = { s with main := .adding connection .stuck, pool := pool }) : Did s t .proceed
  | leave (i : Nat) (handles : s.handles i = true)
      (after : t = { s with
        activeConnections := s.activeConnections - 1
        tasks := Function.update s.tasks i (.leaving .called) }) : Did s t (.leave i)
  | fail (i : Nat) (handles : s.handles i = true)
      (after : t = { s with tasks := Function.update s.tasks i .failed }) : Did s t (.fail i)
  | adjustTask (i connection : Nat) (p p' : Adjust) (pool : Pool Nat)
      (runs : s.runs i = some connection) (task : s.tasks i = .leaving p)
      (adjusts : Adjusts s.pool p p' pool) (still : Still s.pool pool)
      (after : t = { s with tasks := Function.update s.tasks i (.leaving p'), pool := pool }) :
      Did s t (.proceedTask i)
  | work (i : Nat) (pool : Pool Nat) (finished : s.finished i = true)
      (works : Works i s.pool pool)
      (length : pool.workers.length = s.pool.workers.length)
      (after : t = { s with pool := pool, tasks := Function.update s.tasks i .handling }) :
      Did s t (.work i)
  | pool (a : Act) (wakes : a.wakes = true) (pool : Pool Nat) (still : Still s.pool pool)
      (length : pool.workers.length = s.pool.workers.length)
      (after : t = { s with pool := pool }) : Did s t a

theorem did_of_proceed (s t : State) (hstop : s.pool.stop = false) (h : proceed s = some t) :
    Did s t .proceed := by
  unfold proceed at h
  -- With `stop` unset `enqueue` queues, or waits for the mutex it owns.
  split at h
  · simp only [reduceCtorEq] at h
  · rename_i connection hmain
    simp only [Option.map_eq_some_iff, Prod.exists] at h
    rcases h with ⟨result, p', hcall, rfl⟩
    rcases enqueue_call connection s.pool p' result hstop hcall with
      ⟨rfl, hstill, hlength⟩ | ⟨rfl, rfl⟩
    · exact .relock connection p' hmain hstill hlength rfl
    · exact .enqueue connection hmain rfl
  · rename_i connection p _ hmain
    simp only [Option.map_eq_some_iff, Prod.exists] at h
    rcases h with ⟨p', pool', hadjust, rfl⟩
    rcases adjust_step _ _ _ _ _ hadjust with ⟨b, hb, hstep⟩
    exact .adjust connection p p' pool' hmain (adjust_cases _ _ _ _ _ hadjust)
      (ThreadPool.still_of_step _ _ b hstep hb) rfl

theorem did_of_step (s t : State) (a : Act) (hstop : s.pool.stop = false)
    (h : step s a = some t) : Did s t a := by
  -- The main thread's steps, then a task's, then the pool's own.
  cases a with
  | accept connection registered =>
      simp only [step, accept] at h
      split at h
      · rename_i hmain
        cases registered with
        | true => exact .accept connection hmain (Option.some.inj h).symm
        | false => exact .close connection (Option.some.inj h).symm
      · simp only [reduceCtorEq] at h
  | proceed => exact did_of_proceed s t hstop h
  | leave i =>
      simp only [step, leave] at h
      split at h
      · exact .leave i ‹_› (Option.some.inj h).symm
      · simp only [reduceCtorEq] at h
  | fail i =>
      simp only [step, fail] at h
      split at h
      · exact .fail i ‹_› (Option.some.inj h).symm
      · simp only [reduceCtorEq] at h
  | proceedTask i =>
      simp only [step, proceedTask] at h
      split at h
      · rename_i connection p hruns htask
        simp only [Option.map_eq_some_iff, Prod.exists] at h
        rcases h with ⟨p', pool', hadjust, rfl⟩
        rcases adjust_step _ _ _ _ _ hadjust with ⟨b, hb, hstep⟩
        exact .adjustTask i connection p p' pool' hruns htask (adjust_cases _ _ _ _ _ hadjust)
          (ThreadPool.still_of_step _ _ b hstep hb) rfl
      · simp only [reduceCtorEq] at h
  | work i =>
      simp only [step, work] at h
      split at h
      · rw [Option.map_eq_some_iff] at h
        rcases h with ⟨p', hp', rfl⟩
        exact .work i p' ‹_› (ThreadPool.works_of_work i _ _ hp')
          (ThreadPool.length_of_step _ _ (.work i) rfl hp') rfl
      · simp only [reduceCtorEq] at h
  | notifyOne i =>
      simp only [step, Option.map_eq_some_iff] at h
      rcases h with ⟨p', hp', rfl⟩
      exact .pool _ rfl p' (ThreadPool.still_of_step _ _ (.notifyOne i) hp' rfl)
        (ThreadPool.length_of_step _ _ (.notifyOne i) rfl hp') rfl
  | wake i =>
      simp only [step, Option.map_eq_some_iff] at h
      rcases h with ⟨p', hp', rfl⟩
      exact .pool _ rfl p' (ThreadPool.still_of_step _ _ (.wake i) hp' rfl)
        (ThreadPool.length_of_step _ _ (.wake i) rfl hp') rfl

/-- A step of the threads is a step of the pool, or none of its. -/
theorem pool_step (s t : State) (a : Act) (h : step s a = some t) :
    t.pool = s.pool ∨ ∃ b, ThreadPool.step s.pool b = some t.pool := by
  -- Every action is at most one step of the pool.
  cases a with
  | accept connection registered =>
      simp only [step, accept] at h
      split at h
      · cases registered with
        | true => exact Or.inl (by rw [← Option.some.inj h])
        | false => exact Or.inl (by rw [← Option.some.inj h])
      · simp only [reduceCtorEq] at h
  | proceed =>
      simp only [step, proceed] at h
      split at h
      · simp only [reduceCtorEq] at h
      · rename_i connection _
        simp only [Option.map_eq_some_iff, Prod.exists] at h
        rcases h with ⟨result, p', hcall, rfl⟩
        exact Or.inr ⟨.call (.caller 0) (.enqueue connection),
          step_of_call _ _ _ rfl s.pool p' result hcall⟩
      · simp only [Option.map_eq_some_iff, Prod.exists] at h
        rcases h with ⟨p', pool', hadjust, rfl⟩
        rcases adjust_step _ _ _ _ _ hadjust with ⟨b, _, hstep⟩
        exact Or.inr ⟨b, hstep⟩
  | leave i | fail i =>
      simp only [step, leave, fail] at h
      split at h
      · exact Or.inl (by rw [← Option.some.inj h])
      · simp only [reduceCtorEq] at h
  | proceedTask i =>
      simp only [step, proceedTask] at h
      split at h
      · simp only [Option.map_eq_some_iff, Prod.exists] at h
        rcases h with ⟨p', pool', hadjust, rfl⟩
        rcases adjust_step _ _ _ _ _ hadjust with ⟨b, _, hstep⟩
        exact Or.inr ⟨b, hstep⟩
      · simp only [reduceCtorEq] at h
  | work i =>
      simp only [step, work] at h
      split at h
      · rw [Option.map_eq_some_iff] at h
        rcases h with ⟨p', hp', rfl⟩
        exact Or.inr ⟨.work i, hp'⟩
      · simp only [reduceCtorEq] at h
  | notifyOne i =>
      simp only [step, Option.map_eq_some_iff] at h
      rcases h with ⟨p', hp', rfl⟩
      exact Or.inr ⟨.notifyOne i, hp'⟩
  | wake i =>
      simp only [step, Option.map_eq_some_iff] at h
      rcases h with ⟨p', hp', rfl⟩
      exact Or.inr ⟨.wake i, hp'⟩

/-- A run of the threads is a run of the pool. -/
theorem reaches_pool (s t : State) (h : machine.Reaches s t) :
    (ThreadPool.machine Nat).Reaches s.pool t.pool := by
  refine Machine.reaches_image State.pool (fun u a v hstep => ?_) h
  rcases pool_step u v a hstep with hsame | ⟨b, hb⟩
  · rw [hsame]
    exact Machine.reaches_refl _
  · exact Machine.reaches_step (Machine.reaches_refl _) hb

theorem reaches_owned (s t : State) (o : Thread) (hown : s.pool.queueMutex = some o)
    (h : machine.Reaches s t) :
    t.pool.queueMutex = some o ∧ t.pool.tasks = s.pool.tasks ∧
      t.pool.accepted = s.pool.accepted ∧ t.pool.dequeued = s.pool.dequeued ∧
      t.pool.workers.length = s.pool.workers.length := by
  -- Whoever owns the mutex for ever leaves the pool as it is.
  refine Machine.invariant (M := ThreadPool.machine Nat) (I := fun p : Pool Nat =>
    p.queueMutex = some o ∧ p.tasks = s.pool.tasks ∧ p.accepted = s.pool.accepted ∧
      p.dequeued = s.pool.dequeued ∧ p.workers.length = s.pool.workers.length)
    (reaches_pool s t h) ⟨hown, rfl, rfl, rfl, rfl⟩ (fun p a q hp _ hstep => ?_)
  rcases hp with ⟨hmutex, htasks, haccepted, hdequeued, hlength⟩
  rcases ThreadPool.owned_move p q a o hmutex (ThreadPool.move_of_step p q a hstep) with
    ⟨hmutex', htasks', haccepted', hdequeued', hlength'⟩
  exact ⟨hmutex', htasks'.trans htasks, haccepted'.trans haccepted, hdequeued'.trans hdequeued,
    hlength'.trans hlength⟩

/-! ### The pool is not stopped -/

/-- The pool is not stopped, and no task of it will do that. -/
structure Open (p : Pool Nat) : Prop where
  stop : p.stop = false
  queued : ∀ task ∈ p.tasks, task ≠ .terminate
  held : ∀ i, ¬ p.holds i .terminate

theorem still_open (p q : Pool Nat) (h : Still p q) (hp : Open p) : Open q :=
  ⟨by rw [h.stop]; exact hp.stop, by rw [h.tasks]; exact hp.queued,
    fun i hi => hp.held i (h.holds i _ hi)⟩

theorem works_open (i : Nat) (p q : Pool Nat) (h : Works i p q) (hp : Open p) : Open q := by
  cases h with
  | still h => exact still_open p q h hp
  | finish task hholds hafter =>
      rw [hafter]
      refine ⟨?_, hp.queued, fun j hj => hp.held j (ThreadPool.holds_finish i task p j _ hj).2⟩
      -- It is the task of a connection.
      cases task with
      | user connection => simp only [ThreadPool.finishTask, Bool.or_false, hp.stop]
      | terminate => exact absurd hholds (hp.held i)
  | dequeue task w _ _ _ hfront hafter =>
      refine ⟨by rw [hafter]; exact hp.stop, fun other hother => hp.queued other ?_,
        fun j hj => ?_⟩
      · rw [hfront]
        exact List.mem_cons_of_mem _ hother
      · rcases ThreadPool.holds_dequeue i p q task (by rw [hafter]) j _ hj with
          ⟨_, hold⟩ | ⟨_, hnew⟩
        · exact hp.held j hold
        · refine hp.queued task ?_ hnew.symm
          rw [hfront]
          exact List.mem_cons_self

theorem step_open (s t : State) (a : Act) (hs : Open s.pool) (h : step s a = some t) :
    Open t.pool := by
  -- Closing or leaving does not look at the pool, and the others add no `stop` task.
  cases did_of_step s t a hs.stop h with
  | close _ hafter | accept _ _ hafter | leave _ _ hafter | fail _ _ hafter =>
      rw [hafter]
      exact hs
  | adjust _ _ _ _ _ _ hstill hafter | relock _ _ _ hstill _ hafter
  | adjustTask _ _ _ _ _ _ _ _ hstill hafter | pool _ _ _ hstill _ hafter =>
      rw [hafter]
      exact still_open _ _ hstill hs
  | enqueue connection _ hafter =>
      rw [hafter]
      refine ⟨hs.stop, fun task htask => ?_, hs.held⟩
      rcases List.mem_append.mp htask with hold | hnew
      · exact hs.queued task hold
      · rw [List.mem_singleton.mp hnew]
        simp only [ne_eq, reduceCtorEq, not_false_eq_true]
  | work i _ _ hworks _ hafter =>
      rw [hafter]
      exact works_open i _ _ hworks hs

theorem initial_open : Open initial.pool := by
  refine ⟨rfl, fun _ htask => absurd htask List.not_mem_nil, fun i hi => ?_⟩
  rcases hi with ⟨w, hw, hp⟩
  rw [List.eq_of_mem_replicate (List.mem_of_getElem? hw)] at hp
  simp only [Worker.spawned, reduceCtorEq] at hp

/-- The server's pool is never stopped: `resize` has no chance to queue a task
    that does it. -/
theorem reaches_open (s : State) (h : machine.Reaches initial s) : Open s.pool :=
  Machine.invariant (I := fun t : State => Open t.pool) h initial_open
    (fun t a u ht _ hstep => step_open t u a ht hstep)

/-! ### Sizes -/

/-- What a thread has read of the number of workers, with `n` of them. -/
def CountedBy (n : Nat) : Adjust → Prop
  | .sizesRead _ currentSize => 10 ≤ currentSize ∧ currentSize ≤ n
  | _ => True

theorem countedBy_mono (m n : Nat) (hmn : m ≤ n) (p : Adjust) (h : CountedBy m p) :
    CountedBy n p := by
  cases p with
  | sizesRead => exact ⟨h.1, Nat.le_trans h.2 hmn⟩
  | _ => exact trivial

/-- There are ten workers, or twenty and more. -/
def TenOrTwenty (n : Nat) : Prop := n = 10 ∨ 20 ≤ n

theorem ten_le (n : Nat) (h : TenOrTwenty n) : 10 ≤ n := by
  unfold TenOrTwenty at h
  omega

/-- A resize doubles what has been read, or leaves the pool as it is. -/
theorem counted_adjusts (p p' : Pool Nat) (a a' : Adjust) (h : Adjusts p a a' p')
    (hn : TenOrTwenty p.workers.length) (ha : CountedBy p.workers.length a) :
    TenOrTwenty p'.workers.length ∧ CountedBy p'.workers.length a' := by
  cases h with
  | stuck _ _ hw _ => exact ⟨by rw [hw]; exact hn, trivial⟩
  | getQueueSize => exact ⟨hn, trivial⟩
  | getSize => exact ⟨hn, ten_le _ hn, Nat.le_refl _⟩
  | resize queueSize currentSize hle =>
      refine ⟨?_, trivial⟩
      rw [List.length_append, List.length_replicate, Nat.add_sub_cancel' hle]
      -- A long queue doubles what was read, and that was ten at least.
      by_cases hq : currentSize < queueSize
      · rw [adjustedSize_double queueSize currentSize hq]
        exact Or.inr (Nat.mul_le_mul_left 2 ha.1)
      · rw [Nat.le_antisymm (adjustedSize_le queueSize currentSize _ hq (ten_le _ hn) ha.2) hle]
        exact hn

/-- Every thread in `adjustThreadPoolSize` has read a size the pool has had. -/
structure Counted (s : State) : Prop where
  sized : TenOrTwenty s.pool.workers.length
  main : ∀ connection p, s.main = .adding connection p → CountedBy s.pool.workers.length p
  task : ∀ i p, s.tasks i = .leaving p → CountedBy s.pool.workers.length p

theorem counted_tasks (s t : State) (i : Nat) (phase : TaskPhase) (hs : Counted s)
    (htasks : t.tasks = Function.update s.tasks i phase) (hmain : t.main = s.main)
    (hsized : TenOrTwenty t.pool.workers.length)
    (hlen : s.pool.workers.length ≤ t.pool.workers.length)
    (hphase : ∀ p, phase = .leaving p → CountedBy t.pool.workers.length p) : Counted t := by
  refine ⟨hsized, fun connection p hp => ?_, fun j p hp => ?_⟩
  · exact countedBy_mono _ _ hlen p (hs.main connection p (hmain ▸ hp))
  · rw [htasks] at hp
    by_cases hij : j = i
    · rw [hij, Function.update_self] at hp
      exact hphase p hp
    · rw [Function.update_of_ne hij] at hp
      exact countedBy_mono _ _ hlen p (hs.task j p hp)

theorem counted_main (s t : State) (hs : Counted s) (htasks : t.tasks = s.tasks)
    (hsized : TenOrTwenty t.pool.workers.length)
    (hlen : s.pool.workers.length ≤ t.pool.workers.length)
    (hmain : ∀ connection p, t.main = .adding connection p →
      CountedBy t.pool.workers.length p) : Counted t :=
  ⟨hsized, hmain, fun j p hp => countedBy_mono _ _ hlen p (hs.task j p (htasks ▸ hp))⟩

theorem step_counted (s t : State) (a : Act) (hopen : Open s.pool) (hs : Counted s)
    (h : step s a = some t) : Counted t := by
  -- The pool never shrinks, so a size that was read is at most the size there is.
  cases did_of_step s t a hopen.stop h with
  | close _ hafter =>
      rw [hafter]
      exact hs
  | accept connection hmain hafter =>
      rw [hafter]
      refine counted_main s _ hs rfl hs.sized (Nat.le_refl _) (fun c p hp => ?_)
      rw [MainPhase.adding.injEq] at hp
      rw [← hp.2]
      exact trivial
  | adjust connection p p' pool hmain hadjusts hstill hafter =>
      rcases counted_adjusts _ _ p p' hadjusts hs.sized (hs.main connection p hmain) with
        ⟨hsized, hcounted⟩
      rw [hafter]
      refine counted_main s _ hs rfl hsized hstill.length (fun c q hq => ?_)
      rw [MainPhase.adding.injEq] at hq
      rw [← hq.2]
      exact hcounted
  | enqueue connection hmain hafter =>
      rw [hafter]
      refine counted_main s _ hs rfl hs.sized (Nat.le_refl _) (fun c p hp => ?_)
      exact MainPhase.noConfusion hp
  | relock connection pool hmain hstill hlength hafter =>
      rw [hafter]
      refine counted_main s _ hs rfl (by rw [hlength]; exact hs.sized) hstill.length
        (fun c p hp => ?_)
      rw [MainPhase.adding.injEq] at hp
      rw [← hp.2]
      exact trivial
  | leave i hi hafter =>
      rw [hafter]
      refine counted_tasks s _ i _ hs rfl rfl hs.sized (Nat.le_refl _) (fun p hp => ?_)
      rw [← TaskPhase.leaving.inj hp]
      exact trivial
  | fail i hi hafter =>
      rw [hafter]
      exact counted_tasks s _ i _ hs rfl rfl hs.sized (Nat.le_refl _)
        (fun p hp => TaskPhase.noConfusion hp)
  | adjustTask i connection p p' pool hruns htask hadjusts hstill hafter =>
      rcases counted_adjusts _ _ p p' hadjusts hs.sized (hs.task i p htask) with
        ⟨hsized, hcounted⟩
      rw [hafter]
      refine counted_tasks s _ i _ hs rfl rfl hsized hstill.length (fun q hq => ?_)
      rw [← TaskPhase.leaving.inj hq]
      exact hcounted
  | work i pool hfinished hworks hlength hafter =>
      rw [hafter]
      exact counted_tasks s _ i _ hs rfl rfl (by rw [hlength]; exact hs.sized)
        (Nat.le_of_eq hlength.symm) (fun p hp => TaskPhase.noConfusion hp)
  | pool _ _ pool hstill hlength hafter =>
      rw [hafter]
      refine counted_main s _ hs rfl (by rw [hlength]; exact hs.sized) hstill.length
        (fun c p hp => ?_)
      rw [hlength]
      exact hs.main c p hp

theorem reaches_counted (s : State) (h : machine.Reaches initial s) : Counted s := by
  refine Machine.invariant_of (K := fun t : State => Open t.pool) h reaches_open ?_
    (fun t a u hopen ht _ hstep => step_counted t u a hopen ht hstep)
  exact ⟨Or.inl List.length_replicate, fun _ _ hp => MainPhase.noConfusion hp,
    fun _ _ hp => TaskPhase.noConfusion hp⟩

/-! ### A pool that is grown and drained -/

/-- More than ten workers, and a queue shorter than half of them. -/
def Spent (p : Pool Nat) : Prop :=
  10 < p.workers.length ∧ p.tasks.length < p.workers.length / 2

/-- Where a thread stands in `adjustThreadPoolSize` that will ask for fewer
    workers than there are, or has. -/
def Doomed (p : Pool Nat) : Adjust → Prop
  | .called => True
  | .queueRead queueSize => queueSize < p.workers.length / 2
  | .sizesRead queueSize currentSize =>
      10 < currentSize ∧ queueSize < currentSize / 2 ∧ currentSize ≤ p.workers.length
  | .returned => False
  | .stuck => True

theorem doomed_still (p q : Pool Nat) (a : Adjust) (h : Still p q) (ha : Doomed p a) :
    Doomed q a := by
  have hlength := h.length
  cases a with
  | called | stuck => exact trivial
  | queueRead queueSize => exact Nat.lt_of_lt_of_le ha (Nat.div_le_div_right hlength)
  | sizesRead queueSize currentSize => exact ⟨ha.1, ha.2.1, Nat.le_trans ha.2.2 hlength⟩
  | returned => exact ha

/-- A doomed thread stays it, and does not return. -/
theorem doomed_adjusts (p p' : Pool Nat) (a a' : Adjust) (h : Adjusts p a a' p')
    (hp : Spent p) (ha : Doomed p a) : Doomed p' a' := by
  cases h with
  | stuck => exact trivial
  | getQueueSize => exact hp.2
  | getSize queueSize => exact ⟨hp.1, ha, Nat.le_refl _⟩
  | resize queueSize currentSize hle =>
      -- It asks for fewer workers than it has read, so it does not go through.
      have hlt := (ThreadPool.adjustedSize_lt queueSize currentSize).mpr ⟨ha.1, ha.2.1⟩
      exact absurd (Nat.lt_of_lt_of_le hlt ha.2.2) (Nat.not_lt_of_le hle)

theorem spent_still (p q : Pool Nat) (h : Still p q) (hp : Spent p) : Spent q := by
  have hlength := h.length
  unfold Spent at hp ⊢
  rw [h.tasks]
  omega

theorem spent_works (i : Nat) (p q : Pool Nat) (h : Works i p q)
    (hlength : q.workers.length = p.workers.length) (hp : Spent p) : Spent q := by
  unfold Spent at hp ⊢
  rw [hlength]
  refine ⟨hp.1, Nat.lt_of_le_of_lt ?_ hp.2⟩
  cases h with
  | still h => rw [h.tasks]
  | finish task _ hafter => rw [hafter]; exact Nat.le_refl _
  | dequeue task _ _ _ _ hfront _ =>
      -- The queue only gets shorter, and the half of the workers stays.
      rw [hfront, List.length_cons]
      exact Nat.le_succ _

/-- A worker in a task was in it before, or has just begun. -/
theorem runs_still (s t : State) (h : Still s.pool t.pool) (i connection : Nat)
    (hruns : t.runs i = some connection) : s.runs i = some connection :=
  (runs_eq_some_iff s i connection).mpr
    (h.holds i _ ((runs_eq_some_iff t i connection).mp hruns))

/-- The pool is grown and drained, and no thread that reads its sizes from now
    on comes back: neither the main thread nor the task of a connection that
    had not left (`old`) at the beginning. -/
structure Declining (old : Nat → Prop) (s : State) : Prop where
  spent : Spent s.pool
  main : ∀ connection p, s.main = .adding connection p → Doomed s.pool p
  task : ∀ i connection p, s.runs i = some connection → ¬ old connection →
    s.tasks i = .leaving p → Doomed s.pool p

/-- One worker has another phase. -/
theorem declining_tasks (old : Nat → Prop) (s t : State) (i : Nat) (phase : TaskPhase)
    (hs : Declining old s) (hmain : t.main = s.main)
    (htasks : t.tasks = Function.update s.tasks i phase) (hstill : Still s.pool t.pool)
    (hphase : ∀ connection p, s.runs i = some connection → ¬ old connection →
      phase = .leaving p → Doomed t.pool p) : Declining old t := by
  refine ⟨spent_still _ _ hstill hs.spent, fun connection p hp => ?_,
    fun j connection p hruns hold hp => ?_⟩
  · exact doomed_still _ _ p hstill (hs.main connection p (hmain ▸ hp))
  · -- The phase of worker `i` is the new one; the others are where they were.
    rw [htasks] at hp
    by_cases hij : j = i
    · rw [hij] at hruns hp
      rw [Function.update_self] at hp
      exact hphase connection p (runs_still s t hstill i connection hruns) hold hp
    · rw [Function.update_of_ne hij] at hp
      exact doomed_still _ _ p hstill
        (hs.task j connection p (runs_still s t hstill j connection hruns) hold hp)

/-- The main thread stands elsewhere. -/
theorem declining_main (old : Nat → Prop) (s t : State) (hs : Declining old s)
    (htasks : t.tasks = s.tasks) (hstill : Still s.pool t.pool)
    (hmain : ∀ connection p, t.main = .adding connection p → Doomed t.pool p) :
    Declining old t := by
  refine ⟨spent_still _ _ hstill hs.spent, hmain, fun j connection p hruns hold hp => ?_⟩
  rw [htasks] at hp
  exact doomed_still _ _ p hstill
    (hs.task j connection p (runs_still s t hstill j connection hruns) hold hp)

theorem declining_work (old : Nat → Prop) (s : State) (i : Nat) (pool : Pool Nat)
    (hs : Declining old s) (hworks : Works i s.pool pool)
    (hlength : pool.workers.length = s.pool.workers.length) :
    Declining old { s with pool := pool, tasks := Function.update s.tasks i .handling } := by
  -- The pool has as many workers as before, so a size that declines still declines.
  have hdoomed : ∀ p, Doomed s.pool p → Doomed pool p := by
    intro p hp
    cases p <;> simp only [Doomed, hlength] at hp ⊢ <;> exact hp
  refine ⟨spent_works i _ _ hworks hlength hs.spent,
    fun connection p hp => hdoomed p (hs.main connection p hp),
    fun j connection p hruns hold hp => ?_⟩
  by_cases hij : j = i
  · -- Worker `i` is before its next task.
    rw [hij] at hp
    simp only [Function.update_self, reduceCtorEq] at hp
  · simp only [Function.update_of_ne hij] at hp
    refine hdoomed p (hs.task j connection p ((runs_eq_some_iff s j connection).mpr ?_) hold hp)
    have hj := (runs_eq_some_iff _ j connection).mp hruns
    cases hworks with
    | still h => exact h.holds j _ hj
    | finish task _ hafter =>
        simp only [hafter] at hj
        exact (ThreadPool.holds_finish i task s.pool j _ hj).2
    | dequeue task _ _ _ _ _ hafter =>
        rcases ThreadPool.holds_dequeue i _ pool task (by rw [hafter]) j _ hj with
          ⟨_, h⟩ | ⟨h, _⟩
        · exact h
        · exact absurd h hij

/-- On a free mutex, the three pieces of a thread that finds a grown and drained
    pool: it reads both sizes, and then owns the mutex and waits for it. -/
theorem adjust_spent (self : Thread) (p : Pool Nat) (hfree : p.queueMutex = none)
    (hp : Spent p) :
    adjustThreadPoolSize self p .called = some (.queueRead p.tasks.length, p) ∧
      adjustThreadPoolSize self p (.queueRead p.tasks.length) =
        some (.sizesRead p.tasks.length p.workers.length, p) ∧
      adjustThreadPoolSize self p (.sizesRead p.tasks.length p.workers.length) =
        some (.stuck, { p with queueMutex := some self, fault := some (.relock self) }) := by
  have hlt := (ThreadPool.adjustedSize_lt p.tasks.length p.workers.length).mpr hp
  refine ⟨ThreadPool.adjust_called self p hfree,
    ThreadPool.adjust_queueRead self p hfree p.tasks.length, ?_⟩
  rw [ThreadPool.adjust_sizesRead self p hfree, if_neg (Nat.lt_asymm hlt), if_pos hlt]

/-- Such a pool stays it, and is given no task any more. -/
theorem declining_step (old : Nat → Prop) (s t : State) (a : Act) (hopen : Open s.pool)
    (hs : Declining old s) (h : step s a = some t) :
    Declining old t ∧ t.pool.accepted = s.pool.accepted := by
  cases did_of_step s t a hopen.stop h with
  | close _ hafter =>
      rw [hafter]
      exact ⟨hs, rfl⟩
  | accept connection hmain hafter =>
      rw [hafter]
      refine ⟨declining_main old s _ hs rfl (ThreadPool.still_refl _) (fun c p hp => ?_), rfl⟩
      rw [MainPhase.adding.injEq] at hp
      rw [← hp.2]
      exact trivial
  | adjust connection p p' pool hmain hadjusts hstill hafter =>
      rw [hafter]
      refine ⟨declining_main old s _ hs rfl hstill (fun c q hq => ?_), hstill.accepted⟩
      rw [MainPhase.adding.injEq] at hq
      rw [← hq.2]
      exact doomed_adjusts _ _ p p' hadjusts hs.spent (hs.main connection p hmain)
  -- `enqueue` comes behind a resize that does not return.
  | enqueue connection hmain hafter =>
      exact absurd (hs.main connection .returned hmain) id
  | relock connection pool hmain hstill _ hafter =>
      exact absurd (hs.main connection .returned hmain) id
  | leave i hi hafter =>
      rw [hafter]
      refine ⟨declining_tasks old s _ i _ hs rfl rfl (ThreadPool.still_refl _)
        (fun c p _ _ hp => ?_), rfl⟩
      rw [← TaskPhase.leaving.inj hp]
      exact trivial
  | fail i hi hafter =>
      rw [hafter]
      exact ⟨declining_tasks old s _ i _ hs rfl rfl (ThreadPool.still_refl _)
        (fun _ _ _ _ hp => TaskPhase.noConfusion hp), rfl⟩
  | adjustTask i connection p p' pool hruns htask hadjusts hstill hafter =>
      rw [hafter]
      refine ⟨declining_tasks old s _ i _ hs rfl rfl hstill (fun c q hc hold hq => ?_),
        hstill.accepted⟩
      rw [← TaskPhase.leaving.inj hq]
      exact doomed_adjusts _ _ p p' hadjusts hs.spent (hs.task i c p hc hold htask)
  | work i pool hfinished hworks hlength hafter =>
      rw [hafter]
      refine ⟨declining_work old s i pool hs hworks hlength, ?_⟩
      cases hworks with
      | still h => exact h.accepted
      | finish _ _ hfinish => simp only [hfinish, ThreadPool.finishTask]; rfl
      | dequeue _ _ _ _ _ _ hdequeue => rw [hdequeue]; rfl
  | pool _ _ pool hstill _ hafter =>
      rw [hafter]
      exact ⟨declining_main old s _ hs rfl hstill
        (fun c p hp => doomed_still _ _ p hstill (hs.main c p hp)), hstill.accepted⟩

theorem reaches_declining (old : Nat → Prop) (s t : State) (hopen : Open s.pool)
    (hs : Declining old s) (h : machine.Reaches s t) :
    Declining old t ∧ t.pool.accepted = s.pool.accepted := by
  have hall := Machine.invariant (M := machine) (I := fun u : State =>
    Open u.pool ∧ Declining old u ∧ u.pool.accepted = s.pool.accepted) h ⟨hopen, hs, rfl⟩
    (fun u a v hu _ hstep => by
      rcases hu with ⟨huopen, hudeclining, huaccepted⟩
      rcases declining_step old u v a huopen hudeclining hstep with ⟨hdeclining, haccepted⟩
      exact ⟨step_open u v a huopen hstep, hdeclining, haccepted.trans huaccepted⟩)
  exact hall.2

end Accepting

end EpollServer
