import EpollServer.Theory.Capacity

/-!
# Clients Before Workers

A run of the server in which as many clients are served at once as the database
pool has connections for.

The server has a worker for every client only if the clients come before the
workers begin: a pool that has grown asks for fewer workers as soon as its queue
is short, and does not come back from it (`Theory.Growth`). As long as no worker
has taken a task the queue only gets longer. Each time it has got longer than
the pool, the next client doubles the pool, and a pool that was doubled has half
as many tasks at least (`adjustedSize_ample`). So the main thread comes back
from every client (`reaches_gathered`), and in the end there is a worker for
each but one. Then the workers take the tasks (`reaches_begun`), and
`Theory.Capacity` has the rest.

## Main definitions

* `Ample`: A pool of workers that is not asked to shrink.
* `gathered`: So many clients are in the queue, and no worker has begun.
* `begun`: So many workers have taken their tasks.

## Theorems

* `adjustedSize_ample`: The next client leaves the pool ample.
* `reaches_gathered`: Any number of clients gather.
* `reaches_begun`: The workers take their tasks.
* `reaches_asking`: Any number of clients ask for a connection at once.
-/

namespace EpollServer

namespace Whole

open Handler (Connection TaskAct)
open Push (Layout Environment)
open ThreadPool (Pool Task Worker adjustedSize)
open Serving (served wasted asking)

variable {ν : Type}

/-! ### The main thread alone -/

/-- There is a worker for each of the clients but one, and so many clients that
    a pool of this size is not asked to shrink. -/
structure Ample (clients workers : Nat) : Prop where
  enough : clients ≤ workers + 1
  ten : 10 ≤ workers
  half : workers = 10 ∨ workers / 2 ≤ clients

/-- The next client leaves the pool ample. -/
theorem adjustedSize_ample (clients workers : Nat) (h : Ample clients workers) :
    workers ≤ adjustedSize clients workers ∧
      Ample (clients + 1) (adjustedSize clients workers) := by
  rcases h with ⟨henough, hten, hhalf⟩
  unfold adjustedSize
  split
  · exact ⟨by omega, by omega, by omega, by omega⟩
  · split
    · exact ⟨by omega, by omega, by omega, by omega⟩
    · exact ⟨by omega, by omega, by omega, by omega⟩

/-- The task of a connection in a phase, before it has called anything. -/
def freshTask (ν : Type) (phase : Handler.Phase) : Serving.Task ν :=
  { handler := { Connection.opened ν with phase := phase }, call := none }

/-- So many clients are in the queue, and no worker has begun. -/
def gathered (ν : Type) (pool : ConnectionPool.State) (clients workers : Nat) : State ν :=
  { threads :=
      { activeConnections := clients
        main := .waiting
        pool :=
          { ThreadPool.create Nat workers with
            tasks := (List.range clients).map Task.user
            accepted := (List.range clients).map Task.user
            enqueueNotifies := clients }
        tasks := fun _ => .handling }
    serving :=
      { tasks := List.replicate clients (freshTask ν .queued)
        activeConnections := clients
        pool := pool
        thrown := [] } }

/-- A client is accepted. -/
theorem step_accept (L : Layout ν) (env : Nat → Environment) (s : State ν) (c : Nat)
    (hmain : s.threads.main = .waiting) (hc : s.serving.tasks.length = c) :
    (machine L env).step s (.accept true) =
      some { threads := { s.threads with
               activeConnections := s.threads.activeConnections + 1, main := .adding c .called }
             serving := { s.serving with
               tasks := s.serving.tasks ++ [freshTask ν .accepted]
               activeConnections := s.serving.activeConnections + 1 } } := by
  simp only [machine, step, accept, Accepting.accept, hmain, if_true, Option.bind_some,
    Serving.step, Option.map_some, hc]
  rfl

/-- The main thread goes on in `adjustThreadPoolSize`. -/
theorem proceed_adjust (L : Layout ν) (env : Nat → Environment) (s : State ν) (c : Nat)
    (p p' : ThreadPool.Adjust) (pool : Pool Nat) (hmain : s.threads.main = .adding c p)
    (hp : p ≠ .returned)
    (hadjust : ThreadPool.adjustThreadPoolSize (.caller 0) s.threads.pool p = some (p', pool)) :
    (machine L env).step s .proceed =
      some { s with threads := { s.threads with main := .adding c p', pool := pool } } := by
  have hthreads : Accepting.proceed s.threads =
      some { s.threads with main := .adding c p', pool := pool } := by
    unfold Accepting.proceed
    cases p with
    | returned => exact absurd rfl hp
    | _ => simp only [hmain, hadjust, Option.map_some]
  simp only [machine, step, proceed, hthreads, Option.bind_some, hmain]

/-- The pool is resized to no fewer workers than it has. -/
theorem adjust_grows (self : ThreadPool.Thread) (p : Pool Nat) (hm : p.queueMutex = none)
    (queueSize currentSize : Nat) (h : p.workers.length ≤ adjustedSize queueSize currentSize) :
    ThreadPool.adjustThreadPoolSize self p (.sizesRead queueSize currentSize) =
      some (.returned, { p with
        workers := p.workers ++ List.replicate
          (adjustedSize queueSize currentSize - p.workers.length) Worker.spawned }) := by
  rw [ThreadPool.adjust_sizesRead self p hm]
  by_cases hgrow : p.workers.length < adjustedSize queueSize currentSize
  · rw [if_pos hgrow]
  · have hsame : adjustedSize queueSize currentSize = p.workers.length := by omega
    rw [if_neg hgrow, if_neg (by omega), hsame, Nat.sub_self, List.replicate_zero, List.append_nil]

/-- The main thread queues the task of its connection, the last one of all. -/
theorem proceed_enqueue (L : Layout ν) (env : Nat → Environment) (s : State ν) (c : Nat)
    (tasks : List (Serving.Task ν)) (hmain : s.threads.main = .adding c .returned)
    (hfree : s.threads.pool.queueMutex = none) (hstop : s.threads.pool.stop = false)
    (htasks : s.serving.tasks = tasks ++ [freshTask ν .accepted]) (hc : tasks.length = c) :
    (machine L env).step s .proceed =
      some { threads := { s.threads with
               main := .waiting, pool := Accepting.queuedBehind c s.threads.pool }
             serving := { s.serving with tasks := tasks ++ [freshTask ν .queued] } } := by
  -- Nobody has the mutex, so the task gets into the queue in one step.
  have hcall : ThreadPool.call (ThreadPool.enqueue (.caller 0) (.user c)) s.threads.pool =
      some (some true, Accepting.queuedBehind c s.threads.pool) := by
    simp only [ThreadPool.call, ThreadPool.enqueue_free _ _ _ hfree, hstop, Bool.false_eq_true,
      if_false, Accepting.queuedBehind]
  have hlast : s.serving.tasks[c]? = some (freshTask ν .accepted) := by
    rw [htasks, ← hc]
    exact List.getElem?_concat_length
  -- The client of this task is the last one of the list.
  have hmodify : s.serving.tasks.modify c (fun _ => freshTask ν .queued) =
      tasks ++ [freshTask ν .queued] := by
    rw [htasks, ← hc, ListModify.modify_concat]
  have hserving : Serving.step L env s.serving (.task c .enqueue) =
      some { s.serving with tasks := tasks ++ [freshTask ν .queued] } := by
    rw [← hmodify]
    simp only [Serving.step, hlast, Serving.isLocal, if_true, Serving.handle, Handler.taskStep,
      freshTask, Option.map_some, Serving.State.handled, Serving.State.setTask]
  simp only [machine, step, proceed, Accepting.proceed, hmain, hcall, Option.map_some,
    Option.bind_some, Accepting.MainPhase.queued, hserving]

/-- The next client is accepted and queued. -/
theorem reaches_gathered_succ (L : Layout ν) (env : Nat → Environment)
    (pool : ConnectionPool.State) (clients workers : Nat)
    (h : workers ≤ adjustedSize clients workers) :
    (machine L env).Reaches (gathered ν pool clients workers)
      (gathered ν pool (clients + 1) (adjustedSize clients workers)) := by
  have hqueue : (gathered ν pool clients workers).threads.pool.tasks.length = clients := by
    simp only [gathered, List.length_map, List.length_range]
  have hworkers : (gathered ν pool clients workers).threads.pool.workers.length = workers :=
    List.length_replicate
  have hread := ThreadPool.adjust_called (.caller 0)
    (gathered ν pool clients workers).threads.pool rfl
  rw [hqueue] at hread
  have hsized := ThreadPool.adjust_queueRead (.caller 0)
    (gathered ν pool clients workers).threads.pool rfl clients
  rw [hworkers] at hsized
  have hgrown := adjust_grows (.caller 0) (gathered ν pool clients workers).threads.pool rfl clients
    workers (by rw [hworkers]; exact h)
  rw [hworkers] at hgrown
  -- Five steps: it is accepted, both sizes are read, the pool is resized, and it is queued.
  refine Machine.reachesBy_head trivial (step_accept L env _ clients rfl List.length_replicate) ?_
  refine Machine.reachesBy_head trivial
    (proceed_adjust L env _ clients _ _ _ rfl ThreadPool.Adjust.noConfusion hread) ?_
  refine Machine.reachesBy_head trivial
    (proceed_adjust L env _ clients _ _ _ rfl ThreadPool.Adjust.noConfusion hsized) ?_
  refine Machine.reachesBy_head trivial
    (proceed_adjust L env _ clients _ _ _ rfl ThreadPool.Adjust.noConfusion hgrown) ?_
  refine Machine.reachesBy_head trivial
    (proceed_enqueue L env _ clients _ rfl rfl rfl rfl List.length_replicate) ?_
  have hall : List.replicate workers (Worker.spawned (α := Nat)) ++
      List.replicate (adjustedSize clients workers - workers) Worker.spawned =
      List.replicate (adjustedSize clients workers) Worker.spawned := by
    rw [← List.replicate_add, Nat.add_sub_cancel' h]
  convert Machine.ReachesBy.refl using 1
  simp only [gathered, ThreadPool.create, Accepting.queuedBehind, hall, List.range_succ,
    List.map_append, List.map_cons, List.map_nil, List.replicate_succ', Nat.cast_add, Nat.cast_one]

/-- Any number of clients gather while no worker begins. -/
theorem reaches_gathered (L : Layout ν) (env : Nat → Environment) (pool : ConnectionPool.State)
    (clients : Nat) : ∃ workers, Ample clients workers ∧
      (machine L env).Reaches (initial ν pool) (gathered ν pool clients workers) := by
  induction clients with
  | zero => exact ⟨10, ⟨Nat.zero_le _, le_rfl, Or.inl rfl⟩, Machine.reaches_refl _⟩
  | succ clients ih =>
      rcases ih with ⟨workers, hample, hreach⟩
      rcases adjustedSize_ample clients workers hample with ⟨hgrows, hnext⟩
      exact ⟨_, hnext, Machine.reaches_trans hreach
        (reaches_gathered_succ L env pool clients workers hgrows)⟩

/-! ### The workers -/

/-- The first `k` workers have taken the first `k` tasks. So many more workers
    and so many more tasks are there. -/
def begun (ν : Type) (pool : ConnectionPool.State) (k workers clients : Nat) : State ν :=
  { threads :=
      { activeConnections := k + clients
        main := .waiting
        pool :=
          { ThreadPool.create Nat (k + workers) with
            workers :=
              (List.range k).map
                  (fun c => { position := .running (.user c), joinable := true }) ++
                List.replicate workers Worker.spawned
            tasks := (List.range' k clients).map Task.user
            activeThreads := k
            enqueueNotifies := k + clients
            accepted := (List.range (k + clients)).map Task.user
            dequeued := (List.range k).map Task.user }
        tasks := fun _ => .handling }
    serving :=
      { tasks := List.replicate k (freshTask ν .started) ++
          List.replicate clients (freshTask ν .queued)
        activeConnections := ((k + clients : Nat) : Int)
        pool := pool
        thrown := [] } }

/-- The pool when worker `i` has taken the task of connection `c`, with `rest` behind
    it. -/
def takenBy (i c : Nat) (rest : List (ThreadPool.Task Nat)) (p : Pool Nat) : Pool Nat :=
  { p.setPosition i (.running (.user c)) with
    tasks := rest
    activeThreads := p.activeThreads + 1
    dequeued := p.dequeued ++ [.user c] }

/-- A worker that has not begun takes the task of connection `c`. -/
theorem work_dequeue (L : Layout ν) (env : Nat → Environment) (s : State ν) (i c : Nat)
    (rest : List (ThreadPool.Task Nat)) (front back : List (Serving.Task ν))
    (hfree : s.threads.pool.queueMutex = none)
    (hworker : s.threads.pool.workers[i]? = some Worker.spawned)
    (hpaused : s.threads.pool.paused = false) (hqueue : s.threads.pool.tasks = .user c :: rest)
    (htasks : s.serving.tasks = front ++ freshTask ν .queued :: back) (hc : front.length = c) :
    (machine L env).step s (.work i) =
      some { threads := { s.threads with
               pool := takenBy i c rest s.threads.pool
               tasks := Function.update s.threads.tasks i .handling }
             serving := { s.serving with tasks := front ++ freshTask ν .started :: back } } := by
  have hdequeue : ThreadPool.work i s.threads.pool = some (takenBy i c rest s.threads.pool) :=
    ThreadPool.step_dequeue s.threads.pool i _ _ rest hfree hworker rfl hpaused hqueue
  -- The worker ran no task before, and runs this one now.
  have hruns : s.threads.runs i = none := by
    simp only [Accepting.State.runs, hworker, Worker.spawned]
  have hposition : (takenBy i c rest s.threads.pool).workers[i]? =
      some { position := .running (.user c), joinable := true } := by
    simp only [takenBy, ThreadPool.Pool.setPosition, List.getElem?_modify_eq, hworker,
      Option.map_eq_map, Option.map_some, Worker.spawned]
  have hwork : Accepting.work i s.threads = some { s.threads with
      pool := takenBy i c rest s.threads.pool
      tasks := Function.update s.threads.tasks i .handling } := by
    simp only [Accepting.work, Accepting.State.finished, hruns, if_true, hdequeue, Option.map_some]
  have hnext : s.serving.tasks[c]? = some (freshTask ν .queued) := by
    rw [htasks, ← hc, List.getElem?_append_right le_rfl, Nat.sub_self, List.getElem?_cons_zero]
  have hmodify : s.serving.tasks.modify c (fun _ => freshTask ν .started) =
      front ++ freshTask ν .started :: back := by
    rw [htasks, ← hc, ListModify.modify_append]
  have hserving : Serving.step L env s.serving (.task c .start) =
      some { s.serving with tasks := front ++ freshTask ν .started :: back } := by
    rw [← hmodify]
    simp only [Serving.step, hnext, Serving.isLocal, if_true, Serving.handle, Handler.taskStep,
      freshTask, Option.map_some, Serving.State.handled, Serving.State.setTask]
  simp only [machine, step, work, hwork, Option.bind_some, Accepting.State.runs, hposition,
    hserving, Option.map_some]

/-- The next worker takes the next task. -/
theorem reaches_begun_succ (L : Layout ν) (env : Nat → Environment)
    (pool : ConnectionPool.State) (k workers clients : Nat) :
    (machine L env).Reaches (begun ν pool k (workers + 1) (clients + 1))
      (begun ν pool (k + 1) workers clients) := by
  generalize hrunning : (List.range k).map
    (fun c => ({ position := .running (.user c), joinable := true } : Worker Nat)) = running
  have hlength : running.length = k := by
    rw [← hrunning, List.length_map, List.length_range]
  have hworker : (begun ν pool k (workers + 1) (clients + 1)).threads.pool.workers[k]? =
      some Worker.spawned := by
    simp only [begun, hrunning, List.replicate_succ]
    rw [List.getElem?_append_right hlength.le, hlength, Nat.sub_self, List.getElem?_cons_zero]
  -- The next worker takes the next task; the rest is what the state looks like then.
  refine Machine.reachesBy_head trivial
    (work_dequeue L env _ k k ((List.range' (k + 1) clients).map Task.user)
      (List.replicate k (freshTask ν .started)) (List.replicate clients (freshTask ν .queued))
      rfl hworker rfl rfl rfl List.length_replicate) ?_
  convert Machine.ReachesBy.refl using 1
  have hhandling : Function.update (fun _ : Nat => Accepting.TaskPhase.handling) k .handling =
      fun _ => .handling := Function.update_eq_self k _
  have hworkers : (running ++ List.replicate (workers + 1) Worker.spawned).modify k
      (fun w => { w with position := .running (.user k) }) =
      (running ++ [{ position := .running (.user k), joinable := true }]) ++
        List.replicate workers Worker.spawned := by
    rw [List.replicate_succ, ← hlength, ListModify.modify_append, List.append_assoc]
    rfl
  have hstarted : List.replicate (k + 1) (freshTask ν .started) =
      List.replicate k (freshTask ν .started) ++ [freshTask ν .started] := List.replicate_succ'
  have hclients : k + 1 + clients = k + (clients + 1) := by omega
  simp only [begun, takenBy, ThreadPool.create, ThreadPool.Pool.setPosition, hrunning, hworkers,
    hhandling, hstarted, hclients, List.range_succ (n := k), List.map_append, List.map_cons,
    List.map_nil, List.append_assoc, List.singleton_append]

/-- So many workers take as many tasks. -/
theorem reaches_begun (L : Layout ν) (env : Nat → Environment) (pool : ConnectionPool.State)
    (k : Nat) : ∀ workers clients : Nat,
      (machine L env).Reaches (gathered ν pool (k + clients) (k + workers))
        (begun ν pool k workers clients) := by
  induction k with
  | zero =>
      intro workers clients
      have hsame : gathered ν pool (0 + clients) (0 + workers) =
          begun ν pool 0 workers clients := by
        simp only [gathered, begun, ThreadPool.create, Nat.zero_add, List.nil_append,
          List.replicate_zero, List.range_eq_range']
        rfl
      rw [hsame]
      exact Machine.reaches_refl _
  | succ k ih =>
      intro workers clients
      have hbefore := ih (workers + 1) (clients + 1)
      rw [Nat.add_right_comm k 1 clients, Nat.add_right_comm k 1 workers]
      exact Machine.reaches_trans hbefore (reaches_begun_succ L env pool k workers clients)

/-- From the start, any number of clients come to ask for a connection at once,
    with nothing lost. -/
theorem reaches_asking (L : Layout ν) (env : Nat → Environment) (pool : ConnectionPool.State)
    (m : Nat) :
    ∃ s, (machine L env).Reaches (initial ν pool) s ∧ s.serving.pool = pool ∧
      served s.serving = 0 ∧ wasted s.serving = 0 ∧ asking s.serving = m := by
  rcases reaches_gathered L env pool (m + 1) with ⟨workers, hample, hreach⟩
  -- There is a worker for each of the clients but the last.
  have henough : m + (workers - m) = workers := by
    have hle := hample.enough
    omega
  have hbegun := reaches_begun L env pool m (workers - m) 1
  rw [henough] at hbegun
  refine ⟨_, Machine.reaches_trans hreach hbegun, rfl, ?_, ?_, ?_⟩
  · simp [served, begun, freshTask, Serving.serves, List.countP_replicate]
  · simp [wasted, begun, freshTask, Serving.wastes, List.countP_replicate]
  · simp [asking, begun, freshTask, Serving.asks, Serving.hopes, List.countP_replicate]

end Whole

end EpollServer
