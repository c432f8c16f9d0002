import EpollServer.Core.Accepting
import EpollServer.Theory.ThreadPool.Drain

/-!
# A Thread for Every Connection

When the pool has a worker for every connection that is counted.

`handleNewConnection` sizes the pool before it queues the task, from the
length of the queue and the number of workers. Neither says how many workers
are in a `connectionHandler`, so a pool whose workers are all taken and whose
queue is empty looks idle, and the next connection is queued behind handlers
that do not end. The rule doubles the pool only when more tasks are queued than
there are workers.

`SizedFor` is the condition on the resize of the main thread: the pool has
enough workers already, or the rule doubles it and that is enough. Under it
the pool has enough workers whenever `handleNewConnection` returns
(`Provided`), because a pool never loses a worker and only the main thread
counts a connection. The condition is exact: a resize outside of it leaves too
few (`resized_enough_iff`).

That no task waits behind unending handlers is a matter of counting. Every
connection that is queued or has a handler is counted, so with a worker for
each there is one that has no handler.

## Main definitions

* `SizedFor`: The guard of the runs that keep enough workers.
* `State.occupied`: The workers in a `connectionHandler`.
* `Provided`: The invariant of these runs.
* `Adjusts`: What a piece of `adjustThreadPoolSize` can do.
* `Turn`: What a step can be.
* `Grown`: What every run keeps.

## Theorems

* `holds_of_move`: A worker comes by a task only by taking it from the queue.
* `adjust_cases`: What a piece of `adjustThreadPoolSize` does.
* `turn_of_step`: What a step can be.
* `step_provided`: Every guarded step keeps the invariant.
* `resized_enough_iff`: What the resize of the main thread leaves.
* `thread_for_connection`: A worker for every connection.
* `eleventh_connection_waits`: A run without the guard.
-/

namespace EpollServer

namespace ThreadPool

variable {α : Type}

/-! ### Tasks of workers -/

theorem holds_setPosition (s : Pool α) (i j : Nat) (p : Position α) (task : Task α)
    (h : (s.setPosition i p).holds j task) :
    (j ≠ i ∧ s.holds j task) ∨ (j = i ∧ p = .running task) := by
  rcases h with ⟨w, hw, hp⟩
  simp only [Pool.setPosition, List.getElem?_modify, Option.map_eq_map,
    Option.map_eq_some_iff] at hw
  rcases hw with ⟨v, hv, hvw⟩
  -- Only the position of worker `i` has changed.
  by_cases hij : i = j
  · rw [if_pos hij] at hvw
    rw [← hvw] at hp
    exact Or.inr ⟨hij.symm, hp⟩
  · rw [if_neg hij] at hvw
    rw [← hvw] at hp
    exact Or.inl ⟨fun hji => hij hji.symm, v, hv, hp⟩

/-- A change of the workers that leaves every task where it is. -/
theorem holds_map (s t : Pool α) (f : Worker α → Worker α)
    (hf : ∀ w, (f w).position.task? = w.position.task?) (ht : t.workers = s.workers.map f)
    (j : Nat) (task : Task α) (h : t.holds j task) : s.holds j task := by
  rcases h with ⟨w, hw, hp⟩
  rw [ht, List.getElem?_map, Option.map_eq_some_iff] at hw
  rcases hw with ⟨v, hv, rfl⟩
  have htask := (task?_eq_some_iff _ task).mpr hp
  rw [hf] at htask
  exact ⟨v, hv, (task?_eq_some_iff _ task).mp htask⟩

/-- A new worker runs nothing. -/
theorem holds_append (s t : Pool α) (n : Nat)
    (ht : t.workers = s.workers ++ List.replicate n Worker.spawned) (j : Nat) (task : Task α)
    (h : t.holds j task) : s.holds j task := by
  rcases h with ⟨w, hw, hp⟩
  rw [ht, List.getElem?_append] at hw
  split at hw
  · exact ⟨w, hw, hp⟩
  · rw [List.eq_of_mem_replicate (List.mem_of_getElem? hw)] at hp
    simp only [Worker.spawned, reduceCtorEq] at hp

/-- A worker comes by a task only by taking it from the queue. -/
theorem holds_of_move (s s' : Pool α) (a : Act α) (h : Move s a s') (j : Nat) (task : Task α)
    (hj : s'.holds j task) :
    s.holds j task ∨ (a = .work j ∧ s.tasks = task :: s'.tasks) := by
  -- A worker that is moved to a place without a task.
  have hidle : ∀ (t : Pool α) (i : Nat) (p : Position α), p.task? = none →
      (t.setPosition i p).holds j task → t.holds j task := by
    intro t i p hp ht
    rcases holds_setPosition t i j p task ht with ⟨_, hold⟩ | ⟨_, hrun⟩
    · exact hold
    · rw [hrun] at hp
      simp only [Position.task?, reduceCtorEq] at hp
  cases h with
  | dequeue i w first rest _ _ _ _ ht =>
      rcases holds_setPosition s i j (.running first) task hj with ⟨_, hold⟩ | ⟨hij, hrun⟩
      · exact Or.inl hold
      · rw [Position.running.injEq] at hrun
        refine Or.inr ⟨by rw [hij], ?_⟩
        rw [ht, hrun]
  | sleepCondition i | exit i | sleepPause i | sleepAgain i | unpause i | finish i | retire i
  | notifyOne i | wakeCondition i | wakePause i => exact Or.inl (hidle s i _ rfl hj)
  | retireLast i =>
      exact Or.inl (hidle s i .top rfl
        (holds_map (s.setPosition i .top) _ Worker.wakePause task?_wakePause rfl j task hj))
  | notifyResume => exact Or.inl (holds_map s _ Worker.wakePause task?_wakePause rfl j task hj)
  | notifyShutdown =>
      exact Or.inl (holds_map s _ Worker.wakeCondition task?_wakeCondition rfl j task hj)
  | grow self newSize => exact Or.inl (holds_append s _ _ rfl j task hj)
  | join k next =>
      -- The worker is marked as joined, and is where it was.
      rcases hj with ⟨w, hw, hp⟩
      simp only [List.getElem?_modify, Option.map_eq_map, Option.map_eq_some_iff] at hw
      rcases hw with ⟨v, hv, rfl⟩
      refine Or.inl ⟨v, hv, ?_⟩
      by_cases hnext : next = j
      · rw [if_pos hnext] at hp
        exact hp
      · rw [if_neg hnext] at hp
        exact hp
  | _ => exact Or.inl hj

/-- Without a call, nothing is added to the queue. -/
theorem tasks_of_move (s s' : Pool α) (a : Act α) (ha : ∀ self op, a ≠ .call self op)
    (h : Move s a s') : s'.tasks.length ≤ s.tasks.length := by
  cases h with
  | dequeue _ w task rest _ _ _ _ ht =>
      simp only [ht, List.length_cons]
      exact Nat.le_succ _
  | enqueue self body => exact absurd rfl (ha self _)
  | _ => exact Nat.le_refl _

end ThreadPool

namespace Accepting

open ThreadPool (Thread Task Position Pool PoolM Fault Worker Move Adjust call adjustedSize
  adjustThreadPoolSize)

/-- The workers in a `connectionHandler`. -/
def State.occupied (s : State) : Finset Nat :=
  (Finset.range s.pool.workers.length).filter fun i => s.handles i = true

/-- The connection that is counted and whose task is not yet queued. -/
def MainPhase.pending : MainPhase → Nat
  | .waiting => 0
  | .adding _ _ => 1

/-- The pool is sized for the connections that are counted. -/
def MainPhase.sized : MainPhase → Bool
  | .waiting => true
  | .adding _ p => decide (p = .returned)

/-- The invariant: every connection that is queued or handled is counted, and
    there is a worker for each when the main thread has sized the pool. -/
structure Provided (s : State) : Prop where
  counted : s.pool.tasks.length + s.occupied.card + s.main.pending ≤ s.activeConnections
  enough : s.main.sized = true → s.activeConnections ≤ s.pool.workers.length

/-- There are enough workers, or the pool is to be doubled and that is enough. -/
def State.SizedBy (s : State) (queueSize currentSize : Nat) : Prop :=
  s.activeConnections ≤ s.pool.workers.length ∨
    (currentSize < queueSize ∧ s.activeConnections ≤ 2 * currentSize)

/-- A resize of the main thread leaves enough workers. -/
def SizedFor (s : State) (a : Act) : Prop :=
  a = .proceed → ∀ connection queueSize currentSize,
    s.main = .adding connection (.sizesRead queueSize currentSize) →
      s.SizedBy queueSize currentSize

instance (s : State) (queueSize currentSize : Nat) :
    Decidable (s.SizedBy queueSize currentSize) := inferInstanceAs (Decidable (_ ∨ _))

/-- `SizedFor` as a check. -/
def sizedFor (s : State) : Act → Bool
  | .proceed => match s.main with
    | .adding _ (.sizesRead queueSize currentSize) => decide (s.SizedBy queueSize currentSize)
    | _ => true
  | _ => true

theorem runs_eq_some_iff (s : State) (i connection : Nat) :
    s.runs i = some connection ↔ s.pool.holds i (.user connection) := by
  unfold State.runs ThreadPool.Pool.holds
  cases hw : s.pool.workers[i]? with
  | none => simp only [reduceCtorEq, false_and, exists_false]
  | some w =>
      simp only [Option.some.injEq, exists_eq_left']
      split
      · rename_i c hp
        rw [hp, Position.running.injEq, Task.user.injEq, Option.some.injEq]
      · rename_i hne
        refine iff_of_false (by simp only [reduceCtorEq, not_false_eq_true]) (fun hp => ?_)
        exact hne connection hp

theorem handles_iff (s : State) (i : Nat) :
    s.handles i = true ↔
      (∃ connection, s.pool.holds i (.user connection)) ∧ s.tasks i = .handling := by
  unfold State.handles
  rw [Bool.and_eq_true, Option.isSome_iff_exists, decide_eq_true_eq]
  simp only [runs_eq_some_iff]

theorem mem_occupied_iff (s : State) (i : Nat) : i ∈ s.occupied ↔ s.handles i = true := by
  unfold State.occupied
  rw [Finset.mem_filter, Finset.mem_range]
  refine ⟨fun h => h.2, fun h => ⟨?_, h⟩⟩
  rcases ((handles_iff s i).mp h).1 with ⟨_, w, hw, _⟩
  exact (List.getElem?_eq_some_iff.mp hw).1

/-! ### Calls of the pool -/

/-- What a piece of `adjustThreadPoolSize` can do. A resize that goes through
    does not ask for fewer workers. -/
inductive Adjusts (p : Pool Nat) : Adjust → Adjust → Pool Nat → Prop where
  | stuck (a : Adjust) (p' : Pool Nat) :
      p'.workers = p.workers → p'.tasks = p.tasks → Adjusts p a .stuck p'
  | getQueueSize : Adjusts p .called (.queueRead p.tasks.length) p
  | getSize (queueSize : Nat) :
      Adjusts p (.queueRead queueSize) (.sizesRead queueSize p.workers.length) p
  | resize (queueSize currentSize : Nat) :
      p.workers.length ≤ adjustedSize queueSize currentSize →
      Adjusts p (.sizesRead queueSize currentSize) .returned
        { p with
          workers := p.workers ++ List.replicate
            (adjustedSize queueSize currentSize - p.workers.length) Worker.spawned }

/-- A call of a thread that does not own the mutex finds it free. A thread that
    owns it is stuck. -/
theorem call_lock {β : Type} (self : Thread) {f : PoolM Nat β} {p p' : Pool Nat}
    {result : Option β}
    (h : call (ThreadPool.lockQueueMutex self >>= fun _ => f) p = some (result, p')) :
    (result = none ∧ p'.workers = p.workers ∧ p'.tasks = p.tasks) ∨ p.queueMutex = none := by
  cases hm : p.queueMutex with
  | none => exact Or.inr rfl
  | some o =>
      refine Or.inl ?_
      simp only [call, bind, EStateM.bind, ThreadPool.lockQueueMutex, hm] at h
      -- The owner itself never gets it; another thread waits, which is no step.
      by_cases ho : o = self
      · rw [if_pos ho] at h
        simp only [Option.some.injEq, Prod.mk.injEq] at h
        exact ⟨h.1.symm, by rw [← h.2], by rw [← h.2]⟩
      · rw [if_neg ho] at h
        simp only [reduceCtorEq] at h

theorem adjust_cases (self : Thread) (p p' : Pool Nat) (a a' : Adjust)
    (h : adjustThreadPoolSize self p a = some (a', p')) : Adjusts p a a' p' := by
  cases a with
  -- Both reads take the mutex and give it back in one step; only `resize` may keep it.
  | called =>
      simp only [adjustThreadPoolSize, Option.map_eq_some_iff, Prod.exists, Prod.mk.injEq] at h
      rcases h with ⟨result, q, hcall, rfl, rfl⟩
      rcases call_lock self hcall with ⟨rfl, hw, ht⟩ | hfree
      · exact Adjusts.stuck _ _ hw ht
      · simp only [call, ThreadPool.getQueueSize_free self p hfree, Option.some.injEq,
          Prod.mk.injEq] at hcall
        rw [← hcall.1, ← hcall.2]
        exact Adjusts.getQueueSize
  | queueRead queueSize =>
      simp only [adjustThreadPoolSize, Option.map_eq_some_iff, Prod.exists, Prod.mk.injEq] at h
      rcases h with ⟨result, q, hcall, rfl, rfl⟩
      rcases call_lock self hcall with ⟨rfl, hw, ht⟩ | hfree
      · exact Adjusts.stuck _ _ hw ht
      · simp only [call, ThreadPool.getSize_free self p hfree, Option.some.injEq,
          Prod.mk.injEq] at hcall
        rw [← hcall.1, ← hcall.2]
        exact Adjusts.getSize queueSize
  | sizesRead queueSize currentSize =>
      simp only [adjustThreadPoolSize, Option.map_eq_some_iff, Prod.exists, Prod.mk.injEq] at h
      rcases h with ⟨result, q, hcall, rfl, rfl⟩
      rcases call_lock self hcall with ⟨rfl, hw, ht⟩ | hfree
      · exact Adjusts.stuck _ _ hw ht
      · simp only [call, ThreadPool.resize_free self _ p hfree] at hcall
        -- What `resize` does depends on the workers there are now, not on the size that was read.
        by_cases hgrow : p.workers.length < adjustedSize queueSize currentSize
        · simp only [if_pos hgrow, Option.some.injEq, Prod.mk.injEq] at hcall
          rw [← hcall.1, ← hcall.2]
          exact Adjusts.resize queueSize currentSize hgrow.le
        · by_cases hshrink : adjustedSize queueSize currentSize < p.workers.length
          · -- It calls `enqueue` with the mutex.
            simp only [if_neg hgrow, if_pos hshrink, Option.some.injEq, Prod.mk.injEq] at hcall
            rw [← hcall.1, ← hcall.2]
            exact Adjusts.stuck _ _ rfl rfl
          · -- The size is the one there is.
            simp only [if_neg hgrow, if_neg hshrink, Option.some.injEq, Prod.mk.injEq] at hcall
            rw [← hcall.1, ← hcall.2]
            have hmove := Adjusts.resize queueSize currentSize (p := p) (Nat.le_of_not_lt hshrink)
            rw [Nat.sub_eq_zero_of_le (Nat.le_of_not_lt hgrow), List.replicate_zero,
              List.append_nil] at hmove
            exact hmove
  | returned => simp only [adjustThreadPoolSize, reduceCtorEq] at h
  | stuck => simp only [adjustThreadPoolSize, reduceCtorEq] at h

/-- Queueing a task changes no worker. -/
theorem enqueue_cases (connection : Nat) (p p' : Pool Nat) (result : Option Bool)
    (h : call (ThreadPool.enqueue (.caller 0) (.user connection)) p = some (result, p')) :
    p'.workers = p.workers ∧ ((result = none ∧ p'.tasks = p.tasks) ∨
      (result.isSome = true ∧ p'.tasks.length ≤ p.tasks.length + 1)) := by
  rcases call_lock (.caller 0) h with ⟨hnone, hw, ht⟩ | hfree
  · exact ⟨hw, Or.inl ⟨hnone, ht⟩⟩
  · -- With the mutex free it is refused when `stop` is set, and queued otherwise.
    simp only [call, ThreadPool.enqueue_free _ _ p hfree] at h
    by_cases hstop : p.stop = true
    · simp only [if_pos hstop, Option.some.injEq, Prod.mk.injEq] at h
      rw [← h.1, ← h.2]
      exact ⟨rfl, Or.inr ⟨rfl, Nat.le_succ _⟩⟩
    · simp only [if_neg hstop, Option.some.injEq, Prod.mk.injEq] at h
      rw [← h.1, ← h.2]
      refine ⟨rfl, Or.inr ⟨rfl, ?_⟩⟩
      rw [List.length_append]
      exact Nat.le_refl _

/-- A piece of `adjustThreadPoolSize` leaves the queue, the tasks of the
    workers, and the workers there are. -/
theorem frame_of_adjusts (p p' : Pool Nat) (a a' : Adjust) (h : Adjusts p a a' p') :
    p'.tasks = p.tasks ∧ p.workers.length ≤ p'.workers.length ∧
      ∀ j task, p'.holds j task → p.holds j task := by
  -- Only a growing `resize` changes the workers, and its new ones hold nothing.
  cases h with
  | stuck _ _ hw ht =>
      refine ⟨ht, by rw [hw], fun j task hj => ?_⟩
      unfold ThreadPool.Pool.holds at hj ⊢
      rw [← hw]
      exact hj
  | getQueueSize | getSize => exact ⟨rfl, Nat.le_refl _, fun _ _ hj => hj⟩
  | resize queueSize currentSize =>
      refine ⟨rfl, ?_, ThreadPool.holds_append p _ _ rfl⟩
      rw [List.length_append]
      exact Nat.le_add_right _ _

/-! ### Steps -/

/-- What a step can be. -/
inductive Turn (s : State) : Act → State → Prop where
  | close (connection : Nat) : Turn s (.accept connection false) s
  | accept (connection : Nat) (hmain : s.main = .waiting) :
      Turn s (.accept connection true)
        { s with activeConnections := s.activeConnections + 1, main := .adding connection .called }
  | enqueue (connection : Nat) (result : Option Bool) (p' : Pool Nat)
      (hmain : s.main = .adding connection .returned) (hw : p'.workers = s.pool.workers)
      (hresult : (result = none ∧ p'.tasks = s.pool.tasks) ∨
        (result.isSome = true ∧ p'.tasks.length ≤ s.pool.tasks.length + 1)) :
      Turn s .proceed { s with main := MainPhase.queued connection result, pool := p' }
  | adjust (connection : Nat) (p p' : Adjust) (pool' : Pool Nat)
      (hmain : s.main = .adding connection p) (h : Adjusts s.pool p p' pool') :
      Turn s .proceed { s with main := .adding connection p', pool := pool' }
  | leave (i : Nat) (hi : s.handles i = true) :
      Turn s (.leave i)
        { s with activeConnections := s.activeConnections - 1,
                 tasks := Function.update s.tasks i (.leaving .called) }
  | fail (i : Nat) (hi : s.handles i = true) :
      Turn s (.fail i) { s with tasks := Function.update s.tasks i .failed }
  | adjustTask (i : Nat) (p p' : Adjust) (pool' : Pool Nat) (h : Adjusts s.pool p p' pool') :
      Turn s (.proceedTask i)
        { s with tasks := Function.update s.tasks i (.leaving p'), pool := pool' }
  | work (i : Nat) (p' : Pool Nat) (h : ThreadPool.work i s.pool = some p') :
      Turn s (.work i) { s with pool := p', tasks := Function.update s.tasks i .handling }
  /-- A step of the pool that takes no task from the queue. -/
  | pool (a : Act) (b : ThreadPool.Act Nat) (p' : Pool Nat) (h : Move s.pool b p')
      (hcall : ∀ self op, b ≠ .call self op) (hwork : ∀ i, b ≠ .work i) :
      Turn s a { s with pool := p' }

/-- The two ways on in `handleNewConnection`. -/
theorem turn_of_proceed {s t : State} (h : proceed s = some t) : Turn s .proceed t := by
  unfold proceed at h
  split at h
  · simp only [reduceCtorEq] at h
  · rename_i connection hmain
    simp only [Option.map_eq_some_iff, Prod.exists] at h
    rcases h with ⟨result, p', hcall, rfl⟩
    rcases enqueue_cases connection s.pool p' result hcall with ⟨hw, hresult⟩
    exact .enqueue connection result p' hmain hw hresult
  · rename_i connection p _ hmain
    simp only [Option.map_eq_some_iff, Prod.exists] at h
    rcases h with ⟨p', pool', hadjust, rfl⟩
    exact .adjust connection p p' pool' hmain (adjust_cases _ _ _ _ _ hadjust)

theorem turn_of_step {s t : State} {a : Act} (h : step s a = some t) : Turn s a t := by
  cases a with
  -- One kind of step for each place the main thread or a task can be in.
  | accept connection registered =>
      simp only [step, accept] at h
      cases hmain : s.main with
      | adding => simp only [hmain, reduceCtorEq] at h
      | waiting =>
          cases registered with
          | true =>
              simp only [hmain, if_true, Option.some.injEq] at h
              rw [← h]
              exact .accept connection hmain
          | false =>
              simp only [hmain, Bool.false_eq_true, if_false, Option.some.injEq] at h
              rw [← h]
              exact .close connection
  | proceed => exact turn_of_proceed h
  | leave i =>
      simp only [step, leave] at h
      -- Only a task that is being handled leaves or fails.
      split at h
      · rw [Option.some.injEq] at h
        exact h ▸ .leave i ‹_›
      · simp only [reduceCtorEq] at h
  | fail i =>
      simp only [step, fail] at h
      split at h
      · rw [Option.some.injEq] at h
        exact h ▸ .fail i ‹_›
      · simp only [reduceCtorEq] at h
  | proceedTask i =>
      simp only [step, proceedTask] at h
      split at h
      · simp only [Option.map_eq_some_iff, Prod.exists] at h
        rcases h with ⟨p', pool', hadjust, rfl⟩
        exact .adjustTask i _ p' pool' (adjust_cases _ _ _ _ _ hadjust)
      · simp only [reduceCtorEq] at h
  | work i =>
      simp only [step, work] at h
      split at h
      · rw [Option.map_eq_some_iff] at h
        rcases h with ⟨p', hp', rfl⟩
        exact .work i p' hp'
      · simp only [reduceCtorEq] at h
  | notifyOne i =>
      simp only [step, Option.map_eq_some_iff] at h
      rcases h with ⟨p', hp', rfl⟩
      exact .pool _ (.notifyOne i) p' (ThreadPool.move_of_notifyOne i _ _ hp') nofun nofun
  | wake i =>
      simp only [step, Option.map_eq_some_iff] at h
      rcases h with ⟨p', hp', rfl⟩
      exact .pool _ (.wake i) p' (ThreadPool.move_of_step s.pool p' (.wake i) hp') nofun nofun

/-! ### Workers in a handler -/

theorem occupied_le (s t : State) (h : ∀ j, t.handles j = true → s.handles j = true) :
    t.occupied.card ≤ s.occupied.card :=
  Finset.card_le_card (fun j hj => (mem_occupied_iff s j).mpr (h j ((mem_occupied_iff t j).mp hj)))

/-- One worker more. -/
theorem occupied_succ (s t : State) (i : Nat)
    (h : ∀ j, t.handles j = true → j = i ∨ s.handles j = true) :
    t.occupied.card ≤ s.occupied.card + 1 := by
  have hsub : t.occupied ⊆ insert i s.occupied := by
    intro j hj
    rcases h j ((mem_occupied_iff t j).mp hj) with rfl | hs
    · exact Finset.mem_insert_self _ _
    · exact Finset.mem_insert_of_mem ((mem_occupied_iff s j).mpr hs)
  exact Nat.le_trans (Finset.card_le_card hsub) (Finset.card_insert_le _ _)

/-- One worker less. -/
theorem occupied_erase (s t : State) (i : Nat) (hi : s.handles i = true)
    (h : ∀ j, t.handles j = true → j ≠ i ∧ s.handles j = true) :
    t.occupied.card + 1 ≤ s.occupied.card := by
  have hmem := (mem_occupied_iff s i).mpr hi
  have hsub : t.occupied ⊆ s.occupied.erase i := by
    intro j hj
    rcases h j ((mem_occupied_iff t j).mp hj) with ⟨hne, hs⟩
    exact Finset.mem_erase.mpr ⟨hne, (mem_occupied_iff s j).mpr hs⟩
  have hcard := Finset.card_le_card hsub
  rw [Finset.card_erase_of_mem hmem] at hcard
  have hpos := Finset.card_pos.mpr ⟨i, hmem⟩
  omega

/-- A worker that is in a handler was in it before. -/
theorem handles_of_frame (s t : State) (j : Nat)
    (hholds : ∀ task, t.pool.holds j task → s.pool.holds j task) (htasks : t.tasks j = s.tasks j)
    (h : t.handles j = true) : s.handles j = true := by
  rcases (handles_iff t j).mp h with ⟨⟨c, hc⟩, hphase⟩
  exact (handles_iff s j).mpr ⟨⟨c, hholds _ hc⟩, htasks ▸ hphase⟩

theorem accept_provided (s : State) (connection : Nat) (hs : Provided s)
    (hmain : s.main = .waiting) :
    Provided { s with
      activeConnections := s.activeConnections + 1, main := .adding connection .called } := by
  have hcounted := hs.counted
  rw [hmain] at hcounted
  refine ⟨Nat.add_le_add_right hcounted 1, fun hsized => ?_⟩
  simp only [MainPhase.sized, reduceCtorEq, decide_false, Bool.false_eq_true] at hsized

/-- A queue longer than the pool doubles the pool. -/
theorem adjustedSize_double (queueSize currentSize : Nat) (hq : currentSize < queueSize) :
    adjustedSize queueSize currentSize = 2 * currentSize := by
  rcases ThreadPool.adjustedSize_cases queueSize currentSize with ⟨_, heq⟩ | ⟨hshort, _⟩ | ⟨hle, _⟩
  · exact heq
  · omega
  · omega

/-- The main thread in `adjustThreadPoolSize`. Only the resize counts. -/
theorem proceed_adjust_provided (s : State) (connection : Nat) (p p' : Adjust) (pool' : Pool Nat)
    (hs : Provided s) (ha : SizedFor s .proceed) (hmain : s.main = .adding connection p)
    (h : Adjusts s.pool p p' pool') :
    Provided { s with main := .adding connection p', pool := pool' } := by
  rcases frame_of_adjusts s.pool pool' p p' h with ⟨htasks, _, hholds⟩
  have hcounted := hs.counted
  rw [hmain] at hcounted
  -- The adjustment moves no task, so what is counted stays counted.
  constructor
  · have hocc := occupied_le s { s with main := .adding connection p', pool := pool' }
      (fun j => handles_of_frame s _ j (hholds j) rfl)
    simp only [htasks]
    exact Nat.le_trans (Nat.add_le_add_right (Nat.add_le_add_left hocc _) _) hcounted
  · intro hsized
    cases h with
    | stuck | getQueueSize | getSize =>
        simp only [MainPhase.sized, reduceCtorEq, decide_false, Bool.false_eq_true] at hsized
    | resize queueSize currentSize hle =>
        rw [List.length_append, List.length_replicate]
        rcases ha rfl connection queueSize currentSize hmain with henough | ⟨hlt, hdouble⟩
        · exact Nat.le_trans henough (Nat.le_add_right _ _)
        · -- The queue is longer than the pool, so the pool is doubled.
          rw [adjustedSize_double queueSize currentSize hlt] at hle ⊢
          rw [Nat.add_sub_cancel' hle]
          exact hdouble

/-- The main thread queues the task, and the connection is no longer pending. -/
theorem proceed_enqueue_provided (s : State) (connection : Nat) (result : Option Bool)
    (p' : Pool Nat) (hs : Provided s) (hmain : s.main = .adding connection .returned)
    (hw : p'.workers = s.pool.workers)
    (hresult : (result = none ∧ p'.tasks = s.pool.tasks) ∨
      (result.isSome = true ∧ p'.tasks.length ≤ s.pool.tasks.length + 1)) :
    Provided { s with main := MainPhase.queued connection result, pool := p' } := by
  have hcounted := hs.counted
  have henough := hs.enough (by rw [hmain]; rfl)
  rw [hmain] at hcounted
  -- No worker has moved.
  have hholds : ∀ (j : Nat) (task : ThreadPool.Task Nat), p'.holds j task →
      s.pool.holds j task := by
    unfold ThreadPool.Pool.holds
    rw [hw]
    exact fun _ _ hj => hj
  rcases hresult with ⟨rfl, htasks⟩ | ⟨hsome, htasks⟩
  · have hocc := occupied_le s { s with main := .adding connection .stuck, pool := p' }
      (fun j => handles_of_frame s _ j (hholds j) rfl)
    refine ⟨?_, fun hsized => ?_⟩
    · simp only [htasks]
      exact Nat.le_trans (Nat.add_le_add_right (Nat.add_le_add_left hocc _) _) hcounted
    · exact absurd hsized Bool.false_ne_true
  · rcases Option.isSome_iff_exists.mp hsome with ⟨b, rfl⟩
    have hocc := occupied_le s { s with main := .waiting, pool := p' }
      (fun j => handles_of_frame s _ j (hholds j) rfl)
    refine ⟨?_, fun _ => by simp only [hw]; exact henough⟩
    simp only [MainPhase.pending, MainPhase.queued] at hcounted ⊢
    omega

/-- A task that leaves its handler. -/
theorem occupied_update (s : State) (i : Nat) (phase : TaskPhase) (hi : s.handles i = true)
    (hphase : phase ≠ .handling) :
    { s with tasks := Function.update s.tasks i phase : State }.occupied.card + 1 ≤
      s.occupied.card := by
  refine occupied_erase s { s with tasks := Function.update s.tasks i phase } i hi fun j hj => ?_
  have hhandling := ((handles_iff _ j).mp hj).2
  by_cases hij : j = i
  · rw [hij] at hhandling
    exact absurd ((Function.update_self i phase s.tasks).symm.trans hhandling) hphase
  · exact ⟨hij, handles_of_frame s { s with tasks := Function.update s.tasks i phase } j
      (fun _ hh => hh) (Function.update_of_ne hij _ _) hj⟩

theorem leave_provided (s : State) (i : Nat) (hs : Provided s) (hi : s.handles i = true) :
    Provided { s with
      activeConnections := s.activeConnections - 1,
      tasks := Function.update s.tasks i (.leaving .called) } := by
  have hocc : { s with
      activeConnections := s.activeConnections - 1,
      tasks := Function.update s.tasks i (.leaving .called) : State }.occupied.card + 1 ≤
        s.occupied.card :=
    occupied_update s i (.leaving .called) hi (by simp only [ne_eq, reduceCtorEq,
      not_false_eq_true])
  -- One handler less is one connection less.
  have hcounted := hs.counted
  refine ⟨?_, fun hsized => Nat.le_trans (Nat.sub_le _ _) (hs.enough hsized)⟩
  show s.pool.tasks.length + _ + s.main.pending ≤ s.activeConnections - 1
  omega

theorem fail_provided (s : State) (i : Nat) (hs : Provided s) (hi : s.handles i = true) :
    Provided { s with tasks := Function.update s.tasks i .failed } := by
  have hocc := occupied_update s i .failed hi (by simp only [ne_eq, reduceCtorEq,
    not_false_eq_true])
  have hcounted := hs.counted
  refine ⟨?_, hs.enough⟩
  show s.pool.tasks.length + _ + s.main.pending ≤ s.activeConnections
  omega

theorem adjustTask_provided (s : State) (i : Nat) (p p' : Adjust) (pool' : Pool Nat)
    (hs : Provided s) (h : Adjusts s.pool p p' pool') :
    Provided { s with tasks := Function.update s.tasks i (.leaving p'), pool := pool' } := by
  rcases frame_of_adjusts s.pool pool' p p' h with ⟨htasks, hlen, hholds⟩
  have hcounted := hs.counted
  -- Who handles a client goes on with it; worker `i` does not handle one.
  have hocc := occupied_le s
    { s with tasks := Function.update s.tasks i (.leaving p'), pool := pool' } (fun j hj => by
      rcases (handles_iff _ j).mp hj with ⟨⟨c, hc⟩, hhandling⟩
      by_cases hij : j = i
      · rw [hij] at hhandling
        simp only [Function.update_self, reduceCtorEq] at hhandling
      · exact handles_of_frame s _ j (hholds j) (Function.update_of_ne hij _ _) hj)
  refine ⟨?_, fun hsized => Nat.le_trans (hs.enough hsized) hlen⟩
  simp only [htasks]
  exact Nat.le_trans (Nat.add_le_add_right (Nat.add_le_add_left hocc _) _) hcounted

/-- A step of the pool that takes no task from the queue. -/
theorem pool_provided (s : State) (a : ThreadPool.Act Nat) (p' : Pool Nat) (hs : Provided s)
    (h : Move s.pool a p') (hcall : ∀ self op, a ≠ .call self op)
    (hwork : ∀ i, a ≠ .work i) : Provided { s with pool := p' } := by
  -- Nothing but a worker's own step takes a task, so nobody new is occupied.
  have hcounted := hs.counted
  have htasks := ThreadPool.tasks_of_move s.pool p' a hcall h
  have hocc := occupied_le s { s with pool := p' } (fun j =>
    handles_of_frame s _ j (fun task hj => by
      rcases ThreadPool.holds_of_move s.pool p' a h j task hj with hold | ⟨ha, _⟩
      · exact hold
      · exact absurd ha (hwork j)) rfl)
  refine ⟨?_, fun hsized =>
    Nat.le_trans (hs.enough hsized) (ThreadPool.length_of_move s.pool p' a h)⟩
  show p'.tasks.length + _ + s.main.pending ≤ s.activeConnections
  omega

/-- The task of a worker is over: the worker holds nothing after this step. -/
theorem work_finish_provided (s : State) (i connection : Nat) (p' : Pool Nat) (hs : Provided s)
    (hrun : s.runs i = some connection) (h : ThreadPool.work i s.pool = some p') :
    Provided { s with pool := p', tasks := Function.update s.tasks i .handling } := by
  rcases (runs_eq_some_iff s i connection).mp hrun with ⟨w, hw, hp⟩
  simp only [ThreadPool.work, hw, hp, Option.some.injEq] at h
  have hcounted := hs.counted
  -- The task was over, so neither the queue nor the workers change.
  have hlen : p'.workers.length = s.pool.workers.length := by
    rw [← h]
    exact List.length_modify _ _ _
  have htasks : p'.tasks = s.pool.tasks := by
    rw [← h]
    rfl
  have hholds : ∀ (j : Nat) (task : ThreadPool.Task Nat), p'.holds j task →
      j ≠ i ∧ s.pool.holds j task := by
    intro j task hj
    rw [← h] at hj
    rcases ThreadPool.holds_setPosition s.pool i j .finished task hj with hother | ⟨_, hfin⟩
    · exact hother
    · simp only [reduceCtorEq] at hfin
  have hocc := occupied_le s
    { s with pool := p', tasks := Function.update s.tasks i .handling } (fun j hj => by
      rcases (handles_iff _ j).mp hj with ⟨⟨c, hc⟩, _⟩
      exact handles_of_frame s _ j (fun task hh => (hholds j task hh).2)
        (Function.update_of_ne (hholds j _ hc).1 _ _) hj)
  refine ⟨?_, fun hsized => ?_⟩
  · show p'.tasks.length + _ + s.main.pending ≤ s.activeConnections
    rw [htasks]
    omega
  · show s.activeConnections ≤ p'.workers.length
    rw [hlen]
    exact hs.enough hsized

/-- A worker without a task goes on, and may take one. -/
theorem work_idle_provided (s : State) (i : Nat) (p' : Pool Nat) (hs : Provided s)
    (hidle : s.runs i = none) (h : ThreadPool.work i s.pool = some p') :
    Provided { s with pool := p', tasks := Function.update s.tasks i .handling } := by
  have hmove := ThreadPool.move_of_work i s.pool p' h
  have hcounted := hs.counted
  have hnone : ∀ c, ¬ s.pool.holds i (.user c) := by
    intro c hc
    rw [(runs_eq_some_iff s i c).mpr hc] at hidle
    simp only [reduceCtorEq] at hidle
  -- The only new holder is worker `i`, and what it holds was in front of the queue.
  have hother : ∀ j, j ≠ i → ∀ task, p'.holds j task → s.pool.holds j task := by
    intro j hij task hj
    rcases ThreadPool.holds_of_move s.pool p' _ hmove j task hj with hold | ⟨ha, _⟩
    · exact hold
    · exact absurd (ThreadPool.Act.work.inj ha).symm hij
  refine ⟨?_, fun hsized =>
    Nat.le_trans (hs.enough hsized) (ThreadPool.length_of_move s.pool p' _ hmove)⟩
  by_cases hfront : ∃ c, s.pool.tasks = .user c :: p'.tasks
  · -- The connection goes from the queue to its handler.
    rcases hfront with ⟨c, hc⟩
    have hocc := occupied_succ s
      { s with pool := p', tasks := Function.update s.tasks i .handling } i (fun j hj => by
        by_cases hij : j = i
        · exact Or.inl hij
        · exact Or.inr (handles_of_frame s _ j (hother j hij) (Function.update_of_ne hij _ _) hj))
    rw [hc, List.length_cons] at hcounted
    show p'.tasks.length + _ + s.main.pending ≤ s.activeConnections
    omega
  · -- No connection leaves the queue, so nobody new is occupied.
    have hocc := occupied_le s
      { s with pool := p', tasks := Function.update s.tasks i .handling } (fun j hj => by
        rcases (handles_iff _ j).mp hj with ⟨⟨c, hc⟩, _⟩
        rcases ThreadPool.holds_of_move s.pool p' _ hmove j _ hc with hold | ⟨_, ht⟩
        · have hij : j ≠ i := fun hij => hnone c (hij ▸ hold)
          exact handles_of_frame s _ j (hother j hij) (Function.update_of_ne hij _ _) hj
        · exact absurd ⟨c, ht⟩ hfront)
    have htasks := ThreadPool.tasks_of_move s.pool p' _
      (fun _ _ => by simp only [ne_eq, reduceCtorEq, not_false_eq_true]) hmove
    show p'.tasks.length + _ + s.main.pending ≤ s.activeConnections
    omega

/-- Every guarded step keeps the invariant. -/
theorem step_provided (s t : State) (a : Act) (hs : Provided s) (ha : SizedFor s a)
    (h : step s a = some t) : Provided t := by
  cases turn_of_step h with
  | close connection => exact hs
  | accept connection hmain => exact accept_provided s connection hs hmain
  | enqueue connection result p' hmain hw hresult =>
      exact proceed_enqueue_provided s connection result p' hs hmain hw hresult
  | adjust connection p p' pool' hmain hadjust =>
      exact proceed_adjust_provided s connection p p' pool' hs ha hmain hadjust
  | leave i hi => exact leave_provided s i hs hi
  | fail i hi => exact fail_provided s i hs hi
  | adjustTask i p p' pool' hadjust => exact adjustTask_provided s i p p' pool' hs hadjust
  | work i p' hwork =>
      cases hrun : s.runs i with
      | none => exact work_idle_provided s i p' hs hrun hwork
      | some connection => exact work_finish_provided s i connection p' hs hrun hwork
  | pool _ b p' hmove hcall hwork => exact pool_provided s b p' hs hmove hcall hwork

theorem initial_provided : Provided initial := by
  have hnone : initial.occupied.card = 0 := by
    refine Finset.card_eq_zero.mpr (Finset.eq_empty_of_forall_notMem (fun i hi => ?_))
    rcases ((handles_iff _ i).mp ((mem_occupied_iff _ i).mp hi)).1 with ⟨c, w, hw, hp⟩
    rw [List.eq_of_mem_replicate (List.mem_of_getElem? hw)] at hp
    simp only [Worker.spawned, reduceCtorEq] at hp
  refine ⟨?_, fun _ => Nat.zero_le _⟩
  rw [hnone]
  exact Nat.le_refl 0

theorem reachesBy_provided (s : State) (h : machine.ReachesBy SizedFor initial s) : Provided s :=
  Machine.invariant h initial_provided
    (fun t a u ht ha hstep => step_provided t u a ht ha hstep)

/-- The pool keeps its ten workers, and the ones the main thread has counted. -/
structure Grown (s : State) : Prop where
  ten : 10 ≤ s.pool.workers.length
  counted : ∀ connection queueSize currentSize,
    s.main = .adding connection (.sizesRead queueSize currentSize) →
      currentSize ≤ s.pool.workers.length

theorem grown_of_length (s t : State) (hs : Grown s)
    (hlen : s.pool.workers.length ≤ t.pool.workers.length) (hmain : t.main = s.main) : Grown t :=
  ⟨Nat.le_trans hs.ten hlen, fun connection queueSize currentSize hm =>
    Nat.le_trans (hs.counted connection queueSize currentSize (hmain ▸ hm)) hlen⟩

theorem step_grown (s t : State) (a : Act) (hs : Grown s) (h : step s a = some t) : Grown t := by
  cases turn_of_step h with
  | close connection => exact hs
  | accept connection =>
      refine ⟨hs.ten, fun c q k hm => ?_⟩
      simp only [MainPhase.adding.injEq, reduceCtorEq, and_false] at hm
  | enqueue connection result p' hmain hw =>
      refine ⟨by rw [hw]; exact hs.ten, fun c q k hm => ?_⟩
      -- After `enqueue` the thread is not in `adjustThreadPoolSize`.
      cases result <;> simp only [MainPhase.queued, reduceCtorEq, MainPhase.adding.injEq,
        and_false] at hm
  | adjust connection p p' pool' hmain hadjust =>
      refine ⟨Nat.le_trans hs.ten (frame_of_adjusts _ _ _ _ hadjust).2.1, fun c q k hm => ?_⟩
      rw [MainPhase.adding.injEq] at hm
      cases hadjust with
      | getSize queueSize =>
          rw [Adjust.sizesRead.injEq] at hm
          rw [← hm.2.2]
      | stuck | getQueueSize | resize => exact absurd hm.2 (by simp only [reduceCtorEq,
          not_false_eq_true])
  | leave i => exact grown_of_length s _ hs (Nat.le_refl _) rfl
  | fail i => exact grown_of_length s _ hs (Nat.le_refl _) rfl
  | adjustTask i p p' pool' hadjust =>
      exact grown_of_length s _ hs (frame_of_adjusts _ _ _ _ hadjust).2.1 rfl
  | work i p' hwork =>
      exact grown_of_length s _ hs
        (ThreadPool.length_of_move s.pool p' _ (ThreadPool.move_of_work i s.pool p' hwork)) rfl
  | pool _ b p' hmove =>
      exact grown_of_length s _ hs (ThreadPool.length_of_move s.pool p' b hmove) rfl

theorem reaches_grown (s : State) (h : machine.Reaches initial s) : Grown s := by
  refine Machine.invariant h ⟨Nat.le_of_eq List.length_replicate.symm, fun c q k hm => ?_⟩
    (fun t a u ht _ hstep => step_grown t u a ht hstep)
  simp only [initial, reduceCtorEq] at hm

/-- A resize that does not double the pool asks for no worker it has not got. -/
theorem adjustedSize_le (queueSize currentSize n : Nat) (hq : ¬ currentSize < queueSize)
    (hn : 10 ≤ n) (hc : currentSize ≤ n) : adjustedSize queueSize currentSize ≤ n := by
  rcases ThreadPool.adjustedSize_cases queueSize currentSize with
    ⟨hlong, _⟩ | ⟨_, heq⟩ | ⟨_, _, heq⟩
  · exact absurd hlong hq
  · rw [heq]
    exact Nat.max_le.mpr ⟨Nat.le_trans (Nat.div_le_self _ _) hc, hn⟩
  · rw [heq]
    exact hc

/-- A resize of the main thread leaves a worker for every connection exactly if
    the guard holds where it is called. -/
theorem resized_enough_iff (s t : State) (connection queueSize currentSize : Nat)
    (h : machine.Reaches initial s)
    (hmain : s.main = .adding connection (.sizesRead queueSize currentSize))
    (hstep : step s .proceed = some t) (ht : t.main = .adding connection .returned) :
    t.activeConnections ≤ t.pool.workers.length ↔ s.SizedBy queueSize currentSize := by
  have hs := reaches_grown s h
  -- One step of this thread, but others may have resized since the sizes were read.
  have hcounted := hs.counted connection queueSize currentSize hmain
  simp only [step, proceed, hmain, Option.map_eq_some_iff, Prod.exists] at hstep
  rcases hstep with ⟨p', pool', hadjust, rfl⟩
  cases adjust_cases _ _ _ _ _ hadjust with
  | stuck => simp only [MainPhase.adding.injEq, reduceCtorEq, and_false] at ht
  | resize _ _ hle =>
      have hten := hs.ten
      simp only [List.length_append, List.length_replicate, Nat.add_sub_cancel' hle]
      unfold State.SizedBy
      -- Either the queue was longer than the pool and it is doubled, or the size read is kept.
      by_cases hq : currentSize < queueSize
      · rw [adjustedSize_double queueSize currentSize hq] at hle ⊢
        omega
      · have hsame := adjustedSize_le queueSize currentSize _ hq hten hcounted
        omega

/-- While every worker is in a handler and a connection is queued, more
    connections are counted than there are workers. -/
theorem lt_of_occupied (s : State) (hs : Provided s) (hqueued : s.pool.tasks ≠ [])
    (hall : ∀ i < s.pool.workers.length, s.handles i = true) :
    s.pool.workers.length < s.activeConnections := by
  have hfull : s.occupied = Finset.range s.pool.workers.length :=
    Finset.filter_true_of_mem (fun i hi => hall i (Finset.mem_range.mp hi))
  have hcounted := hs.counted
  rw [hfull, Finset.card_range] at hcounted
  have hpos := List.length_pos_iff.mpr hqueued
  omega

/-- Whenever `handleNewConnection` has returned, the pool has a worker for every
    connection, and no connection is queued while every worker is in a handler. -/
theorem thread_for_connection (s : State) (h : machine.ReachesBy SizedFor initial s)
    (hmain : s.main = .waiting) :
    s.activeConnections ≤ s.pool.workers.length ∧
      ¬ (s.pool.tasks ≠ [] ∧ ∀ i < s.pool.workers.length, s.handles i = true) := by
  have hs := reachesBy_provided s h
  have henough := hs.enough (by rw [hmain]; rfl)
  refine ⟨henough, fun ⟨hqueued, hall⟩ => ?_⟩
  exact absurd (lt_of_occupied s hs hqueued hall) (Nat.not_lt_of_le henough)

/-- A connection from `accept` to the handler that worker `i` starts. -/
def arrival (i : Nat) : List Act :=
  [.accept i true, .proceed, .proceed, .proceed, .proceed, .work i]

theorem sizedFor_sound (s : State) (a : Act) (h : sizedFor s a = true) : SizedFor s a := by
  rintro rfl connection queueSize currentSize hmain
  simp only [sizedFor, hmain, decide_eq_true_eq] at h
  exact h

/-- One connection, in the handler of the first worker. -/
theorem thread_for_connection_one : ∃ s, machine.ReachesBy SizedFor initial s ∧
    s.main = .waiting ∧ s.handles 0 = true ∧ s.activeConnections ≤ s.pool.workers.length := by
  have hrun : (machine.executeBy sizedFor initial (arrival 0)).map (fun s =>
      decide (s.main = .waiting ∧ s.handles 0 = true)) = some true := by decide +kernel
  rcases Machine.reachesBy_of_check sizedFor sizedFor_sound (arrival 0) _ hrun with ⟨s, hs, hcheck⟩
  rcases of_decide_eq_true hcheck with ⟨hmain, hhandles⟩
  exact ⟨s, hs, hmain, hhandles, (thread_for_connection s hs hmain).1⟩

/-- Ten connections with their handlers, and an eleventh. -/
def elevenArrivals : List Act :=
  (List.range 10).flatMap arrival ++ [.accept 10 true, .proceed, .proceed, .proceed, .proceed]

/-- Eleven connections: `handleNewConnection` has returned, the pool has ten
    workers, and the eleventh connection is queued while every worker is in a
    handler. -/
theorem eleventh_connection_waits : ∃ s, machine.Reaches initial s ∧ s.main = .waiting ∧
    s.activeConnections = 11 ∧ s.pool.workers.length = 10 ∧ s.pool.tasks = [.user 10] ∧
    ∀ i < s.pool.workers.length, s.handles i = true := by
  have hrun : (machine.execute initial elevenArrivals).map (fun s =>
      decide (s.main = .waiting ∧ s.activeConnections = 11 ∧ s.pool.workers.length = 10 ∧
        s.pool.tasks = [.user 10] ∧ ∀ i < s.pool.workers.length, s.handles i = true)) =
      some true := by decide +kernel
  rcases Machine.reaches_of_check elevenArrivals _ hrun with ⟨s, hs, hcheck⟩
  exact ⟨s, hs, of_decide_eq_true hcheck⟩

end Accepting

end EpollServer
