import EpollServer.Theory.ThreadPool.Steps

/-!
# Task Conservation

No task is lost, run twice, or run out of order, whatever the interleaving.

The invariant `Conserved` has four parts. The accepted tasks are the dequeued
ones followed by the queue, which is the FIFO order and the absence of loss
in one equation. The dequeued tasks are, up to order, the finished ones and
the ones workers hold, so a dequeued task is in exactly one place. The
counter `activeThreads` is the number of workers between their dequeue and
their decrement. And `front` was never called on an empty queue.

A step moves one worker, so what it does to the last three parts depends on
that worker's position before and after. `held_setPosition` and
`active_setPosition` say how, and a notification changes neither, since it
only moves sleepers.

`task_conservation` assembles the claims about every reachable state.
`paused_of_dequeue` is about a step, the one that takes a task: it finds the
pool not paused, also after `stop` was set.

## Main definitions

* `Position.task?`: The task a worker holds.
* `Position.isActive`: Between the dequeue and the decrement.
* `Pool.held`: The tasks the workers hold.
* `Pool.holds`: A worker runs a task.
* `Pool.active`: The number of active workers.
* `Conserved`: The invariant.

## Theorems

* `held_setPosition`: How one worker changes the held tasks.
* `active_setPosition`: How one worker changes the number of active workers.
* `move_conserved`: Every transition keeps the invariant.
* `reachable_conserved`: It holds in every reachable state.
* `paused_of_dequeue`: A task is dequeued only while the pool is not paused.
* `exactly_one_place`: Of distinct tasks, each dequeued one is finished or
  held by one worker.
* `task_conservation`: Task conservation in every reachable state.
-/

namespace EpollServer

namespace ThreadPool

variable {α : Type}

/-- The task a worker holds. -/
def Position.task? : Position α → Option (Task α)
  | .running task => some task
  | _ => none

/-- Between the dequeue and the decrement of `activeThreads`. -/
def Position.isActive : Position α → Bool
  | .running _ => true
  | .finished => true
  | _ => false

/-- The tasks the workers hold. -/
def Pool.held (s : Pool α) : List (Task α) := s.workers.filterMap (fun w => w.position.task?)

/-- Worker `i` is inside `task()`. -/
def Pool.holds (s : Pool α) (i : Nat) (task : Task α) : Prop :=
  ∃ w, s.workers[i]? = some w ∧ w.position = .running task

/-- The number of workers between their dequeue and their decrement. -/
def Pool.active (s : Pool α) : Nat := s.workers.countP (fun w => w.position.isActive)

/-- The invariant of task conservation. -/
structure Conserved (s : Pool α) : Prop where
  fifo : s.accepted = s.dequeued ++ s.tasks
  held : s.dequeued.Perm (s.finished ++ s.held)
  active : s.activeThreads = s.active
  front : s.fault ≠ some .emptyFront

theorem held_setPosition (s : Pool α) (i : Nat) (w : Worker α) (p : Position α)
    (hw : s.workers[i]? = some w) :
    (w.position.task?.toList ++ (s.setPosition i p).held).Perm (p.task?.toList ++ s.held) :=
  ListModify.filterMap_modify_perm (fun w : Worker α => w.position.task?) _ hw

theorem active_setPosition (s : Pool α) (i : Nat) (w : Worker α) (p : Position α)
    (hw : s.workers[i]? = some w) :
    (s.setPosition i p).active + (if w.position.isActive then 1 else 0) =
      s.active + (if p.isActive then 1 else 0) :=
  ListModify.countP_modify (fun w : Worker α => w.position.isActive) _ hw

/-- A worker that holds no task before or after leaves the held tasks alone. -/
theorem held_setPosition_none (s : Pool α) (i : Nat) (w : Worker α) (p : Position α)
    (hw : s.workers[i]? = some w) (h : w.position.task? = none) (hp : p.task? = none) :
    (s.setPosition i p).held.Perm s.held := by
  have hperm := held_setPosition s i w p hw
  rw [h, hp] at hperm
  exact hperm

theorem task?_wakePause (w : Worker α) : w.wakePause.position.task? = w.position.task? := by
  cases w with
  | mk position joinable => cases position <;> rfl

theorem task?_wakeCondition (w : Worker α) :
    w.wakeCondition.position.task? = w.position.task? := by
  cases w with
  | mk position joinable => cases position <;> rfl

theorem isActive_wakePause (w : Worker α) :
    w.wakePause.position.isActive = w.position.isActive := by
  cases w with
  | mk position joinable => cases position <;> rfl

theorem isActive_wakeCondition (w : Worker α) :
    w.wakeCondition.position.isActive = w.position.isActive := by
  cases w with
  | mk position joinable => cases position <;> rfl

theorem held_notifyAllPause (s : Pool α) : s.notifyAllPause.held = s.held := by
  simp only [Pool.held, Pool.notifyAllPause, List.filterMap_map, Function.comp_def,
    task?_wakePause]

theorem active_notifyAllPause (s : Pool α) : s.notifyAllPause.active = s.active := by
  simp only [Pool.active, Pool.notifyAllPause, List.countP_map, Function.comp_def,
    isActive_wakePause]

theorem held_notifyAllCondition (s : Pool α) : s.notifyAllCondition.held = s.held := by
  simp only [Pool.held, Pool.notifyAllCondition, List.filterMap_map, Function.comp_def,
    task?_wakeCondition]

theorem active_notifyAllCondition (s : Pool α) : s.notifyAllCondition.active = s.active := by
  simp only [Pool.active, Pool.notifyAllCondition, List.countP_map, Function.comp_def,
    isActive_wakeCondition]

/-- New workers hold no task. -/
theorem held_replicate_spawned (n : Nat) :
    (List.replicate n (Worker.spawned : Worker α)).filterMap (fun w => w.position.task?) = [] :=
  List.filterMap_eq_nil_iff.mpr (fun w hw => by rw [List.eq_of_mem_replicate hw]; rfl)

/-- New workers are not active. -/
theorem active_replicate_spawned (n : Nat) :
    (List.replicate n (Worker.spawned : Worker α)).countP (fun w => w.position.isActive) = 0 :=
  List.countP_eq_zero.mpr
    (fun w hw => by rw [List.eq_of_mem_replicate hw]; exact Bool.false_ne_true)

/-- A worker outside the dequeue and the decrement holds no task. -/
theorem task?_of_not_active (p : Position α) (h : p.isActive = false) : p.task? = none := by
  cases p <;> simp only [Position.isActive, Bool.true_eq_false] at h <;> rfl

/-- A worker that moves between two places outside the dequeue and the
    decrement keeps the invariant. -/
theorem setPosition_conserved (s : Pool α) (i : Nat) (w : Worker α) (p : Position α)
    (hs : Conserved s) (hw : s.workers[i]? = some w)
    (h : w.position.isActive = false) (hp : p.isActive = false) :
    Conserved (s.setPosition i p) := by
  have hact := active_setPosition s i w p hw
  rw [h, hp] at hact
  refine ⟨hs.fifo, hs.held.trans (List.Perm.append_left _ ?_), ?_, hs.front⟩
  · exact (held_setPosition_none s i w p hw (task?_of_not_active _ h)
      (task?_of_not_active _ hp)).symm
  · exact hs.active.trans (Nat.add_right_cancel hact).symm

/-- The decrement of a worker whose task is over. That worker is counted, so
    the decrement is exact. -/
theorem retired_conserved (s : Pool α) (i : Nat) (w : Worker α) (hs : Conserved s)
    (hw : s.workers[i]? = some w) (hp : w.position = .finished) :
    Conserved { s.setPosition i .top with activeThreads := s.activeThreads - 1 } := by
  have hact := active_setPosition s i w .top hw
  rw [hp] at hact
  refine ⟨hs.fifo, hs.held.trans (List.Perm.append_left _ ?_), ?_, hs.front⟩
  · exact (held_setPosition_none s i w .top hw (by rw [hp]; rfl) rfl).symm
  · have hnum : (s.setPosition i .top).active + 1 = s.active := hact
    have hdec : s.activeThreads - 1 = (s.setPosition i .top).active := by
      rw [hs.active]
      omega
    exact hdec

theorem notifyAllPause_conserved (s : Pool α) (hs : Conserved s) :
    Conserved s.notifyAllPause := by
  refine ⟨hs.fifo, ?_, hs.active.trans (active_notifyAllPause s).symm, hs.front⟩
  rw [held_notifyAllPause]
  exact hs.held

theorem notifyAllCondition_conserved (s : Pool α) (hs : Conserved s) :
    Conserved s.notifyAllCondition := by
  refine ⟨hs.fifo, ?_, hs.active.trans (active_notifyAllCondition s).symm, hs.front⟩
  rw [held_notifyAllCondition]
  exact hs.held

/-- Every transition keeps the invariant. -/
theorem move_conserved (s s' : Pool α) (a : Act α) (hs : Conserved s) (h : Move s a s') :
    Conserved s' := by
  cases h with
  | relock self hm => exact ⟨hs.fifo, hs.held, hs.active, by simp only [ne_eq, Option.some.injEq,
      reduceCtorEq, not_false_eq_true]⟩
  | refuse => exact hs
  | enqueue self body =>
      refine ⟨?_, hs.held, hs.active, hs.front⟩
      simp only [hs.fifo, List.append_assoc]
  | pause | resume | shutdown | waitForCompletion | notifyNobody | joinReturn | joinThrow
  | recheck | wakeCompletion => exact ⟨hs.fifo, hs.held, hs.active, hs.front⟩
  | query => exact hs
  | grow self newSize =>
      -- The new workers hold no task and are not active.
      refine ⟨hs.fifo, ?_, ?_, hs.front⟩
      · simp only [Pool.held, List.filterMap_append, held_replicate_spawned, List.append_nil]
        exact hs.held
      · simp only [Pool.active, List.countP_append, active_replicate_spawned, Nat.add_zero]
        exact hs.active
  | shrink => exact ⟨hs.fifo, hs.held, hs.active, by simp only [ne_eq, Option.some.injEq,
      reduceCtorEq, not_false_eq_true]⟩
  | sleepCondition i w _ hw hp =>
      exact setPosition_conserved s i w _ hs hw (by rw [hp]; rfl) rfl
  | exit i w _ hw hp => exact setPosition_conserved s i w _ hs hw (by rw [hp]; rfl) rfl
  | sleepPause i w _ hw hp => exact setPosition_conserved s i w _ hs hw (by rw [hp]; rfl) rfl
  | dequeue i w task rest _ hw hp _ ht =>
      have hheld := held_setPosition s i w (.running task) hw
      have hact := active_setPosition s i w (.running task) hw
      rw [hp] at hheld hact
      refine ⟨?_, ?_, ?_, hs.front⟩
      · calc s.accepted = s.dequeued ++ task :: rest := by rw [hs.fifo, ht]
          _ = s.dequeued ++ [task] ++ rest := by rw [List.append_assoc, List.singleton_append]
      · -- The new task goes to the held ones.
        calc (s.dequeued ++ [task]).Perm (s.finished ++ s.held ++ [task]) :=
              List.Perm.append_right _ hs.held
          _ |>.Perm (s.finished ++ (s.held ++ [task])) := by rw [List.append_assoc]
          _ |>.Perm (s.finished ++ ([task] ++ s.held)) :=
              List.Perm.append_left _ List.perm_append_comm
          _ |>.Perm (s.finished ++ (s.setPosition i (.running task)).held) :=
              List.Perm.append_left _ hheld.symm
      · have hnum : (s.setPosition i (.running task)).active = s.active + 1 := hact
        exact (congrArg (· + 1) hs.active).trans hnum.symm
  | sleepAgain i w _ hw hp => exact setPosition_conserved s i w _ hs hw (by rw [hp]; rfl) rfl
  | unpause i w _ hw hp => exact setPosition_conserved s i w _ hs hw (by rw [hp]; rfl) rfl
  | finish i w task hw hp =>
      have hheld := held_setPosition s i w .finished hw
      have hact := active_setPosition s i w .finished hw
      rw [hp] at hheld hact
      refine ⟨hs.fifo, ?_, ?_, hs.front⟩
      · -- The task goes from the held ones to the finished ones.
        calc s.dequeued.Perm (s.finished ++ s.held) := hs.held
          _ |>.Perm (s.finished ++ ([task] ++ (s.setPosition i .finished).held)) :=
              List.Perm.append_left _ hheld.symm
          _ |>.Perm (s.finished ++ [task] ++ (s.setPosition i .finished).held) := by
              rw [List.append_assoc]
      · exact hs.active.trans (Nat.add_right_cancel hact).symm
  | retire i w _ hw hp => exact retired_conserved s i w hs hw hp
  | retireLast i w _ hw hp =>
      exact notifyAllPause_conserved _ (retired_conserved s i w hs hw hp)
  | notifyOne i n w _ hw hp =>
      have h := setPosition_conserved s i w .top hs hw (by rw [hp]; rfl) rfl
      exact ⟨h.fifo, h.held, h.active, h.front⟩
  | notifyResume =>
      have h := notifyAllPause_conserved s hs
      exact ⟨h.fifo, h.held, h.active, h.front⟩
  | notifyShutdown =>
      have h := notifyAllCondition_conserved s hs
      exact ⟨h.fifo, h.held, h.active, h.front⟩
  | join k next w _ hw =>
      -- `join` changes the `std::thread`, not what its code does.
      have hheld := ListModify.filterMap_modify_perm (fun w : Worker α => w.position.task?)
        (fun w => { w with joinable := false }) hw
      have hact := ListModify.countP_modify (fun w : Worker α => w.position.isActive)
        (fun w => { w with joinable := false }) hw
      refine ⟨hs.fifo, hs.held.trans (List.Perm.append_left _ ?_), ?_, hs.front⟩
      · exact ((List.perm_append_left_iff _).mp hheld).symm
      · exact hs.active.trans (Nat.add_right_cancel hact).symm
  | wakeCondition i w hw hp => exact setPosition_conserved s i w _ hs hw (by rw [hp]; rfl) rfl
  | wakePause i w hw hp => exact setPosition_conserved s i w _ hs hw (by rw [hp]; rfl) rfl

theorem create_conserved (threads : Nat) : Conserved (create α threads) := by
  refine ⟨rfl, ?_, ?_, by simp only [create, ne_eq, reduceCtorEq, not_false_eq_true]⟩
  · have hnone : (create α threads).held = [] := held_replicate_spawned threads
    rw [hnone]
    exact List.Perm.refl _
  · exact (active_replicate_spawned threads).symm

/-- The invariant holds in every reachable state. -/
theorem reachable_conserved (threads : Nat) (s : Pool α) (h : Reachable threads s) :
    Conserved s :=
  Machine.invariant h (create_conserved threads)
    (fun t a u ht _ hstep => move_conserved t u a ht (move_of_step t u a hstep))

/-- A task is dequeued only while the pool is not paused, and it is the front
    of the queue. -/
theorem paused_of_dequeue (s s' : Pool α) (a : Act α) (hs : step s a = some s')
    (hne : s'.dequeued ≠ s.dequeued) :
    s.paused = false ∧ ∃ task, s.tasks = task :: s'.tasks ∧ s'.dequeued = s.dequeued ++ [task] := by
  cases move_of_step s s' a hs with
  | dequeue i w task rest _ _ _ hpaused ht => exact ⟨hpaused, task, ht, rfl⟩
  | _ => exact absurd rfl hne

theorem task?_eq_some_iff (p : Position α) (task : Task α) :
    p.task? = some task ↔ p = .running task := by
  cases p <;> simp only [Position.task?, Option.some.injEq, reduceCtorEq, Position.running.injEq]

/-- Of distinct tasks, each dequeued one is either finished or held by exactly
    one worker. -/
theorem exactly_one_place (s : Pool α) (hs : Conserved s) (hnodup : s.accepted.Nodup)
    (task : Task α) (htask : task ∈ s.dequeued) :
    (task ∈ s.finished ∧ ∀ w ∈ s.workers, w.position ≠ .running task) ∨
      (task ∉ s.finished ∧ ∃! i, s.holds i task) := by
  -- The dequeued tasks are the first of the accepted ones, so distinct too.
  have hdeq : s.dequeued.Nodup := by
    rw [hs.fifo] at hnodup
    exact (List.nodup_append.mp hnodup).1
  rcases List.nodup_append.mp (hs.held.nodup_iff.mp hdeq) with ⟨_, hheld, hdisj⟩
  rcases List.mem_append.mp (hs.held.mem_iff.mp htask) with hfin | hhold
  · refine Or.inl ⟨hfin, fun w hw hp => ?_⟩
    have hmem : task ∈ s.held :=
      List.mem_filterMap.mpr ⟨w, hw, (task?_eq_some_iff _ _).mpr hp⟩
    exact hdisj task hfin task hmem rfl
  · refine Or.inr ⟨fun hfin => hdisj task hfin task hhold rfl, ?_⟩
    rcases List.mem_filterMap.mp hhold with ⟨w, hw, hwt⟩
    rcases List.getElem?_of_mem hw with ⟨i, hi⟩
    refine ⟨i, ⟨w, hi, (task?_eq_some_iff _ _).mp hwt⟩, fun j ⟨v, hj, hv⟩ => ?_⟩
    -- Two workers holding the task would put it into `held` twice.
    have hpair := List.pairwise_iff_getElem.mp (List.pairwise_filterMap.mp hheld)
    rcases List.getElem?_eq_some_iff.mp hi with ⟨hilt, hiw⟩
    rcases List.getElem?_eq_some_iff.mp hj with ⟨hjlt, hjv⟩
    have hvt : v.position.task? = some task := (task?_eq_some_iff _ _).mpr hv
    rcases Nat.lt_trichotomy i j with hij | hij | hij
    · exact absurd rfl
        (hpair i j hilt hjlt hij task (by rw [hiw]; exact hwt) task (by rw [hjv]; exact hvt))
    · exact hij.symm
    · exact absurd rfl
        (hpair j i hjlt hilt hij task (by rw [hjv]; exact hvt) task (by rw [hiw]; exact hwt))

/-- An active worker makes the counter positive, so the decrement of a worker
    that returned from its task does not underflow. -/
theorem activeThreads_pos (s : Pool α) (hs : Conserved s) (w : Worker α) (hw : w ∈ s.workers)
    (hp : w.position.isActive = true) : 0 < s.activeThreads := by
  rw [hs.active]
  exact List.countP_pos_iff.mpr ⟨w, hw, hp⟩

/-- Task conservation in every reachable state, and in the step out of it that
    takes a task. -/
theorem task_conservation (threads : Nat) (s : Pool α) (h : Reachable threads s) :
    s.accepted = s.dequeued ++ s.tasks ∧
      s.dequeued.Perm (s.finished ++ s.held) ∧
      (s.accepted.Nodup → ∀ task ∈ s.dequeued,
        (task ∈ s.finished ∧ ∀ w ∈ s.workers, w.position ≠ .running task) ∨
          (task ∉ s.finished ∧ ∃! i, s.holds i task)) ∧
      s.activeThreads = s.active ∧
      (∀ w ∈ s.workers, w.position = .finished → 0 < s.activeThreads) ∧
      s.fault ≠ some .emptyFront ∧
      (∀ a s', step s a = some s' → s'.dequeued ≠ s.dequeued →
        s.paused = false ∧
          ∃ task, s.tasks = task :: s'.tasks ∧ s'.dequeued = s.dequeued ++ [task]) := by
  have hs := reachable_conserved threads s h
  refine ⟨hs.fifo, hs.held, exactly_one_place s hs, hs.active, ?_, hs.front, ?_⟩
  · intro w hw hp
    exact activeThreads_pos s hs w hw (by rw [hp]; rfl)
  · intro a s' hstep hne
    exact paused_of_dequeue s s' a hstep hne

/-- Three tasks and two workers: one task is finished, one is held while it runs,
    and one is in the queue. -/
theorem task_conservation_three : ∃ s : Pool Nat, Reachable 2 s ∧
    s.accepted = [.user 7, .user 8, .user 9] ∧ s.tasks = [.user 9] ∧
    s.dequeued.Perm (s.finished ++ s.held) ∧
    (Task.user 7 ∈ s.finished ∧ ∀ w ∈ s.workers, w.position ≠ .running (.user 7)) ∧
    (Task.user 8 ∉ s.finished ∧ ∃! i, s.holds i (.user 8)) ∧ 0 < s.activeThreads := by
  rcases Machine.reaches_of_check (M := machine Nat) (s := create Nat 2)
    [.call (.caller 0) (.enqueue 7), .call (.caller 0) (.enqueue 8),
      .call (.caller 1) (.enqueue 9), .work 1, .work 0, .work 1]
    (fun s : Pool Nat => decide (s.accepted = [.user 7, .user 8, .user 9] ∧ s.tasks = [.user 9] ∧
      s.dequeued = [.user 7, .user 8] ∧ s.finished = [.user 7] ∧
      s.workers[1]?.map Worker.position = some .finished)) rfl with ⟨s, hs, hcheck⟩
  rcases of_decide_eq_true hcheck with ⟨haccepted, htasks, hdequeued, hfinished, hworker⟩
  -- Two tasks are out of the queue: one has finished, and one is held by a worker.
  rcases task_conservation 2 s hs with ⟨_, hperm, hplace, _, hactive, _⟩
  rcases Option.map_eq_some_iff.mp hworker with ⟨w, hw, hposition⟩
  have hnodup : s.accepted.Nodup := by
    rw [haccepted]
    decide
  have hseven := hplace hnodup (.user 7) (by rw [hdequeued]; decide)
  have height := hplace hnodup (.user 8) (by rw [hdequeued]; decide)
  refine ⟨s, hs, haccepted, htasks, hperm, hseven.resolve_right fun h => h.1 ?_,
    height.resolve_left fun h => ?_, hactive w (List.mem_of_getElem? hw) hposition⟩
  · rw [hfinished]
    decide
  · have hmem := h.1
    rw [hfinished] at hmem
    exact absurd hmem (by decide)

end ThreadPool

end EpollServer
