import EpollServer.Theory.ThreadPool.Conservation
import EpollServer.Theory.ThreadPool.Wakeup

/-!
# Shutting Down

When `shutdown` can wait for ever in its join loop.

`shutdown` sets `stop` and notifies `condition`. The predicate waited for
there contains `stop`, so nobody sleeps on `condition` once the notification
is issued. The other wait does not mention it: a worker that finds the pool
stopped and paused, with tasks left, sleeps on `pauseCondition` until a
`resume`, and `shutdown` issues none.

`Owed` collects what holds in every reachable state: whoever sleeps on
`condition` in a stopped pool, or on `pauseCondition` in an unpaused one, is
owed a notification that has still to be issued. So the only sleepers with
nothing to hope for are those on `pauseCondition` in a paused pool.
`ShutdownBlocks` says of the state before `shutdown` that there will be some.
While nobody calls the pool it cannot become true (`blocks_of_move`), which
gives one direction. For the other, a blocked shutdown is reached
(`stuck_of_blocks`): every outstanding notification is issued, every busy
worker comes back to the top of the loop, and from there each one leaves or
goes to sleep. `rank` counts how far they are from it.

## Main definitions

* `NoCall`: The steps that are not a new call.
* `Stuck`: A shutdown joins workers that all sleep.
* `ShutdownBlocks`: The condition on the state `shutdown` is called in.
* `Owed`: Sleepers are owed a notification.
* `Position.weight`, `rank`: How far the pool is from rest.

## Theorems

* `move_owed`: Every transition keeps `Owed`.
* `blocks_of_move`: Without calls, blocking does not come about.
* `not_stuck`: A shutdown called in a state that does not block is never
  stuck.
* `stuck_of_blocks`: One called in a state that blocks can get stuck.
* `shutdown_stuck_iff`: The exact condition.
* `shutdown_stuck_paused`: A paused pool with one task gets stuck.
-/

namespace EpollServer

namespace ThreadPool

variable {α : Type}

/-- The step is a call from outside. -/
def Act.isCall : Act α → Bool
  | .call _ _ => true
  | _ => false

/-- A step that is not a call: a worker, a notification that is still to be
    issued, a join, a wake-up. -/
def NoCall (_ : Pool α) (a : Act α) : Prop := a.isCall = false

/-- Some call of `shutdown` is in its join loop, some worker has not returned,
    and all of these sleep with no notification on its way. -/
def Stuck (s : Pool α) : Prop :=
  (∃ next, .joining next ∈ s.shutdowns) ∧ (∃ w ∈ s.workers, w.position ≠ .exited) ∧
    (∀ w ∈ s.workers, w.position = .exited ∨ w.position.isAsleep = true) ∧
    s.enqueueNotifies = 0 ∧ s.resumeNotifies = 0 ∧ .notifying ∉ s.shutdowns

/-- The pool is paused and some worker will have to wait for a `resume`: there
    are tasks left for it, or it is waiting already. -/
def ShutdownBlocks (s : Pool α) : Prop :=
  s.paused = true ∧ ∃ w ∈ s.workers, w.position ≠ .exited ∧
    (s.tasks ≠ [] ∨ w.position.inPauseWait = true)

instance [DecidableEq α] (s : Pool α) : Decidable (ShutdownBlocks s) :=
  inferInstanceAs (Decidable (_ ∧ _))

/-- Whoever sleeps without a reason is owed a notification. The tasks are the
    callers' own, so only `shutdown` sets `stop`. -/
structure Owed (s : Pool α) : Prop where
  tasks : .terminate ∉ s.tasks
  running : ∀ w ∈ s.workers, w.position.task? ≠ some .terminate
  condition : s.stop = true → (∃ w ∈ s.workers, w.position = .sleepCondition) →
    .notifying ∈ s.shutdowns
  pause : s.paused = false → (∃ w ∈ s.workers, w.position = .sleepPause) →
    0 < s.resumeNotifies

/-! ### What sleepers are owed -/

theorem sleepCondition_wakePause (w : Worker α) (h : w.wakePause.position = .sleepCondition) :
    w.position = .sleepCondition := by
  cases w with
  | mk position joinable =>
      cases position <;> simp only [Worker.wakePause, reduceCtorEq] at h
      rfl

theorem ne_sleepPause_wakePause (w : Worker α) : w.wakePause.position ≠ .sleepPause := by
  cases w with
  | mk position joinable =>
      cases position <;> simp only [Worker.wakePause, ne_eq, reduceCtorEq, not_false_eq_true]

theorem sleepPause_wakeCondition (w : Worker α) (h : w.wakeCondition.position = .sleepPause) :
    w.position = .sleepPause := by
  cases w with
  | mk position joinable =>
      cases position <;> simp only [Worker.wakeCondition, reduceCtorEq] at h
      rfl

theorem ne_sleepCondition_wakeCondition (w : Worker α) :
    w.wakeCondition.position ≠ .sleepCondition := by
  cases w with
  | mk position joinable =>
      cases position <;> simp only [Worker.wakeCondition, ne_eq, reduceCtorEq, not_false_eq_true]

/-- A change of one worker that leaves it owed nothing keeps `Owed`. -/
theorem modify_owed (s : Pool α) (i : Nat) (w : Worker α) (f : Worker α → Worker α)
    (hs : Owed s) (hw : s.workers[i]? = some w) (hrun : (f w).position.task? ≠ some .terminate)
    (hcond : s.stop = true → (f w).position ≠ .sleepCondition)
    (hpause : s.paused = false → (f w).position ≠ .sleepPause) :
    Owed { s with workers := s.workers.modify i f } := by
  refine ⟨hs.tasks, fun v hv => ?_, fun hstop he => ?_, fun hpaused he => ?_⟩
  · rcases ListModify.mem_of_mem_modify hw hv with rfl | hold
    · exact hrun
    · exact hs.running v hold
  -- A sleeper after the change is another worker, and slept before.
  · exact hs.condition hstop (ListModify.exists_of_exists_modify
      (p := fun v : Worker α => v.position = .sleepCondition) hw (hcond hstop) he)
  · exact hs.pause hpaused (ListModify.exists_of_exists_modify
      (p := fun v : Worker α => v.position = .sleepPause) hw (hpause hpaused) he)

/-- A worker that is awake afterwards is owed nothing. -/
theorem modify_awake_owed (s : Pool α) (i : Nat) (w : Worker α) (f : Worker α → Worker α)
    (hs : Owed s) (hw : s.workers[i]? = some w) (hp : (f w).position.isAsleep = false)
    (hrun : (f w).position.task? ≠ some .terminate) :
    Owed { s with workers := s.workers.modify i f } := by
  refine modify_owed s i w f hs hw hrun (fun _ hc => ?_) (fun _ hc => ?_)
  · rw [hc] at hp
    exact absurd hp.symm Bool.false_ne_true
  · rw [hc] at hp
    exact absurd hp.symm Bool.false_ne_true

theorem setPosition_owed (s : Pool α) (i : Nat) (w : Worker α) (p : Position α) (hs : Owed s)
    (hw : s.workers[i]? = some w) (hp : p.isAsleep = false) (hrun : p.task? ≠ some .terminate) :
    Owed (s.setPosition i p) :=
  modify_awake_owed s i w (fun v => { v with position := p }) hs hw hp hrun

/-- A worker that is awake and holds no task is owed nothing. -/
theorem setPosition_idle_owed (s : Pool α) (i : Nat) (w : Worker α) (p : Position α)
    (hs : Owed s) (hw : s.workers[i]? = some w) (hp : p.isAsleep = false) (ht : p.task? = none) :
    Owed (s.setPosition i p) := by
  refine setPosition_owed s i w p hs hw hp ?_
  simp only [ht, ne_eq, reduceCtorEq, not_false_eq_true]

/-- A worker that goes to sleep on `pauseCondition` finds the pool paused. -/
theorem sleepPause_owed (s : Pool α) (i : Nat) (w : Worker α) (hs : Owed s)
    (hw : s.workers[i]? = some w) (hpaused : s.paused = true) :
    Owed (s.setPosition i .sleepPause) := by
  refine modify_owed s i w _ hs hw ?_ (fun _ => ?_)
    (fun hf => absurd (hf.symm.trans hpaused) Bool.false_ne_true)
  · simp only [Position.task?, ne_eq, reduceCtorEq, not_false_eq_true]
  · simp only [ne_eq, reduceCtorEq, not_false_eq_true]

theorem notifyAllPause_owed (s : Pool α) (hs : Owed s) : Owed s.notifyAllPause := by
  refine ⟨hs.tasks, fun v hv => ?_, fun hstop he => ?_, fun _ he => ?_⟩
  · rcases List.mem_map.mp hv with ⟨w, hw, rfl⟩
    rw [task?_wakePause]
    exact hs.running w hw
  · rcases he with ⟨v, hv, hp⟩
    rcases List.mem_map.mp hv with ⟨w, hw, rfl⟩
    exact hs.condition hstop ⟨w, hw, sleepCondition_wakePause w hp⟩
  · rcases he with ⟨v, hv, hp⟩
    rcases List.mem_map.mp hv with ⟨w, hw, rfl⟩
    exact absurd hp (ne_sleepPause_wakePause w)

/-- Nobody sleeps on `pauseCondition` right after its notification. -/
theorem no_sleepPause_notifyAllPause (s : Pool α) :
    ¬ ∃ w ∈ s.notifyAllPause.workers, w.position = .sleepPause := by
  rintro ⟨v, hv, hp⟩
  rcases List.mem_map.mp hv with ⟨w, _, rfl⟩
  exact ne_sleepPause_wakePause w hp

/-- A call that goes on in its join loop issues no notification. -/
theorem mem_notifying_set {calls : List ShutdownCall} {k : Nat} {c d : ShutdownCall}
    (hk : calls[k]? = some c) (hc : .notifying ≠ c) (h : .notifying ∈ calls) :
    .notifying ∈ calls.set k d :=
  ListModify.mem_set_of_ne hk h hc

/-- The new workers of a pool are at the top of the loop, so that a sleeper was
    there before. -/
theorem asleep_of_grown {workers : List (Worker α)} {n : Nat} {p : Position α}
    (hp : p.isAsleep = true)
    (h : ∃ w ∈ workers ++ List.replicate n Worker.spawned, w.position = p) :
    ∃ w ∈ workers, w.position = p := by
  rcases h with ⟨w, hw, rfl⟩
  rcases mem_grown hw with hold | rfl
  · exact ⟨w, hold, rfl⟩
  · exact absurd hp Bool.false_ne_true

/-- Every transition keeps `Owed`. -/
theorem move_owed (s s' : Pool α) (a : Act α) (hs : Owed s) (h : Move s a s') : Owed s' := by
  cases h with
  | relock | waitForCompletion | shrink | notifyNobody | recheck | wakeCompletion =>
      exact ⟨hs.tasks, hs.running, hs.condition, hs.pause⟩
  | refuse => exact hs
  | enqueue self body =>
      refine ⟨fun hmem => ?_, hs.running, hs.condition, hs.pause⟩
      rcases List.mem_append.mp hmem with hold | hnew
      · exact hs.tasks hold
      · simp only [List.mem_singleton, reduceCtorEq] at hnew
  | pause => exact ⟨hs.tasks, hs.running, hs.condition,
      fun hf => by simp only [Bool.true_eq_false] at hf⟩
  | resume => exact ⟨hs.tasks, hs.running, hs.condition, fun _ _ => Nat.succ_pos _⟩
  | shutdown => exact ⟨hs.tasks, hs.running,
      fun _ _ => List.mem_append_right _ List.mem_cons_self, hs.pause⟩
  | query => exact hs
  | grow self newSize =>
      refine ⟨hs.tasks, fun w hw => ?_,
        fun hstop he => hs.condition hstop (asleep_of_grown rfl he),
        fun hpaused he => hs.pause hpaused (asleep_of_grown rfl he)⟩
      rcases mem_grown hw with hold | rfl
      · exact hs.running w hold
      · simp only [Worker.spawned, Position.task?, ne_eq, reduceCtorEq, not_false_eq_true]
  | sleepCondition i w _ hw _ hstop =>
      -- Nobody goes to sleep there after `stop`.
      refine modify_owed s i w _ hs hw ?_
        (fun ht => absurd (hstop.symm.trans ht) Bool.false_ne_true) (fun _ => ?_)
      · simp only [Position.task?, ne_eq, reduceCtorEq, not_false_eq_true]
      · simp only [ne_eq, reduceCtorEq, not_false_eq_true]
  | exit i w _ hw => exact setPosition_idle_owed s i w _ hs hw rfl rfl
  | sleepPause i w _ hw _ _ _ hpaused => exact sleepPause_owed s i w hs hw hpaused
  | dequeue i w task rest _ hw _ _ ht =>
      -- The queue holds no task of `resize`, so the worker does not get one.
      have hne : task ≠ .terminate := fun he => hs.tasks (by rw [ht, he]; exact List.mem_cons_self)
      have h := setPosition_owed s i w (.running task) hs hw rfl
        (fun he => hne (Option.some.inj he))
      exact ⟨fun hmem => hs.tasks (by rw [ht]; exact List.mem_cons_of_mem _ hmem), h.running,
        h.condition, h.pause⟩
  | sleepAgain i w _ hw _ hpaused => exact sleepPause_owed s i w hs hw hpaused
  | unpause i w _ hw => exact setPosition_idle_owed s i w _ hs hw rfl rfl
  | finish i w task hw hp =>
      have h := setPosition_idle_owed s i w .finished hs hw rfl rfl
      refine ⟨h.tasks, h.running, fun hstop => h.condition ?_, h.pause⟩
      -- The task is not the one of `resize`, so it leaves `stop` alone.
      cases task with
      | user body => exact (Bool.or_false _).symm.trans hstop
      | terminate =>
          exact absurd (by rw [hp]; rfl) (hs.running w (List.mem_of_getElem? hw))
  | retire i w _ hw =>
      have h := setPosition_idle_owed s i w .top hs hw rfl rfl
      exact ⟨h.tasks, h.running, h.condition, h.pause⟩
  | retireLast i w _ hw =>
      have h := setPosition_idle_owed s i w .top hs hw rfl rfl
      exact notifyAllPause_owed _ ⟨h.tasks, h.running, h.condition, h.pause⟩
  | notifyOne i n w _ hw =>
      have h := setPosition_idle_owed s i w .top hs hw rfl rfl
      exact ⟨h.tasks, h.running, h.condition, h.pause⟩
  | notifyResume n =>
      have h := notifyAllPause_owed s hs
      exact ⟨h.tasks, h.running, h.condition,
        fun _ he => absurd he (no_sleepPause_notifyAllPause s)⟩
  | notifyShutdown k hk =>
      refine ⟨hs.tasks, fun v hv => ?_, fun _ he => ?_, fun hpaused he => ?_⟩
      · rcases List.mem_map.mp hv with ⟨w, hw, rfl⟩
        rw [task?_wakeCondition]
        exact hs.running w hw
      · rcases he with ⟨v, hv, hp⟩
        rcases List.mem_map.mp hv with ⟨w, _, rfl⟩
        exact absurd hp (ne_sleepCondition_wakeCondition w)
      · rcases he with ⟨v, hv, hp⟩
        rcases List.mem_map.mp hv with ⟨w, hw, rfl⟩
        exact hs.pause hpaused ⟨w, hw, sleepPause_wakeCondition w hp⟩
  | joinReturn k next hk =>
      exact ⟨hs.tasks, hs.running,
        fun hstop he => mem_notifying_set hk ShutdownCall.noConfusion (hs.condition hstop he),
        hs.pause⟩
  | join k next w hk hw _ hp =>
      have h := modify_awake_owed s next w (fun v => { v with joinable := false }) hs hw
        (by rw [hp]; rfl) (by rw [hp]; exact (Option.some_ne_none _).symm)
      exact ⟨h.tasks, h.running,
        fun hstop he => mem_notifying_set hk ShutdownCall.noConfusion (h.condition hstop he),
        h.pause⟩
  | joinThrow k next w hk =>
      exact ⟨hs.tasks, hs.running,
        fun hstop he => mem_notifying_set hk ShutdownCall.noConfusion (hs.condition hstop he),
        hs.pause⟩
  | wakeCondition i w hw => exact setPosition_idle_owed s i w _ hs hw rfl rfl
  | wakePause i w hw => exact setPosition_idle_owed s i w _ hs hw rfl rfl

theorem create_owed (threads : Nat) : Owed (create α threads) := by
  have htop : ∀ w ∈ (create α threads).workers, w.position = .top := by
    intro w hw
    rw [List.eq_of_mem_replicate hw]
    rfl
  refine ⟨List.not_mem_nil, fun w hw => ?_, fun _ ⟨w, hw, hp⟩ => ?_, fun _ ⟨w, hw, hp⟩ => ?_⟩
  · simp only [htop w hw, Position.task?, ne_eq, reduceCtorEq, not_false_eq_true]
  · rw [htop w hw] at hp
    simp only [reduceCtorEq] at hp
  · rw [htop w hw] at hp
    simp only [reduceCtorEq] at hp

theorem reachable_owed (threads : Nat) (s : Pool α) (h : Reachable threads s) : Owed s :=
  Machine.invariant h (create_owed threads)
    (fun t a u ht _ hstep => move_owed t u a ht (move_of_step t u a hstep))

/-! ### A shutdown that does not block -/

/-- The worker has returned. -/
def Position.isExited : Position α → Bool
  | .exited => true
  | _ => false

theorem ne_exited_of_position {w : Worker α} {p : Position α} (hp : w.position = p)
    (h : p.isExited = false) : w.position ≠ .exited := by
  intro hexit
  rw [← hp, hexit] at h
  exact Bool.false_ne_true h.symm

/-- If blocking is there after a change of one worker, it was there before. -/
theorem blocks_of_modify (s : Pool α) (i : Nat) (w : Worker α) (f : Worker α → Worker α)
    (hw : s.workers[i]? = some w) (hlive : (f w).position ≠ .exited → w.position ≠ .exited)
    (hwait : (f w).position.inPauseWait = true → s.tasks ≠ [] ∨ w.position.inPauseWait = true)
    (h : ShutdownBlocks { s with workers := s.workers.modify i f }) : ShutdownBlocks s := by
  rcases h with ⟨hpaused, v, hv, hvlive, hvwait⟩
  rcases ListModify.mem_of_mem_modify hw hv with rfl | hold
  · exact ⟨hpaused, w, List.mem_of_getElem? hw, hlive hvlive,
      hvwait.elim Or.inl (fun hin => hwait hin)⟩
  · exact ⟨hpaused, v, hold, hvlive, hvwait⟩

theorem blocks_of_setPosition (s : Pool α) (i : Nat) (w : Worker α) (p : Position α)
    (hw : s.workers[i]? = some w) (hlive : p ≠ .exited → w.position ≠ .exited)
    (hwait : p.inPauseWait = true → s.tasks ≠ [] ∨ w.position.inPauseWait = true)
    (h : ShutdownBlocks (s.setPosition i p)) : ShutdownBlocks s :=
  blocks_of_modify s i w (fun v => { v with position := p }) hw hlive hwait h

/-- A worker that has not returned, and is not in `pauseCondition.wait`
    afterwards, does not bring blocking about. -/
theorem blocks_of_awake (s : Pool α) (i : Nat) (w : Worker α) (p q : Position α)
    (hw : s.workers[i]? = some w) (hq : w.position = q) (hlive : q.isExited = false)
    (hp : p.inPauseWait = false) (h : ShutdownBlocks (s.setPosition i p)) : ShutdownBlocks s :=
  blocks_of_setPosition s i w p hw (fun _ => ne_exited_of_position hq hlive)
    (fun hin => absurd (hp.symm.trans hin) Bool.false_ne_true) h

theorem inPauseWait_wakePause (w : Worker α) :
    w.wakePause.position.inPauseWait = w.position.inPauseWait := by
  cases w with
  | mk position joinable => cases position <;> rfl

theorem ne_exited_wakePause (w : Worker α) :
    w.wakePause.position ≠ .exited ↔ w.position ≠ .exited := by
  cases w with
  | mk position joinable =>
      cases position <;> simp only [Worker.wakePause, ne_eq, reduceCtorEq, not_true_eq_false]

theorem ne_exited_wakeCondition (w : Worker α) :
    w.wakeCondition.position ≠ .exited ↔ w.position ≠ .exited := by
  cases w with
  | mk position joinable =>
      cases position <;> simp only [Worker.wakeCondition, ne_eq, reduceCtorEq, not_true_eq_false]

theorem blocks_notifyAllPause (s : Pool α) :
    ShutdownBlocks s.notifyAllPause ↔ ShutdownBlocks s := by
  constructor
  · rintro ⟨hpaused, v, hv, hlive, hwait⟩
    rcases List.mem_map.mp hv with ⟨w, hw, rfl⟩
    rw [inPauseWait_wakePause] at hwait
    exact ⟨hpaused, w, hw, (ne_exited_wakePause w).mp hlive, hwait⟩
  · rintro ⟨hpaused, w, hw, hlive, hwait⟩
    refine ⟨hpaused, _, List.mem_map_of_mem hw, (ne_exited_wakePause w).mpr hlive, ?_⟩
    rw [inPauseWait_wakePause]
    exact hwait

theorem blocks_notifyAllCondition (s : Pool α) :
    ShutdownBlocks s.notifyAllCondition ↔ ShutdownBlocks s := by
  constructor
  · rintro ⟨hpaused, v, hv, hlive, hwait⟩
    rcases List.mem_map.mp hv with ⟨w, hw, rfl⟩
    rw [inPauseWait_wakeCondition] at hwait
    exact ⟨hpaused, w, hw, (ne_exited_wakeCondition w).mp hlive, hwait⟩
  · rintro ⟨hpaused, w, hw, hlive, hwait⟩
    refine ⟨hpaused, _, List.mem_map_of_mem hw, (ne_exited_wakeCondition w).mpr hlive, ?_⟩
    rw [inPauseWait_wakeCondition]
    exact hwait

/-- Without calls, blocking does not come about. -/
theorem blocks_of_move (s s' : Pool α) (a : Act α) (h : Move s a s') (ha : NoCall s a)
    (hb : ShutdownBlocks s') : ShutdownBlocks s := by
  cases h with
  | relock => exact hb
  | refuse | enqueue | pause | resume | shutdown | waitForCompletion | query | grow | shrink =>
      exact absurd ha.symm Bool.false_ne_true
  | sleepCondition i w _ hw hp => exact blocks_of_awake s i w .sleepCondition _ hw hp rfl rfl hb
  | exit i w _ hw hp => exact blocks_of_awake s i w .exited _ hw hp rfl rfl hb
  | sleepPause i w _ hw hp _ htasks =>
      -- Whoever goes to sleep there has found tasks in the queue.
      exact blocks_of_setPosition s i w .sleepPause hw
        (fun _ => ne_exited_of_position hp rfl) (fun _ => Or.inl htasks) hb
  | dequeue i w task rest _ _ _ hpaused =>
      -- Nothing is taken from a paused queue.
      exact absurd (hpaused.symm.trans hb.1) Bool.false_ne_true
  | sleepAgain i w _ hw hp =>
      exact blocks_of_setPosition s i w .sleepPause hw
        (fun _ => ne_exited_of_position hp rfl) (fun _ => Or.inr (by rw [hp]; rfl)) hb
  | unpause i w _ _ _ hpaused => exact absurd (hpaused.symm.trans hb.1) Bool.false_ne_true
  | finish i w task hw hp => exact blocks_of_awake s i w .finished _ hw hp rfl rfl hb
  | retire i w _ hw hp => exact blocks_of_awake s i w .top _ hw hp rfl rfl hb
  | retireLast i w _ hw hp =>
      exact blocks_of_awake s i w .top _ hw hp rfl rfl ((blocks_notifyAllPause _).mp hb)
  | notifyOne i n w _ hw hp => exact blocks_of_awake s i w .top _ hw hp rfl rfl hb
  | notifyNobody => exact hb
  | notifyResume => exact (blocks_notifyAllPause s).mp hb
  | notifyShutdown => exact (blocks_notifyAllCondition s).mp hb
  | joinReturn => exact hb
  | join k next w _ hw =>
      exact blocks_of_modify s next w _ hw (fun hne => hne) (fun hin => Or.inr hin) hb
  | joinThrow => exact hb
  | recheck | wakeCompletion => exact hb
  | wakeCondition i w hw hp => exact blocks_of_awake s i w .top _ hw hp rfl rfl hb
  | wakePause i w hw hp =>
      exact blocks_of_setPosition s i w .wokenPause hw
        (fun _ => ne_exited_of_position hp rfl) (fun _ => Or.inr (by rw [hp]; rfl)) hb

/-- `stop` is never taken back. -/
theorem stop_of_move (s s' : Pool α) (a : Act α) (h : Move s a s') (hs : s.stop = true) :
    s'.stop = true := by
  cases h with
  | shutdown => rfl
  | finish => exact Bool.or_eq_true_iff.mpr (Or.inl hs)
  | _ => exact hs

/-- In a stopped pool that does not block, sleepers are owed a notification. -/
theorem not_stuck (s : Pool α) (hs : Owed s) (hstop : s.stop = true) (hb : ¬ ShutdownBlocks s) :
    ¬ Stuck s := by
  rintro ⟨_, ⟨w, hw, hlive⟩, hasleep, _, hrn, hsh⟩
  rcases hasleep w hw with hexit | hsleep
  · exact hlive hexit
  · -- The notification owed to the sleeper is not on its way, by `Stuck`.
    rcases isAsleep_cases _ hsleep with hc | hc
    · exact hsh (hs.condition hstop ⟨w, hw, hc⟩)
    · cases hpaused : s.paused with
      | false =>
          have hpos := hs.pause hpaused ⟨w, hw, hc⟩
          omega
      | true => exact hb ⟨hpaused, w, hw, hlive, Or.inr (by rw [hc]; rfl)⟩

/-! ### A shutdown that blocks -/

/-- How far a worker is from the end or from sleeping on `pauseCondition`. -/
def Position.weight : Position α → Nat
  | .running _ => 4
  | .finished => 3
  | .sleepCondition => 2
  | .top => 1
  | _ => 0

/-- The worker was woken in `pauseCondition.wait`. -/
def Position.isWokenPause : Position α → Bool
  | .wokenPause => true
  | _ => false

/-- The call has still to notify the workers. -/
def ShutdownCall.isNotifying : ShutdownCall → Bool
  | .notifying => true
  | _ => false

/-- The notifications to be issued, and the way the workers have to go. -/
def Pool.backlog (s : Pool α) : Nat :=
  s.enqueueNotifies + s.resumeNotifies + s.shutdowns.countP ShutdownCall.isNotifying +
    (s.workers.map (fun w => w.position.weight)).sum

/-- How far the pool is from rest. A worker that returns from the last task
    wakes those on `pauseCondition`, so they count only after the rest. -/
def rank (s : Pool α) : Nat ×ₗ Nat :=
  toLex (s.backlog, s.workers.countP (fun w => w.position.isWokenPause))

/-- A shutdown is under way in a pool that blocks. -/
structure Halting (s : Pool α) : Prop where
  stop : s.stop = true
  free : s.queueMutex = none
  blocks : ShutdownBlocks s
  called : .notifying ∈ s.shutdowns ∨ ∃ next, .joining next ∈ s.shutdowns

/-- A step towards rest is possible. -/
def Advances (s : Pool α) : Prop :=
  ∃ a t, NoCall s a ∧ (machine α).step s a = some t ∧ Halting t ∧ rank t < rank s

theorem rank_lt_of_backlog {s t : Pool α} (h : t.backlog < s.backlog) : rank t < rank s :=
  Prod.Lex.toLex_lt_toLex.mpr (Or.inl h)

/-- A worker that goes on keeps the pool blocked, if it does not return before
    the tasks are done and does not stop waiting. -/
theorem blocks_setPosition (s : Pool α) (i : Nat) (w : Worker α) (p q : Position α)
    (hw : s.workers[i]? = some w) (hq : w.position = q)
    (hlive : s.tasks ≠ [] → p.isExited = false)
    (hwait : q.inPauseWait = true → p.isExited = false ∧ p.inPauseWait = true)
    (h : ShutdownBlocks s) : ShutdownBlocks (s.setPosition i p) := by
  rcases h with ⟨hpaused, v, hv, hvlive, hvwait⟩
  by_cases hvw : v = w
  · -- It is this worker that blocks, and it goes on blocking.
    refine ⟨hpaused, _, ListModify.mem_modify_self _ hw, ?_⟩
    rw [hvw, hq] at hvwait
    rcases hvwait with htasks | hin
    · exact ⟨ne_exited_of_position rfl (hlive htasks), Or.inl htasks⟩
    · exact ⟨ne_exited_of_position rfl (hwait hin).1, Or.inr (hwait hin).2⟩
  · exact ⟨hpaused, v, ListModify.mem_modify_of_ne hw hv hvw, hvlive, hvwait⟩

/-- Moving one worker to a lighter position lowers the backlog. -/
theorem backlog_setPosition_lt (s : Pool α) (i : Nat) (w : Worker α) (p q : Position α)
    (hw : s.workers[i]? = some w) (hq : w.position = q) (hlt : p.weight < q.weight) :
    (s.setPosition i p).backlog < s.backlog := by
  have hsum := ListModify.sum_modify (fun v : Worker α => v.position.weight)
    (fun v => { v with position := p }) hw
  rw [hq] at hsum
  simp only [Pool.backlog, Pool.setPosition] at hsum ⊢
  omega

theorem weight_wakePause (w : Worker α) :
    w.wakePause.position.weight = w.position.weight := by
  cases w with
  | mk position joinable => cases position <;> rfl

theorem weight_wakeCondition (w : Worker α) :
    w.wakeCondition.position.weight ≤ w.position.weight := by
  cases w with
  | mk position joinable =>
      cases position <;> simp only [Worker.wakeCondition, Position.weight] <;> omega

theorem backlog_notifyAllPause (s : Pool α) : s.notifyAllPause.backlog = s.backlog := by
  simp only [Pool.backlog, Pool.notifyAllPause, List.map_map, Function.comp_def, weight_wakePause]

/-- `shutdown` issues its notification. -/
theorem advances_notifyShutdown (s : Pool α) (hs : Halting s) (h : .notifying ∈ s.shutdowns) :
    Advances s := by
  rcases List.getElem?_of_mem h with ⟨k, hk⟩
  have hstep : (machine α).step s (.notifyShutdown k) =
      some { s.notifyAllCondition with shutdowns := s.shutdowns.set k (.joining 0) } := by
    simp only [machine, step, hk]
  rcases List.getElem?_eq_some_iff.mp hk with ⟨hlt, _⟩
  refine ⟨.notifyShutdown k, _, rfl, hstep, ⟨hs.stop, hs.free,
    (blocks_notifyAllCondition s).mpr hs.blocks, Or.inr ⟨0, List.mem_set hlt _⟩⟩,
    rank_lt_of_backlog ?_⟩
  have hcount := ListModify.countP_modify ShutdownCall.isNotifying
    (fun _ => ShutdownCall.joining 0) hk
  -- One notification less, and those it wakes are a step closer.
  have hsum : (s.workers.map (fun w => w.wakeCondition.position.weight)).sum ≤
      (s.workers.map (fun w => w.position.weight)).sum :=
    List.sum_le_sum (fun w _ => weight_wakeCondition w)
  rw [← List.set_eq_modify] at hcount
  simp only [ShutdownCall.isNotifying, if_true, Bool.false_eq_true, if_false] at hcount
  simp only [Pool.backlog, Pool.notifyAllCondition, List.map_map, Function.comp_def]
  omega

/-- `resume` issues its notification. -/
theorem advances_notifyResume (s : Pool α) (hs : Halting s) (n : Nat)
    (hn : s.resumeNotifies = n + 1) : Advances s := by
  have hstep : (machine α).step s .notifyResume =
      some { s.notifyAllPause with resumeNotifies := n } := by
    simp only [machine, step, hn]
  refine ⟨.notifyResume, _, rfl, hstep, ⟨hs.stop, hs.free, (blocks_notifyAllPause s).mpr hs.blocks,
    hs.called⟩, rank_lt_of_backlog ?_⟩
  have hback := backlog_notifyAllPause s
  simp only [Pool.backlog, Pool.notifyAllPause] at hback ⊢
  omega

/-- `enqueue` issues its notification. -/
theorem advances_notifyOne (s : Pool α) (hs : Halting s) (n : Nat)
    (hn : s.enqueueNotifies = n + 1) : Advances s := by
  rcases step_notifyOne s n hn with hstep | ⟨i, w, hw, hp, hstep⟩
  · refine ⟨.notifyOne 0, _, rfl, hstep, ⟨hs.stop, hs.free, hs.blocks, hs.called⟩,
      rank_lt_of_backlog ?_⟩
    simp only [Pool.backlog]
    omega
  · refine ⟨.notifyOne i, _, rfl, hstep, ⟨hs.stop, hs.free, ?_, hs.called⟩,
      rank_lt_of_backlog ?_⟩
    · exact blocks_setPosition s i w .top _ hw hp (fun _ => rfl)
        (fun hin => absurd hin Bool.false_ne_true) hs.blocks
    · have hlt := backlog_setPosition_lt s i w .top _ hw hp (Nat.lt_succ_self 1)
      simp only [Pool.backlog, Pool.setPosition] at hlt ⊢
      omega

/-- A busy worker goes on: it finishes its task, retires, or takes its leave
    at the top of the loop. -/
theorem advances_work (s : Pool α) (hs : Halting s) (i : Nat) (w : Worker α)
    (hw : s.workers[i]? = some w) (hbusy : 0 < w.position.weight)
    (hne : w.position ≠ .sleepCondition) : Advances s := by
  cases hp : w.position with
  | sleepCondition => exact absurd hp hne
  | sleepPause => rw [hp] at hbusy; exact absurd hbusy (Nat.lt_irrefl 0)
  | wokenPause => rw [hp] at hbusy; exact absurd hbusy (Nat.lt_irrefl 0)
  | exited => rw [hp] at hbusy; exact absurd hbusy (Nat.lt_irrefl 0)
  | running task =>
      refine ⟨.work i, _, rfl, step_finishTask s i w task hw hp,
        ⟨Bool.or_eq_true_iff.mpr (Or.inl hs.stop), hs.free, ?_,
        hs.called⟩, rank_lt_of_backlog ?_⟩
      · exact blocks_setPosition s i w .finished _ hw hp (fun _ => rfl)
          (fun hin => absurd hin Bool.false_ne_true) hs.blocks
      · exact backlog_setPosition_lt s i w .finished _ hw hp (Nat.lt_succ_self 3)
  | finished =>
      have hlt := backlog_setPosition_lt s i w .top _ hw hp
        (by simp only [Position.weight]; omega)
      have hblocks := blocks_setPosition s i w .top _ hw hp (fun _ => rfl)
        (fun hin => absurd hin Bool.false_ne_true) hs.blocks
      have hstep := step_retire s i w hs.free hw hp
      by_cases hlast : (s.tasks.isEmpty && s.activeThreads - 1 == 0) = true
      · rw [if_pos hlast] at hstep
        refine ⟨.work i, _, rfl, hstep, ⟨hs.stop, hs.free, (blocks_notifyAllPause _).mpr hblocks,
          hs.called⟩, rank_lt_of_backlog ?_⟩
        rw [backlog_notifyAllPause]
        exact hlt
      · rw [if_neg hlast] at hstep
        exact ⟨.work i, _, rfl, hstep, ⟨hs.stop, hs.free, hblocks, hs.called⟩,
          rank_lt_of_backlog hlt⟩
  | top =>
      -- In a stopped and paused pool the worker leaves, or sleeps over the tasks.
      by_cases ht : s.tasks = []
      · refine ⟨.work i, _, rfl, step_exit s i w hs.free hw hp hs.stop ht,
          ⟨hs.stop, hs.free, ?_, hs.called⟩, rank_lt_of_backlog ?_⟩
        · exact blocks_setPosition s i w .exited _ hw hp (fun hne => absurd ht hne)
            (fun hin => absurd hin Bool.false_ne_true) hs.blocks
        · exact backlog_setPosition_lt s i w .exited _ hw hp (Nat.lt_succ_self 0)
      · refine ⟨.work i, _, rfl, step_sleepPause s i w hs.free hw hp hs.stop hs.blocks.1 ht,
          ⟨hs.stop, hs.free, ?_, hs.called⟩, rank_lt_of_backlog ?_⟩
        · exact blocks_setPosition s i w .sleepPause _ hw hp (fun _ => rfl)
            (fun hin => absurd hin Bool.false_ne_true) hs.blocks
        · exact backlog_setPosition_lt s i w .sleepPause _ hw hp (Nat.lt_succ_self 0)

/-- A worker woken on `pauseCondition` finds the pool paused and sleeps
    again. -/
theorem advances_sleepAgain (s : Pool α) (hs : Halting s) (i : Nat) (w : Worker α)
    (hw : s.workers[i]? = some w) (hp : w.position = .wokenPause) : Advances s := by
  have hstep : (machine α).step s (.work i) = some (s.setPosition i .sleepPause) := by
    simp only [machine, step, work, hw, hp, recheckPause_free i s hs.free, hs.blocks.1, if_true,
      commit]
  refine ⟨.work i, _, rfl, hstep, ⟨hs.stop, hs.free, ?_, hs.called⟩,
    Prod.Lex.toLex_lt_toLex.mpr (Or.inr ⟨?_, ?_⟩)⟩
  · exact blocks_setPosition s i w .sleepPause _ hw hp (fun _ => rfl) (fun _ => ⟨rfl, rfl⟩)
      hs.blocks
  · have hsum := ListModify.sum_modify (fun v : Worker α => v.position.weight)
      (fun v => { v with position := .sleepPause }) hw
    rw [hp] at hsum
    simp only [Pool.backlog, Pool.setPosition]
    exact congrArg _ hsum
  · have hcount := ListModify.countP_modify (fun v : Worker α => v.position.isWokenPause)
      (fun v => { v with position := .sleepPause }) hw
    rw [hp] at hcount
    exact Nat.lt_of_succ_le (Nat.le_of_eq hcount)

/-- Where no step leads closer to rest, the shutdown is stuck. -/
theorem advances_of_not_stuck (s : Pool α) (hs : Halting s) (h : ¬ Stuck s) : Advances s := by
  by_cases hsh : .notifying ∈ s.shutdowns
  · exact advances_notifyShutdown s hs hsh
  · cases hrn : s.resumeNotifies with
    | succ n => exact advances_notifyResume s hs n hrn
    | zero =>
        cases hen : s.enqueueNotifies with
        | succ n => exact advances_notifyOne s hs n hen
        | zero =>
            -- No notification is left, so the workers decide.
            by_contra hno
            have hrest : ∀ w ∈ s.workers,
                w.position = .exited ∨ w.position.isAsleep = true := by
              intro w hmem
              rcases List.getElem?_of_mem hmem with ⟨i, hw⟩
              cases hp : w.position with
              | exited => exact Or.inl rfl
              | sleepCondition => exact Or.inr rfl
              | sleepPause => exact Or.inr rfl
              | wokenPause => exact absurd (advances_sleepAgain s hs i w hw hp) hno
              | _ =>
                  have hne : w.position ≠ .sleepCondition := by
                    simp only [hp, ne_eq, reduceCtorEq, not_false_eq_true]
                  exact absurd (advances_work s hs i w hw (by rw [hp]; exact Nat.succ_pos _) hne)
                    hno
            rcases hs.blocks with ⟨_, w, hw, hlive, _⟩
            exact h ⟨hs.called.resolve_left hsh, ⟨w, hw, hlive⟩, hrest, hen, hrn, hsh⟩

/-- A shutdown called in a pool that blocks can get stuck. -/
theorem stuck_of_blocks (s : Pool α) (hs : Halting s) :
    ∃ u, (machine α).ReachesBy NoCall s u ∧ Stuck u := by
  rcases Machine.reachesBy_terminal (M := machine α) (P := NoCall) rank (I := Halting)
    (T := Stuck) advances_of_not_stuck s hs with ⟨u, hu, _, hstuck⟩
  exact ⟨u, hu, hstuck⟩

/-- A shutdown can get stuck exactly when it is called in a paused pool that
    has a worker with tasks left for it, or already waiting for `resume`. -/
theorem shutdown_stuck_iff (threads : Nat) (s t : Pool α) (self : Thread)
    (h : Reachable threads s) (hcall : shutdown self s = .ok () t) :
    (∃ u, (machine α).ReachesBy NoCall t u ∧ Stuck u) ↔ ShutdownBlocks s := by
  have hstep : (machine α).step s (.call self .shutdown) = some t := by
    simp only [machine, step, Op.exec, hcall, commit]
  have hreach : Reachable threads t := Machine.reaches_step h hstep
  rcases shutdown_ok self s t hcall with ⟨hfree, ht⟩
  have hstop : t.stop = true := by rw [ht]
  constructor
  · -- Along a run without calls, a pool that does not block stays so.
    rintro ⟨u, hu, hstuck⟩
    by_contra hb
    have hu_owed := reachable_owed threads u
      (Machine.reaches_trans hreach (Machine.reaches_of_reachesBy hu))
    have hkeep : u.stop = true ∧ ¬ ShutdownBlocks u := by
      refine Machine.invariant (I := fun v => v.stop = true ∧ ¬ ShutdownBlocks v) hu
        ⟨hstop, by rw [ht]; exact hb⟩ (fun v a v' hv ha hstep => ?_)
      have hmove := move_of_step v v' a hstep
      exact ⟨stop_of_move v v' a hmove hv.1, fun hb' => hv.2 (blocks_of_move v v' a hmove ha hb')⟩
    exact not_stuck u hu_owed hkeep.1 hkeep.2 hstuck
  · intro hb
    refine stuck_of_blocks t ⟨hstop, by rw [ht]; exact hfree, by rw [ht]; exact hb, Or.inl ?_⟩
    rw [ht]
    exact List.mem_append_right _ List.mem_cons_self

/-- A pool of one worker with one task, not paused: `shutdown` returns once
    the task is done. -/
theorem shutdown_stuck_iff_one : ∃ s t : Pool Nat,
    (machine Nat).execute (create Nat 1) [.call (.caller 0) (.enqueue 7)] = some s ∧
      shutdown (.caller 0) s = .ok () t ∧
      ¬ ∃ u, (machine Nat).ReachesBy NoCall t u ∧ Stuck u :=
  ⟨_, _, rfl, rfl, fun hu => absurd ((shutdown_stuck_iff 1 _ _ (.caller 0)
    (Machine.reaches_of_execute [.call (.caller 0) (.enqueue 7)] _ _ rfl) rfl).mp hu) (by decide)⟩

/-- A pool of one worker is paused, gets a task and is shut down: the worker
    goes to sleep on `pauseCondition` and `shutdown` waits to join it. -/
theorem shutdown_stuck_paused : ∃ s : Pool Nat,
    (machine Nat).execute (create Nat 1)
      [.call (.caller 0) .pause, .call (.caller 0) (.enqueue 7), .notifyOne 0,
        .call (.caller 0) .shutdown, .notifyShutdown 0, .work 0] = some s ∧ Stuck s :=
  ⟨_, rfl, ⟨0, by decide⟩, by decide, by decide, rfl, rfl, by decide⟩

end ThreadPool

end EpollServer
