import EpollServer.Theory.ThreadPool.Conservation
import EpollServer.Theory.ThreadPool.Locking
import EpollServer.Theory.ThreadPool.Shutdown

/-!
# Draining

What is left when `shutdown` returns: nothing.

A worker returns only from a stopped pool with an empty queue, and both last:
`stop` is never taken back, and `enqueue` on a stopped pool throws. So the
first worker that has gone shows that no task is left and none can come
(`Placed`). `shutdown` returns when it has joined every worker, and it joins a
worker after that worker has gone (`Joined`), so that in the end no worker
holds a task either, and every accepted task is among the finished ones.

A `resize` after the shutdown would add workers that nobody joins. The guard
`GrowsBefore` leaves it out, along with the shrinking one that never returns.

## Main definitions

* `GrowsBefore`: The guard: `resize` only before `stop`, and only to grow.
* `Placed`: What the place of a worker says about the pool.
* `Joined`: What the place of a `shutdown` says about the workers.

## Theorems

* `move_placed`: Every transition keeps `Placed`.
* `move_joined`: Every guarded one keeps `Joined`.
* `accepted_of_stop`: Nothing is accepted after `stop`.
* `shutdown_drains`: After `shutdown` nothing is left.
-/

namespace EpollServer

namespace ThreadPool

variable {α : Type}

/-- `resize` is called before `stop`, and not to shrink. -/
def GrowsBefore (s : Pool α) (a : Act α) : Prop :=
  ∀ self newSize, a = .call self (.resize newSize) →
    s.stop = false ∧ s.workers.length ≤ newSize

/-! ### Where workers can be -/

/-- A worker that has gone shows that the pool is stopped and its queue empty,
    and one in `pauseCondition.wait` that it is stopped. -/
structure Placed (s : Pool α) : Prop where
  left : ∀ w ∈ s.workers, w.position = .exited → s.stop = true ∧ s.tasks = []
  waits : ∀ w ∈ s.workers, w.position.inPauseWait = true → s.stop = true

/-- A change of one worker. -/
theorem modify_placed (s : Pool α) (i : Nat) (w : Worker α) (f : Worker α → Worker α)
    (hs : Placed s) (hw : s.workers[i]? = some w)
    (hleft : (f w).position = .exited → s.stop = true ∧ s.tasks = [])
    (hwaits : (f w).position.inPauseWait = true → s.stop = true) :
    Placed { s with workers := s.workers.modify i f } := by
  refine ⟨fun v hv hp => ?_, fun v hv hp => ?_⟩
  · rcases ListModify.mem_of_mem_modify hw hv with rfl | hold
    · exact hleft hp
    · exact hs.left v hold hp
  · rcases ListModify.mem_of_mem_modify hw hv with rfl | hold
    · exact hwaits hp
    · exact hs.waits v hold hp

/-- A worker that goes on inside the loop. -/
theorem setPosition_placed (s : Pool α) (i : Nat) (w : Worker α) (p : Position α)
    (hs : Placed s) (hw : s.workers[i]? = some w) (hp : p.isExited = false)
    (hwaits : p.inPauseWait = true → s.stop = true) : Placed (s.setPosition i p) := by
  refine modify_placed s i w (fun v => { v with position := p }) hs hw (fun hexit => ?_) hwaits
  have hexit : p = .exited := hexit
  rw [hexit] at hp
  exact absurd hp.symm Bool.false_ne_true

/-- A worker that goes on and is not in `pauseCondition.wait`. -/
theorem setPosition_off_placed (s : Pool α) (i : Nat) (w : Worker α) (p : Position α)
    (hs : Placed s) (hw : s.workers[i]? = some w) (hp : p.isExited = false)
    (hwait : p.inPauseWait = false) : Placed (s.setPosition i p) :=
  setPosition_placed s i w p hs hw hp
    (fun hin => absurd (hwait.symm.trans hin) Bool.false_ne_true)

theorem map_placed (s : Pool α) (f : Worker α → Worker α) (hs : Placed s)
    (hexit : ∀ w, (f w).position ≠ .exited ↔ w.position ≠ .exited)
    (hwait : ∀ w, (f w).position.inPauseWait = w.position.inPauseWait) :
    Placed { s with workers := s.workers.map f } := by
  refine ⟨fun v hv hp => ?_, fun v hv hp => ?_⟩
  · rcases List.mem_map.mp hv with ⟨w, hw, rfl⟩
    exact hs.left w hw (not_not.mp (mt (hexit w).mpr (not_not.mpr hp)))
  · rcases List.mem_map.mp hv with ⟨w, hw, rfl⟩
    rw [hwait] at hp
    exact hs.waits w hw hp

theorem notifyAllPause_placed (s : Pool α) (hs : Placed s) : Placed s.notifyAllPause := by
  have h := map_placed s Worker.wakePause hs ne_exited_wakePause inPauseWait_wakePause
  exact ⟨h.left, h.waits⟩

theorem notifyAllCondition_placed (s : Pool α) (hs : Placed s) : Placed s.notifyAllCondition :=
  map_placed s Worker.wakeCondition hs ne_exited_wakeCondition inPauseWait_wakeCondition

/-- Nobody has gone from a pool that is not stopped. -/
theorem not_exited (s : Pool α) (hs : Placed s) (hstop : s.stop = false) (w : Worker α)
    (hw : w ∈ s.workers) : w.position ≠ .exited :=
  fun hp => absurd (hstop.symm.trans (hs.left w hw hp).1) Bool.false_ne_true

/-- Every transition keeps `Placed`. -/
theorem move_placed (s s' : Pool α) (a : Act α) (hs : Placed s) (h : Move s a s') :
    Placed s' := by
  cases h with
  | relock | pause | resume | waitForCompletion | shrink | notifyNobody | joinReturn | joinThrow
  | recheck | wakeCompletion => exact ⟨hs.left, hs.waits⟩
  | refuse => exact hs
  | enqueue self body _ hstop =>
      -- Nobody has gone yet, so nobody notices the new task.
      exact ⟨fun w hw hp => absurd hp (not_exited s hs hstop w hw), hs.waits⟩
  | shutdown => exact ⟨fun w hw hp => ⟨rfl, (hs.left w hw hp).2⟩, fun _ _ _ => rfl⟩
  | query => exact hs
  | grow self newSize =>
      refine ⟨fun w hw hp => ?_, fun w hw hp => ?_⟩
      · rcases mem_grown hw with hold | rfl
        · exact hs.left w hold hp
        · simp only [Worker.spawned, reduceCtorEq] at hp
      · rcases mem_grown hw with hold | rfl
        · exact hs.waits w hold hp
        · exact absurd hp Bool.false_ne_true
  | sleepCondition i w _ hw => exact setPosition_off_placed s i w _ hs hw rfl rfl
  | exit i w _ hw _ hstop htasks =>
      exact modify_placed s i w _ hs hw (fun _ => ⟨hstop, htasks⟩)
        (fun hin => absurd hin Bool.false_ne_true)
  | sleepPause i w _ hw _ hstop => exact setPosition_placed s i w _ hs hw rfl (fun _ => hstop)
  | dequeue i w task rest _ hw _ _ ht =>
      have h := setPosition_off_placed s i w (.running task) hs hw rfl rfl
      -- Whoever has gone has left an empty queue.
      refine ⟨fun v hv hp => ?_, h.waits⟩
      have hempty := (h.left v hv hp).2
      exact absurd (ht.symm.trans hempty) (List.cons_ne_nil _ _)
  | sleepAgain i w _ hw hp =>
      refine setPosition_placed s i w _ hs hw rfl (fun _ => ?_)
      exact hs.waits w (List.mem_of_getElem? hw) (by rw [hp]; rfl)
  | unpause i w _ hw => exact setPosition_off_placed s i w _ hs hw rfl rfl
  | finish i w task hw =>
      have h := setPosition_off_placed s i w .finished hs hw rfl rfl
      exact ⟨fun v hv hp => ⟨Bool.or_eq_true_iff.mpr (Or.inl (h.left v hv hp).1),
        (h.left v hv hp).2⟩, fun v hv hp => Bool.or_eq_true_iff.mpr (Or.inl (h.waits v hv hp))⟩
  | retire i w _ hw =>
      have h := setPosition_off_placed s i w .top hs hw rfl rfl
      exact ⟨h.left, h.waits⟩
  | retireLast i w _ hw =>
      have h := setPosition_off_placed s i w .top hs hw rfl rfl
      exact notifyAllPause_placed _ ⟨h.left, h.waits⟩
  | notifyOne i n w _ hw =>
      have h := setPosition_off_placed s i w .top hs hw rfl rfl
      exact ⟨h.left, h.waits⟩
  | notifyResume =>
      have h := notifyAllPause_placed s hs
      exact ⟨h.left, h.waits⟩
  | notifyShutdown =>
      have h := notifyAllCondition_placed s hs
      exact ⟨h.left, h.waits⟩
  | join k next w _ hw =>
      have h := modify_placed s next w (fun v => { v with joinable := false }) hs hw
        (hs.left w (List.mem_of_getElem? hw)) (hs.waits w (List.mem_of_getElem? hw))
      exact ⟨h.left, h.waits⟩
  | wakeCondition i w hw => exact setPosition_off_placed s i w _ hs hw rfl rfl
  | wakePause i w hw hp =>
      refine setPosition_placed s i w _ hs hw rfl (fun _ => ?_)
      exact hs.waits w (List.mem_of_getElem? hw) (by rw [hp]; rfl)

theorem create_placed (threads : Nat) : Placed (create α threads) := by
  refine ⟨fun w hw hp => ?_, fun w hw hp => ?_⟩
  · rw [List.eq_of_mem_replicate hw] at hp
    simp only [Worker.spawned, reduceCtorEq] at hp
  · rw [List.eq_of_mem_replicate hw] at hp
    exact absurd hp Bool.false_ne_true

theorem reachable_placed (threads : Nat) (s : Pool α) (h : Reachable threads s) : Placed s :=
  Machine.invariant h (create_placed threads)
    (fun t a u ht _ hstep => move_placed t u a ht (move_of_step t u a hstep))

/-! ### Where shutdowns can be -/

/-- A `shutdown` under way shows that the pool is stopped; one in its join loop
    that the workers before the next one have gone, and one that has returned
    that all have. -/
structure Joined (s : Pool α) : Prop where
  stopped : s.shutdowns ≠ [] → s.stop = true
  joining : ∀ next, .joining next ∈ s.shutdowns → ∀ i w, i < next → s.workers[i]? = some w →
    w.position = .exited
  returned : .returned ∈ s.shutdowns → ∀ w ∈ s.workers, w.position = .exited

/-- A change of the workers that keeps those that have gone. -/
theorem joined_workers (s : Pool α) (l : List (Worker α)) (hs : Joined s)
    (hgone : ∀ (i : Nat) (w' : Worker α), l[i]? = some w' →
      ∃ w, s.workers[i]? = some w ∧ (w.position = .exited → w'.position = .exited)) :
    Joined { s with workers := l } := by
  refine ⟨hs.stopped, fun next hnext i w' hlt hw' => ?_, fun hreturned w' hw' => ?_⟩
  · rcases hgone i w' hw' with ⟨w, hw, hkeep⟩
    exact hkeep (hs.joining next hnext i w hlt hw)
  · rcases List.getElem?_of_mem hw' with ⟨i, hi⟩
    rcases hgone i w' hi with ⟨w, hw, hkeep⟩
    exact hkeep (hs.returned hreturned w (List.mem_of_getElem? hw))

/-- A change of one worker that has not gone, or stays gone. -/
theorem modify_joined (s : Pool α) (i : Nat) (w : Worker α) (f : Worker α → Worker α)
    (hs : Joined s) (hw : s.workers[i]? = some w)
    (hgone : w.position = .exited → (f w).position = .exited) :
    Joined { s with workers := s.workers.modify i f } := by
  refine joined_workers s _ hs (fun j w' hw' => ?_)
  by_cases hij : i = j
  · rw [← hij, List.getElem?_modify_eq, hw, Option.map_eq_map, Option.map_some,
      Option.some.injEq] at hw'
    rw [← hij, ← hw']
    exact ⟨w, hw, hgone⟩
  · rw [List.getElem?_modify_ne _ _ hij] at hw'
    exact ⟨w', hw', fun h => h⟩

theorem setPosition_joined (s : Pool α) (i : Nat) (w : Worker α) (p q : Position α)
    (hs : Joined s) (hw : s.workers[i]? = some w) (hq : w.position = q)
    (hlive : q.isExited = false) : Joined (s.setPosition i p) :=
  modify_joined s i w (fun v => { v with position := p }) hs hw
    (fun hexit => absurd hexit (ne_exited_of_position hq hlive))

theorem map_joined (s : Pool α) (f : Worker α → Worker α) (hs : Joined s)
    (hexit : ∀ w, (f w).position ≠ .exited ↔ w.position ≠ .exited) :
    Joined { s with workers := s.workers.map f } := by
  refine joined_workers s _ hs (fun i w' hw' => ?_)
  rw [List.getElem?_map, Option.map_eq_some_iff] at hw'
  rcases hw' with ⟨w, hw, rfl⟩
  exact ⟨w, hw, fun hp => not_not.mp (mt (hexit w).mp (not_not.mpr hp))⟩

/-- A `shutdown` that goes on. -/
theorem set_joined (s : Pool α) (k : Nat) (c : ShutdownCall) (hs : Joined s)
    (hk : s.shutdowns[k]? ≠ none)
    (hjoining : ∀ next, c = .joining next → ∀ i w, i < next → s.workers[i]? = some w →
      w.position = .exited)
    (hreturned : c = .returned → ∀ w ∈ s.workers, w.position = .exited) :
    Joined { s with shutdowns := s.shutdowns.set k c } := by
  refine ⟨fun _ => hs.stopped (fun hnil => hk ?_), fun next hnext => ?_, fun hmem => ?_⟩
  · rw [hnil, List.getElem?_nil]
  · rcases List.mem_or_eq_of_mem_set hnext with hold | hnew
    · exact hs.joining next hold
    · exact hjoining next hnew.symm
  · rcases List.mem_or_eq_of_mem_set hmem with hold | hnew
    · exact hs.returned hold
    · exact hreturned hnew.symm

/-- Every guarded transition keeps `Joined`. -/
theorem move_joined (s s' : Pool α) (a : Act α) (hs : Joined s) (ha : GrowsBefore s a)
    (h : Move s a s') : Joined s' := by
  cases h with
  | relock | enqueue | pause | resume | waitForCompletion | shrink | notifyNobody | recheck
  | wakeCompletion =>
      exact ⟨hs.stopped, hs.joining, hs.returned⟩
  | refuse => exact hs
  | shutdown =>
      refine ⟨fun _ => rfl, fun next hnext => ?_, fun hmem => ?_⟩
      · rcases List.mem_append.mp hnext with hold | hnew
        · exact hs.joining next hold
        · simp only [List.mem_singleton, reduceCtorEq] at hnew
      · rcases List.mem_append.mp hmem with hold | hnew
        · exact hs.returned hold
        · simp only [List.mem_singleton, reduceCtorEq] at hnew
  | query => exact hs
  | grow self newSize =>
      -- Before `stop` there is no `shutdown` that could wait for anybody.
      have hnone : s.shutdowns = [] := by
        by_contra hne
        exact absurd ((ha self newSize rfl).1.symm.trans (hs.stopped hne)) Bool.false_ne_true
      refine ⟨hs.stopped, fun next hnext => ?_, fun hmem => ?_⟩
      · rw [hnone] at hnext
        exact absurd hnext List.not_mem_nil
      · rw [hnone] at hmem
        exact absurd hmem List.not_mem_nil
  | sleepCondition i w _ hw hp => exact setPosition_joined s i w _ _ hs hw hp rfl
  | exit i w _ hw hp => exact setPosition_joined s i w _ _ hs hw hp rfl
  | sleepPause i w _ hw hp => exact setPosition_joined s i w _ _ hs hw hp rfl
  | dequeue i w task rest _ hw hp =>
      have h := setPosition_joined s i w (.running task) _ hs hw hp rfl
      exact ⟨h.stopped, h.joining, h.returned⟩
  | sleepAgain i w _ hw hp => exact setPosition_joined s i w _ _ hs hw hp rfl
  | unpause i w _ hw hp => exact setPosition_joined s i w _ _ hs hw hp rfl
  | finish i w task hw hp =>
      have h := setPosition_joined s i w .finished _ hs hw hp rfl
      exact ⟨fun hne => Bool.or_eq_true_iff.mpr (Or.inl (h.stopped hne)), h.joining, h.returned⟩
  | retire i w _ hw hp =>
      have h := setPosition_joined s i w .top _ hs hw hp rfl
      exact ⟨h.stopped, h.joining, h.returned⟩
  | retireLast i w _ hw hp =>
      have h := setPosition_joined s i w .top _ hs hw hp rfl
      have hall := map_joined _ Worker.wakePause h ne_exited_wakePause
      exact ⟨hall.stopped, hall.joining, hall.returned⟩
  | notifyOne i n w _ hw hp =>
      have h := setPosition_joined s i w .top _ hs hw hp rfl
      exact ⟨h.stopped, h.joining, h.returned⟩
  | notifyResume =>
      have h := map_joined s Worker.wakePause hs ne_exited_wakePause
      exact ⟨h.stopped, h.joining, h.returned⟩
  | notifyShutdown k hk =>
      have h := map_joined s Worker.wakeCondition hs ne_exited_wakeCondition
      refine set_joined s.notifyAllCondition k (.joining 0) h ?_ ?_
        (fun hc => by simp only [reduceCtorEq] at hc)
      · exact fun hnone => absurd (hk.symm.trans hnone) (Option.some_ne_none _)
      · intro next hc i w hlt
        rw [← ShutdownCall.joining.inj hc] at hlt
        exact absurd hlt (Nat.not_lt_zero i)
  | joinReturn k next hk hlen =>
      have hall : ∀ w ∈ s.workers, w.position = .exited := by
        intro w hw
        rcases List.getElem?_of_mem hw with ⟨i, hi⟩
        have hlt := (List.getElem?_eq_some_iff.mp hi).1
        exact hs.joining next (List.mem_of_getElem? hk) i w (by omega) hi
      exact set_joined s k .returned hs
        (fun hnone => absurd (hk.symm.trans hnone) (Option.some_ne_none _))
        (fun _ hc => by simp only [reduceCtorEq] at hc) (fun _ => hall)
  | join k next w hk hw _ hp =>
      have h := modify_joined s next w (fun v => { v with joinable := false }) hs hw (fun h => h)
      refine set_joined _ k (.joining (next + 1)) h
        (fun hnone => absurd (hk.symm.trans hnone) (Option.some_ne_none _)) ?_
        (fun hc => by simp only [reduceCtorEq] at hc)
      intro m hc i v hlt hv
      rw [← ShutdownCall.joining.inj hc] at hlt
      rcases Nat.lt_succ_iff_lt_or_eq.mp hlt with hless | heq
      · exact h.joining next (List.mem_of_getElem? hk) i v hless hv
      · -- The worker that has just been joined.
        rw [heq, List.getElem?_modify_eq, hw, Option.map_eq_map, Option.map_some,
          Option.some.injEq] at hv
        rw [← hv]
        exact hp
  | joinThrow k next w hk =>
      exact set_joined s k .threw hs
        (fun hnone => absurd (hk.symm.trans hnone) (Option.some_ne_none _))
        (fun _ hc => by simp only [reduceCtorEq] at hc)
        (fun hc => by simp only [reduceCtorEq] at hc)
  | wakeCondition i w hw hp => exact setPosition_joined s i w _ _ hs hw hp rfl
  | wakePause i w hw hp => exact setPosition_joined s i w _ _ hs hw hp rfl

theorem create_joined (threads : Nat) : Joined (create α threads) :=
  ⟨fun hne => absurd rfl hne, fun _ hmem => absurd hmem List.not_mem_nil,
    fun hmem => absurd hmem List.not_mem_nil⟩

theorem reachesBy_joined (threads : Nat) (s : Pool α)
    (h : (machine α).ReachesBy GrowsBefore (create α threads) s) : Joined s :=
  Machine.invariant h (create_joined threads)
    (fun t a u ht ha hstep => move_joined t u a ht ha (move_of_step t u a hstep))

/-! ### After `stop` -/

/-- Nothing is accepted after `stop`. -/
theorem accepted_of_stop (s s' : Pool α) (a : Act α) (h : Move s a s') (hstop : s.stop = true) :
    s'.accepted = s.accepted := by
  cases h with
  | enqueue self body _ hf => exact absurd (hf.symm.trans hstop) Bool.false_ne_true
  | _ => rfl

/-- The pool never gets smaller. -/
theorem length_of_move (s s' : Pool α) (a : Act α) (h : Move s a s') :
    s.workers.length ≤ s'.workers.length := by
  cases h with
  | grow => simp only [List.length_append, Nat.le_add_right]
  | sleepCondition | exit | sleepPause | dequeue | sleepAgain | unpause | finish | retire
  | notifyOne | join | wakeCondition | wakePause =>
      simp only [Pool.setPosition, finishTask, List.length_modify, Nat.le_refl]
  | retireLast | notifyResume | notifyShutdown =>
      simp only [Pool.notifyAllPause, Pool.notifyAllCondition, Pool.setPosition, List.length_map,
        List.length_modify, Nat.le_refl]
  | _ => exact Nat.le_refl _

theorem reachable_length (threads : Nat) (s : Pool α) (h : Reachable threads s) :
    threads ≤ s.workers.length := by
  refine Machine.invariant (I := fun t : Pool α => threads ≤ t.workers.length) h ?_
    (fun t a u ht _ hstep => Nat.le_trans ht (length_of_move t u a (move_of_step t u a hstep)))
  exact Nat.le_of_eq List.length_replicate.symm

/-- Workers that have gone hold no task. -/
theorem held_of_exited (s : Pool α) (h : ∀ w ∈ s.workers, w.position = .exited) :
    s.held = [] ∧ s.active = 0 := by
  constructor
  · refine List.filterMap_eq_nil_iff.mpr (fun w hw => ?_)
    rw [h w hw]
    rfl
  · refine List.countP_eq_zero.mpr (fun w hw => ?_)
    rw [h w hw]
    exact Bool.false_ne_true

/-- The guard excludes the call of `resize` that keeps the mutex. -/
theorem noShrink_of_growsBefore (s : Pool α) (a : Act α) (h : GrowsBefore s a) : NoShrink s a := by
  rintro self op rfl ⟨newSize, rfl, hlt⟩
  have hle := (h self newSize rfl).2
  omega

/-- In a pool with a worker: when `shutdown` has returned, every worker has
    left its loop, the queue is empty, no worker counts as active, and every
    accepted task has finished. From the step that sets `stop` on, no task is
    accepted: every `enqueue` throws and changes nothing. -/
theorem shutdown_drains (threads : Nat) (hpos : 0 < threads) (s : Pool α)
    (h : (machine α).ReachesBy GrowsBefore (create α threads) s) :
    (.returned ∈ s.shutdowns → (∀ w ∈ s.workers, w.position = .exited) ∧ s.tasks = [] ∧
      s.activeThreads = 0 ∧ s.accepted.Perm s.finished) ∧
    (s.stop = true → ∀ t, (machine α).ReachesBy GrowsBefore s t →
      t.stop = true ∧ t.accepted = s.accepted ∧
        ∀ self body, enqueue self (.user body) t = .ok false t) := by
  have hreach : Reachable threads s := Machine.reaches_of_reachesBy h
  refine ⟨fun hreturned => ?_, fun hstop t ht => ?_⟩
  · have hgone := (reachesBy_joined threads s h).returned hreturned
    have hcons := reachable_conserved threads s hreach
    rcases held_of_exited s hgone with ⟨hheld, hactive⟩
    -- There is a worker, and it has gone.
    have htasks : s.tasks = [] := by
      have hlen := reachable_length threads s hreach
      have hne : s.workers ≠ [] := fun hnil => by rw [hnil, List.length_nil] at hlen; omega
      rcases List.exists_mem_of_ne_nil _ hne with ⟨w, hw⟩
      exact ((reachable_placed threads s hreach).left w hw (hgone w hw)).2
    refine ⟨hgone, htasks, by rw [hcons.active, hactive], ?_⟩
    -- With nothing queued and nothing held, what was accepted is finished.
    have hfifo := hcons.fifo
    have hperm := hcons.held
    rw [htasks, List.append_nil] at hfifo
    rw [hheld, List.append_nil] at hperm
    rw [hfifo]
    exact hperm
  · have hkeep : t.stop = true ∧ t.accepted = s.accepted := by
      refine Machine.invariant (I := fun u : Pool α => u.stop = true ∧ u.accepted = s.accepted) ht
        ⟨hstop, rfl⟩ (fun u a v hu _ hstep => ?_)
      have hmove := move_of_step u v a hstep
      exact ⟨stop_of_move u v a hmove hu.1, (accepted_of_stop u v a hmove hu.1).trans hu.2⟩
    refine ⟨hkeep.1, hkeep.2, fun self body => ?_⟩
    -- Only a shrinking `resize` keeps the mutex, and the guard excludes it.
    have hfree := (reachesBy_free threads t (Machine.reachesBy_mono noShrink_of_growsBefore
      (Machine.reachesBy_trans h ht))).1
    rw [enqueue_free self _ t hfree, if_pos hkeep.1]

/-- One worker, one task: the task is done, and `shutdown` returns. -/
theorem shutdown_drains_one : ∃ s : Pool Nat, .returned ∈ s.shutdowns ∧ s.tasks = [] ∧
    s.accepted = [.user 7] ∧ s.accepted.Perm s.finished := by
  have hrun := Machine.reachesBy_of_execute (M := machine Nat) (P := GrowsBefore)
    [.call (.caller 0) (.enqueue 7), .call (.caller 0) .shutdown, .work 0, .work 0, .work 0,
      .work 0, .notifyShutdown 0, .join 0, .join 0] (create Nat 1) _ (by
      intro a ha u self newSize heq
      rw [heq] at ha
      simp only [List.mem_cons, Act.call.injEq, reduceCtorEq, and_false, List.not_mem_nil,
        or_self] at ha) rfl
  have hdrain := (shutdown_drains 1 Nat.one_pos _ hrun).1 (by decide)
  exact ⟨_, by decide, hdrain.2.1, rfl, hdrain.2.2.2⟩

end ThreadPool

end EpollServer
