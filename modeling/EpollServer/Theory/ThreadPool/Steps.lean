import EpollServer.Core.ThreadPool
import EpollServer.Lib.ListModify

/-!
# What a Step of the Pool Can Do

The member functions in a state whose mutex is free, and the inversion of
`step` that every invariant of the pool is proved by.

A critical section starts by locking, so what it does depends first on the
owner of the mutex. `exec_owned` settles the owned case for every member
function at once: the owner faults, another thread waits. The `_free` lemmas
settle the other case, one for each function, and read as the function's
effect without the mutex, since a function that returns gives the mutex back.

`Move` lists the transitions: one constructor for each way through each piece
of code, with the condition it is taken under and the state it leads to.
`move_of_step` says that a step is one of these. Nothing after it unfolds a
member function again.

Two constructors carry the behaviour that is easy to miss. `shrink` is the
only transition that leaves the mutex owned: `resize` calls `enqueue` while
it holds the lock. `sleepPause` is the only way to `pauseCondition`, and it
needs `stop`: a paused pool that is not stopped never passes the predicate of
`condition.wait`, so its workers sleep there.

## Main definitions

* `Act.joiner`: The call of `shutdown` an action joins for.
* `Move`: The transitions of the pool.

## Theorems

* `exec_owned`: A member function called while the mutex is owned.
* `modify_free`, `query_free`: Critical sections that change or read the state.
* `enqueue_free`, `resize_free`, `takeTask_free`, `retire_free`: The effect
  of a function that finds the mutex free.
* `move_of_exec`: A call is one of the listed transitions.
* `move_of_work`: So is a step of a worker.
* `move_of_step`: So is every step.
* `mem_grown`: The workers after `resize` has added some.
* `step_finishTask`, `step_retire`, `step_exit`, `step_sleepPause`,
  `step_dequeue`, `step_notifyOne`: The steps a worker can take.
-/

namespace EpollServer

namespace ThreadPool

variable {α : Type}

/-- The call of `shutdown` whose join loop an action is about. -/
def Act.joiner : Act α → Option Nat
  | .join k => some k
  | _ => none

/-- The transitions of the pool. -/
inductive Move : Pool α → Act α → Pool α → Prop where
  /-- A thread that owns the mutex locks it again. -/
  | relock (s : Pool α) (a : Act α) (self : Thread) :
      s.queueMutex = some self → a.joiner = none →
      Move s a { s with fault := some (.relock self) }
  /-- `enqueue` on a stopped pool throws. -/
  | refuse (s : Pool α) (self : Thread) (body : α) :
      s.queueMutex = none → s.stop = true → Move s (.call self (.enqueue body)) s
  | enqueue (s : Pool α) (self : Thread) (body : α) :
      s.queueMutex = none → s.stop = false →
      Move s (.call self (.enqueue body))
        { s with tasks := s.tasks ++ [.user body], accepted := s.accepted ++ [.user body],
                 enqueueNotifies := s.enqueueNotifies + 1 }
  | pause (s : Pool α) (self : Thread) :
      s.queueMutex = none → Move s (.call self .pause) { s with paused := true }
  | resume (s : Pool α) (self : Thread) :
      s.queueMutex = none →
      Move s (.call self .resume)
        { s with paused := false, resumeNotifies := s.resumeNotifies + 1 }
  | shutdown (s : Pool α) (self : Thread) :
      s.queueMutex = none →
      Move s (.call self .shutdown)
        { s with stop := true, shutdowns := s.shutdowns ++ [.notifying] }
  | waitForCompletion (s : Pool α) (self : Thread) :
      s.queueMutex = none →
      Move s (.call self .waitForCompletion)
        { s with completions := s.completions ++ [s.completionCall] }
  /-- The getters, and `resize` to the size the pool has. -/
  | query (s : Pool α) (self : Thread) (op : Op α) :
      s.queueMutex = none → Move s (.call self op) s
  | grow (s : Pool α) (self : Thread) (newSize : Nat) :
      s.queueMutex = none → s.workers.length < newSize →
      Move s (.call self (.resize newSize))
        { s with
          workers := s.workers ++ List.replicate (newSize - s.workers.length) Worker.spawned }
  /-- `resize` to a smaller size calls `enqueue` under the lock. -/
  | shrink (s : Pool α) (self : Thread) (newSize : Nat) :
      s.queueMutex = none → newSize < s.workers.length →
      Move s (.call self (.resize newSize))
        { s with queueMutex := some self, fault := some (.relock self) }
  | sleepCondition (s : Pool α) (i : Nat) (w : Worker α) :
      s.queueMutex = none → s.workers[i]? = some w → w.position = .top →
      s.stop = false → s.paused = true ∨ s.tasks = [] →
      Move s (.work i) (s.setPosition i .sleepCondition)
  | exit (s : Pool α) (i : Nat) (w : Worker α) :
      s.queueMutex = none → s.workers[i]? = some w → w.position = .top →
      s.stop = true → s.tasks = [] → Move s (.work i) (s.setPosition i .exited)
  | sleepPause (s : Pool α) (i : Nat) (w : Worker α) :
      s.queueMutex = none → s.workers[i]? = some w → w.position = .top →
      s.stop = true → s.tasks ≠ [] → s.paused = true →
      Move s (.work i) (s.setPosition i .sleepPause)
  | dequeue (s : Pool α) (i : Nat) (w : Worker α) (task : Task α) (rest : List (Task α)) :
      s.queueMutex = none → s.workers[i]? = some w → w.position = .top →
      s.paused = false → s.tasks = task :: rest →
      Move s (.work i)
        { s.setPosition i (.running task) with
          tasks := rest, activeThreads := s.activeThreads + 1,
          dequeued := s.dequeued ++ [task] }
  | sleepAgain (s : Pool α) (i : Nat) (w : Worker α) :
      s.queueMutex = none → s.workers[i]? = some w → w.position = .wokenPause →
      s.paused = true → Move s (.work i) (s.setPosition i .sleepPause)
  | unpause (s : Pool α) (i : Nat) (w : Worker α) :
      s.queueMutex = none → s.workers[i]? = some w → w.position = .wokenPause →
      s.paused = false → Move s (.work i) (s.setPosition i .top)
  | finish (s : Pool α) (i : Nat) (w : Worker α) (task : Task α) :
      s.workers[i]? = some w → w.position = .running task →
      Move s (.work i) (finishTask i task s)
  /-- The decrement, without the notification. -/
  | retire (s : Pool α) (i : Nat) (w : Worker α) :
      s.queueMutex = none → s.workers[i]? = some w → w.position = .finished →
      s.tasks ≠ [] ∨ s.activeThreads - 1 ≠ 0 →
      Move s (.work i) { s.setPosition i .top with activeThreads := s.activeThreads - 1 }
  /-- The decrement of the last active worker of an empty queue. -/
  | retireLast (s : Pool α) (i : Nat) (w : Worker α) :
      s.queueMutex = none → s.workers[i]? = some w → w.position = .finished →
      s.tasks = [] → s.activeThreads - 1 = 0 →
      Move s (.work i)
        (Pool.notifyAllPause { s.setPosition i .top with activeThreads := s.activeThreads - 1 })
  | notifyOne (s : Pool α) (i n : Nat) (w : Worker α) :
      s.enqueueNotifies = n + 1 → s.workers[i]? = some w → w.position = .sleepCondition →
      Move s (.notifyOne i) { s.setPosition i .top with enqueueNotifies := n }
  /-- A notification nobody sleeps for. -/
  | notifyNobody (s : Pool α) (i n : Nat) :
      s.enqueueNotifies = n + 1 → (∀ w ∈ s.workers, w.position ≠ .sleepCondition) →
      Move s (.notifyOne i) { s with enqueueNotifies := n }
  | notifyResume (s : Pool α) (n : Nat) :
      s.resumeNotifies = n + 1 →
      Move s .notifyResume { s.notifyAllPause with resumeNotifies := n }
  | notifyShutdown (s : Pool α) (k : Nat) :
      s.shutdowns[k]? = some .notifying →
      Move s (.notifyShutdown k)
        { s.notifyAllCondition with shutdowns := s.shutdowns.set k (.joining 0) }
  | joinReturn (s : Pool α) (k next : Nat) :
      s.shutdowns[k]? = some (.joining next) → s.workers.length ≤ next →
      Move s (.join k) { s with shutdowns := s.shutdowns.set k .returned }
  | join (s : Pool α) (k next : Nat) (w : Worker α) :
      s.shutdowns[k]? = some (.joining next) → s.workers[next]? = some w →
      w.joinable = true → w.position = .exited →
      Move s (.join k)
        { s with workers := s.workers.modify next (fun w => { w with joinable := false }),
                 shutdowns := s.shutdowns.set k (.joining (next + 1)) }
  | joinThrow (s : Pool α) (k next : Nat) (w : Worker α) :
      s.shutdowns[k]? = some (.joining next) → s.workers[next]? = some w →
      w.joinable = false →
      Move s (.join k) { s with shutdowns := s.shutdowns.set k .threw }
  | recheck (s : Pool α) (k : Nat) :
      s.queueMutex = none → s.completions[k]? = some .woken →
      Move s (.recheck k) { s with completions := s.completions.set k s.completionCall }
  | wakeCondition (s : Pool α) (i : Nat) (w : Worker α) :
      s.workers[i]? = some w → w.position = .sleepCondition →
      Move s (.wake i) (s.setPosition i .top)
  | wakePause (s : Pool α) (i : Nat) (w : Worker α) :
      s.workers[i]? = some w → w.position = .sleepPause →
      Move s (.wake i) (s.setPosition i .wokenPause)
  | wakeCompletion (s : Pool α) (k : Nat) :
      s.completions[k]? = some .asleep →
      Move s (.wakeCompletion k) { s with completions := s.completions.set k .woken }

/-! ### Locking -/

/-- A member function called while the mutex is owned. -/
theorem exec_owned (op : Op α) (self o : Thread) (s : Pool α) (h : s.queueMutex = some o) :
    commit (op.exec self s) =
      if o = self then some { s with fault := some (.relock self) } else none := by
  have hlock : lockQueueMutex self s =
      if o = self then .error (.relock self) s else .error .blocked s := by
    simp only [lockQueueMutex, h]
  -- Every member function begins with the lock, so none of them gets further.
  by_cases ho : o = self
  · rw [if_pos ho] at hlock ⊢
    cases op <;>
      simp only [Op.exec, enqueue, pause, resume, shutdown, waitForCompletion, getQueueSize,
        getActiveThreads, getSize, resize, bind, EStateM.bind, hlock, commit]
  · rw [if_neg ho] at hlock ⊢
    cases op <;>
      simp only [Op.exec, enqueue, pause, resume, shutdown, waitForCompletion, getQueueSize,
        getActiveThreads, getSize, resize, bind, EStateM.bind, hlock, commit]

/-- A piece of code that starts by locking, as a step: either the thread owns
    the mutex already, or the mutex is free. -/
theorem commit_lock {β : Type} (self : Thread) {f : PoolM α β} {s s' : Pool α}
    (h : commit ((lockQueueMutex self >>= fun _ => f) s) = some s') :
    (s.queueMutex = some self ∧ s' = { s with fault := some (.relock self) }) ∨
      s.queueMutex = none := by
  cases hm : s.queueMutex with
  | none => exact Or.inr rfl
  | some o =>
      refine Or.inl ?_
      simp only [bind, EStateM.bind, lockQueueMutex, hm] at h
      by_cases ho : o = self
      · rw [if_pos ho] at h
        simp only [commit, Option.some.injEq] at h
        exact ⟨by rw [ho], by rw [← h, hm]⟩
      · rw [if_neg ho] at h
        simp only [commit, reduceCtorEq] at h

/-! ### Functions that find the mutex free -/

theorem lock_free (self : Thread) {s : Pool α} (h : s.queueMutex = none) :
    lockQueueMutex self s = .ok () { s with queueMutex := some self } := by
  simp only [lockQueueMutex, h]

/-- A critical section that changes the state. -/
theorem modify_free (self : Thread) (f : Pool α → Pool α) {s t : Pool α}
    (h : s.queueMutex = none)
    (ht : { f { s with queueMutex := some self } with queueMutex := none } = t) :
    (do lockQueueMutex self; modify f; unlockQueueMutex : PoolM α Unit) s = .ok () t := by
  rw [← ht]
  simp only [bind, EStateM.bind, lock_free self h]
  rfl

/-- A critical section that reads the state. -/
theorem query_free {β : Type} (self : Thread) (g : Pool α → β) {s : Pool α}
    (h : s.queueMutex = none) :
    (do lockQueueMutex self; let s ← get; unlockQueueMutex; pure (g s) : PoolM α β) s =
      .ok (g { s with queueMutex := some self }) s := by
  -- Unlocking gives back the state that was found.
  have hback : { s with queueMutex := none } = s := by rw [← h]
  simp only [bind, EStateM.bind, lock_free self h]
  exact congrArg (EStateM.Result.ok _) hback

theorem enqueue_free (self : Thread) (task : Task α) (s : Pool α) (h : s.queueMutex = none) :
    enqueue self task s =
      if s.stop then .ok false s
      else .ok true { s with tasks := s.tasks ++ [task], accepted := s.accepted ++ [task],
                             enqueueNotifies := s.enqueueNotifies + 1 } := by
  cases s with
  | mk workers tasks mutex stop paused active en rn sh co fault acc deq fin =>
      simp only at h
      rw [h]
      cases stop <;> rfl

theorem pause_free (self : Thread) (s : Pool α) (h : s.queueMutex = none) :
    pause self s = .ok () { s with paused := true } :=
  modify_free self _ h (by simp only [h])

theorem resume_free (self : Thread) (s : Pool α) (h : s.queueMutex = none) :
    resume self s =
      .ok () { s with paused := false, resumeNotifies := s.resumeNotifies + 1 } :=
  modify_free self _ h (by simp only [h])

theorem shutdown_free (self : Thread) (s : Pool α) (h : s.queueMutex = none) :
    shutdown self s =
      .ok () { s with stop := true, shutdowns := s.shutdowns ++ [.notifying] } :=
  modify_free self _ h (by simp only [h])

/-- The critical section of `shutdown` runs when the mutex is free. -/
theorem shutdown_ok (self : Thread) (s t : Pool α) (h : shutdown self s = .ok () t) :
    s.queueMutex = none ∧
      t = { s with stop := true, shutdowns := s.shutdowns ++ [.notifying] } := by
  cases hm : s.queueMutex with
  | none =>
      rw [shutdown_free self s hm, EStateM.Result.ok.injEq] at h
      exact ⟨rfl, by rw [← h.2, hm]⟩
  | some o =>
      by_cases ho : o = self <;>
        simp only [shutdown, bind, EStateM.bind, lockQueueMutex, hm, ho, if_true, if_false,
          reduceCtorEq] at h

theorem waitForCompletion_free (self : Thread) (s : Pool α) (h : s.queueMutex = none) :
    waitForCompletion self s =
      .ok () { s with completions := s.completions ++ [s.completionCall] } :=
  modify_free self _ h (by simp only [h]; rfl)

theorem recheckCompletion_free (self : Thread) (k : Nat) (s : Pool α)
    (h : s.queueMutex = none) :
    recheckCompletion self k s =
      .ok () { s with completions := s.completions.set k s.completionCall } :=
  modify_free self _ h (by simp only [h]; rfl)

theorem getQueueSize_free (self : Thread) (s : Pool α) (h : s.queueMutex = none) :
    getQueueSize self s = .ok s.tasks.length s :=
  query_free self (fun s => s.tasks.length) h

theorem getActiveThreads_free (self : Thread) (s : Pool α) (h : s.queueMutex = none) :
    getActiveThreads self s = .ok s.activeThreads s :=
  query_free self (fun s => s.activeThreads) h

theorem getSize_free (self : Thread) (s : Pool α) (h : s.queueMutex = none) :
    getSize self s = .ok s.workers.length s :=
  query_free self (fun s => s.workers.length) h

theorem addWorkers_eq (n : Nat) (s : Pool α) :
    addWorkers n s =
      .ok () { s with workers := s.workers ++ List.replicate n Worker.spawned } := by
  induction n generalizing s with
  | zero =>
      simp only [List.replicate_zero, List.append_nil]
      rfl
  | succ n ih =>
      have hstep : addWorkers (n + 1) s =
          addWorkers n { s with workers := s.workers ++ [Worker.spawned] } := rfl
      rw [hstep, ih]
      simp only [List.append_assoc, List.singleton_append, List.replicate_succ]

/-- `resize` to a smaller size reaches its first `enqueue` with the lock
    held, and that call locks again. -/
theorem resize_free (self : Thread) (newSize : Nat) (s : Pool α) (h : s.queueMutex = none) :
    resize self newSize s =
      if s.workers.length < newSize then
        .ok true { s with
          workers := s.workers ++ List.replicate (newSize - s.workers.length) Worker.spawned }
      else if newSize < s.workers.length then
        .error (.relock self) { s with queueMutex := some self }
      else .ok true s := by
  have hlock := lock_free self h
  have hback : ∀ s' : Pool α, unlockQueueMutex s' = .ok () { s' with queueMutex := none } :=
    fun _ => rfl
  have heta : { s with queueMutex := none } = s := by rw [← h]
  simp only [resize, bind, EStateM.bind, hlock, get, getThe, MonadStateOf.get, EStateM.get]
  by_cases hgrow : s.workers.length < newSize
  · -- The workers are added under the lock, which is given back afterwards.
    simp only [if_pos hgrow, EStateM.bind, addWorkers_eq, hback, pure, EStateM.pure, h]
  · by_cases hshrink : newSize < s.workers.length
    · -- The difference is positive, so the loop gets to its first `enqueue`.
      rcases Nat.exists_eq_add_of_lt hshrink with ⟨d, hd⟩
      have hdiff : s.workers.length - newSize = d + 1 := by omega
      simp only [if_neg hgrow, if_pos hshrink, hdiff, enqueueTerminates, enqueue, bind,
        EStateM.bind, lockQueueMutex, if_true]
    · simp only [if_neg hgrow, if_neg hshrink, EStateM.bind, hback, pure, EStateM.pure, heta]

theorem takeTask_free (i : Nat) (s : Pool α) (h : s.queueMutex = none) :
    takeTask i s =
      if s.stop = false ∧ (s.paused = true ∨ s.tasks = []) then
        .ok () (s.setPosition i .sleepCondition)
      else match s.tasks with
        | [] => .ok () (s.setPosition i .exited)
        | task :: rest =>
            if s.paused then .ok () (s.setPosition i .sleepPause)
            else .ok () { s.setPosition i (.running task) with
                          tasks := rest, activeThreads := s.activeThreads + 1,
                          dequeued := s.dequeued ++ [task] } := by
  cases s with
  | mk workers tasks mutex stop paused active en rn sh co fault acc deq fin =>
      simp only at h
      rw [h]
      cases stop <;> cases paused <;> cases tasks <;> rfl

theorem recheckPause_free (i : Nat) (s : Pool α) (h : s.queueMutex = none) :
    recheckPause i s = .ok () (s.setPosition i (if s.paused then .sleepPause else .top)) :=
  modify_free (.worker i) _ h (by simp only [Pool.setPosition, h])

theorem retire_free (i : Nat) (s : Pool α) (h : s.queueMutex = none) :
    retire i s =
      if s.tasks.isEmpty && s.activeThreads - 1 == 0 then
        .ok () (Pool.notifyAllPause
          { s.setPosition i .top with activeThreads := s.activeThreads - 1 })
      else .ok () { s.setPosition i .top with activeThreads := s.activeThreads - 1 } := by
  cases s with
  | mk workers tasks mutex stop paused active en rn sh co fault acc deq fin =>
      simp only at h
      rw [h]
      simp only [retire, bind, EStateM.bind, lockQueueMutex, modify, modifyGet,
        MonadStateOf.modifyGet, EStateM.modifyGet, get, getThe, MonadStateOf.get, EStateM.get,
        Pool.setPosition]
      cases hc : (tasks.isEmpty && active - 1 == 0) <;> rfl

/-! ### The inversion -/

/-- A call of a member function is one of the listed transitions. -/
theorem move_of_exec (self : Thread) (op : Op α) (s s' : Pool α)
    (hs : commit (op.exec self s) = some s') : Move s (.call self op) s' := by
  cases hm : s.queueMutex with
  | some o =>
      -- Owned: the owner faults, and anybody else waits, which is no step.
      rw [exec_owned op self o s hm] at hs
      by_cases ho : o = self
      · rw [if_pos ho, Option.some.injEq] at hs
        rw [← hs]
        exact Move.relock s _ self (by rw [hm, ho]) rfl
      · rw [if_neg ho] at hs
        exact absurd hs (by simp only [reduceCtorEq, not_false_eq_true])
  | none =>
      -- Free: the effect of each function is its `_free` lemma.
      cases op with
      | enqueue body =>
          simp only [Op.exec, bind, EStateM.bind, enqueue_free self _ s hm] at hs
          cases hstop : s.stop with
          | true =>
              simp only [hstop, if_true, pure, EStateM.pure, commit, Option.some.injEq] at hs
              rw [← hs]
              exact Move.refuse s self body hm hstop
          | false =>
              simp only [hstop, Bool.false_eq_true, if_false, pure, EStateM.pure, commit,
                Option.some.injEq] at hs
              rw [← hs]
              have hmove := Move.enqueue s self body hm hstop
              simp only [hstop] at hmove
              exact hmove
      | resize newSize =>
          simp only [Op.exec, bind, EStateM.bind, resize_free self newSize s hm] at hs
          by_cases hgrow : s.workers.length < newSize
          · simp only [if_pos hgrow, pure, EStateM.pure, commit, Option.some.injEq] at hs
            rw [← hs]
            exact Move.grow s self newSize hm hgrow
          · by_cases hshrink : newSize < s.workers.length
            · simp only [if_neg hgrow, if_pos hshrink, commit, Option.some.injEq] at hs
              rw [← hs]
              exact Move.shrink s self newSize hm hshrink
            · simp only [if_neg hgrow, if_neg hshrink, pure, EStateM.pure, commit,
                Option.some.injEq] at hs
              rw [← hs]
              exact Move.query s self _ hm
      | pause =>
          simp only [Op.exec, pause_free self s hm, commit, Option.some.injEq] at hs
          rw [← hs]
          exact Move.pause s self hm
      | resume =>
          simp only [Op.exec, resume_free self s hm, commit, Option.some.injEq] at hs
          rw [← hs]
          exact Move.resume s self hm
      | shutdown =>
          simp only [Op.exec, shutdown_free self s hm, commit, Option.some.injEq] at hs
          rw [← hs]
          exact Move.shutdown s self hm
      | waitForCompletion =>
          simp only [Op.exec, waitForCompletion_free self s hm, commit, Option.some.injEq] at hs
          rw [← hs]
          exact Move.waitForCompletion s self hm
      | getQueueSize =>
          simp only [Op.exec, bind, EStateM.bind, getQueueSize_free self s hm, pure, EStateM.pure,
            commit, Option.some.injEq] at hs
          rw [← hs]
          exact Move.query s self _ hm
      | getActiveThreads =>
          simp only [Op.exec, bind, EStateM.bind, getActiveThreads_free self s hm, pure,
            EStateM.pure, commit, Option.some.injEq] at hs
          rw [← hs]
          exact Move.query s self _ hm
      | getSize =>
          simp only [Op.exec, bind, EStateM.bind, getSize_free self s hm, pure, EStateM.pure,
            commit, Option.some.injEq] at hs
          rw [← hs]
          exact Move.query s self _ hm

/-- A step of a worker is one of the listed transitions. -/
theorem move_of_work (i : Nat) (s s' : Pool α) (hs : work i s = some s') :
    Move s (.work i) s' := by
  cases hw : s.workers[i]? with
  | none => simp only [work, hw, reduceCtorEq] at hs
  | some w =>
      cases hp : w.position with
      | top =>
          simp only [work, hw, hp] at hs
          rcases commit_lock (.worker i) hs with ⟨hown, hs'⟩ | hfree
          · rw [hs']
            exact Move.relock s _ _ hown rfl
          · rw [takeTask_free i s hfree] at hs
            -- The predicate of `condition.wait`, negated.
            by_cases hsleep : s.stop = false ∧ (s.paused = true ∨ s.tasks = [])
            · rw [if_pos hsleep] at hs
              simp only [commit, Option.some.injEq] at hs
              rw [← hs]
              exact Move.sleepCondition s i w hfree hw hp hsleep.1 hsleep.2
            · rw [if_neg hsleep] at hs
              cases ht : s.tasks with
              | nil =>
                  simp only [ht, commit, Option.some.injEq] at hs
                  rw [← hs]
                  -- The predicate holds of an empty queue only after `stop`.
                  refine Move.exit s i w hfree hw hp ?_ ht
                  cases hstop : s.stop with
                  | true => rfl
                  | false => exact absurd ⟨hstop, Or.inr ht⟩ hsleep
              | cons task rest =>
                  cases hpaused : s.paused with
                  | true =>
                      simp only [ht, hpaused, if_true, commit, Option.some.injEq] at hs
                      rw [← hs]
                      -- Likewise of a paused pool.
                      refine Move.sleepPause s i w hfree hw hp ?_ ?_ hpaused
                      · cases hstop : s.stop with
                        | true => rfl
                        | false => exact absurd ⟨hstop, Or.inl hpaused⟩ hsleep
                      · rw [ht]
                        exact List.cons_ne_nil task rest
                  | false =>
                      simp only [ht, hpaused, Bool.false_eq_true, if_false, commit,
                        Option.some.injEq] at hs
                      rw [← hs]
                      exact Move.dequeue s i w task rest hfree hw hp hpaused ht
      | wokenPause =>
          simp only [work, hw, hp] at hs
          rcases commit_lock (.worker i) hs with ⟨hown, hs'⟩ | hfree
          · rw [hs']
            exact Move.relock s _ _ hown rfl
          · simp only [recheckPause_free i s hfree, commit, Option.some.injEq] at hs
            rw [← hs]
            cases hpaused : s.paused with
            | true => exact Move.sleepAgain s i w hfree hw hp hpaused
            | false => exact Move.unpause s i w hfree hw hp hpaused
      | running task =>
          simp only [work, hw, hp, Option.some.injEq] at hs
          rw [← hs]
          exact Move.finish s i w task hw hp
      | finished =>
          simp only [work, hw, hp] at hs
          rcases commit_lock (.worker i) hs with ⟨hown, hs'⟩ | hfree
          · rw [hs']
            exact Move.relock s _ _ hown rfl
          · rw [retire_free i s hfree] at hs
            cases hlast : (s.tasks.isEmpty && s.activeThreads - 1 == 0) with
            | true =>
                rw [if_pos hlast] at hs
                simp only [commit, Option.some.injEq] at hs
                rw [← hs]
                rw [Bool.and_eq_true, List.isEmpty_iff, beq_iff_eq] at hlast
                exact Move.retireLast s i w hfree hw hp hlast.1 hlast.2
            | false =>
                rw [if_neg (by rw [hlast]; exact Bool.false_ne_true)] at hs
                simp only [commit, Option.some.injEq] at hs
                rw [← hs]
                rw [Bool.and_eq_false_iff, List.isEmpty_eq_false_iff, beq_eq_false_iff_ne] at hlast
                exact Move.retire s i w hfree hw hp hlast
      | sleepCondition => simp only [work, hw, hp, reduceCtorEq] at hs
      | sleepPause => simp only [work, hw, hp, reduceCtorEq] at hs
      | exited => simp only [work, hw, hp, reduceCtorEq] at hs

theorem isSleepCondition_iff (p : Position α) :
    p.isSleepCondition = true ↔ p = .sleepCondition := by
  cases p <;> simp only [Position.isSleepCondition, reduceCtorEq]

/-- A notification of `enqueue` wakes somebody, or nobody sleeps. -/
theorem move_of_notifyOne (i : Nat) (s s' : Pool α) (hs : notifyOne i s = some s') :
    Move s (.notifyOne i) s' := by
  unfold notifyOne at hs
  -- One notification of `enqueue` is used up, whoever hears it.
  cases hn : s.enqueueNotifies with
  | zero => simp only [hn, reduceCtorEq] at hs
  | succ n =>
      simp only [hn] at hs
      split at hs
      · -- Somebody sleeps on `condition`, and the action says who wakes.
        cases hw : s.workers[i]? with
        | none => simp only [hw, reduceCtorEq] at hs
        | some w =>
            simp only [hw] at hs
            split at hs
            · rename_i hsleep
              rw [Option.some.injEq] at hs
              rw [← hs]
              exact Move.notifyOne s i n w hn hw ((isSleepCondition_iff _).mp hsleep)
            · simp only [reduceCtorEq] at hs
      · rename_i hnobody
        rw [Option.some.injEq] at hs
        rw [← hs]
        refine Move.notifyNobody s i n hn (fun w hw hp => hnobody ?_)
        exact List.any_eq_true.mpr ⟨w, hw, (isSleepCondition_iff _).mpr hp⟩

/-- The join loop comes to its end, joins a worker, or throws. -/
theorem move_of_joinNext (k next : Nat) (s s' : Pool α)
    (hk : s.shutdowns[k]? = some (.joining next)) (hs : joinNext k next s = some s') :
    Move s (.join k) s' := by
  unfold joinNext at hs
  -- `join` returns at the end of the list, throws at a thread that is not joinable, or waits.
  cases hw : s.workers[next]? with
  | none =>
      simp only [hw, Option.some.injEq] at hs
      rw [← hs]
      exact Move.joinReturn s k next hk (List.getElem?_eq_none_iff.mp hw)
  | some w =>
      simp only [hw] at hs
      cases hj : w.joinable with
      | false =>
          simp only [hj, Bool.false_eq_true, if_false, Option.some.injEq] at hs
          rw [← hs]
          exact Move.joinThrow s k next w hk hw hj
      | true =>
          simp only [hj, if_true] at hs
          split at hs
          · rename_i hp
            rw [Option.some.injEq] at hs
            rw [← hs]
            exact Move.join s k next w hk hw hj hp
          · simp only [reduceCtorEq] at hs

/-- Every step is one of the listed transitions. -/
theorem move_of_step (s s' : Pool α) (a : Act α) (hs : step s a = some s') : Move s a s' := by
  -- One rule for each way through an operation, with what it needs.
  cases a with
  | call self op => exact move_of_exec self op s s' hs
  | work i => exact move_of_work i s s' hs
  | notifyOne i => exact move_of_notifyOne i s s' hs
  | notifyResume =>
      simp only [step] at hs
      cases hn : s.resumeNotifies with
      | zero => simp only [hn, reduceCtorEq] at hs
      | succ n =>
          simp only [hn, Option.some.injEq] at hs
          rw [← hs]
          exact Move.notifyResume s n hn
  | notifyShutdown k =>
      simp only [step] at hs
      split at hs
      · rename_i hk
        rw [Option.some.injEq] at hs
        rw [← hs]
        exact Move.notifyShutdown s k hk
      · simp only [reduceCtorEq] at hs
  | join k =>
      simp only [step] at hs
      split at hs
      · rename_i next hk
        exact move_of_joinNext k next s s' hk hs
      · simp only [reduceCtorEq] at hs
  | recheck k =>
      simp only [step] at hs
      split at hs
      · rename_i hk
        rcases commit_lock (.caller k) hs with ⟨hown, hs'⟩ | hfree
        · rw [hs']
          exact Move.relock s _ _ hown rfl
        · simp only [recheckCompletion_free _ k s hfree, commit, Option.some.injEq] at hs
          rw [← hs]
          exact Move.recheck s k hfree hk
      · simp only [reduceCtorEq] at hs
  | wake i =>
      simp only [step, wakeSpuriously] at hs
      cases hw : s.workers[i]? with
      | none => simp only [hw, reduceCtorEq] at hs
      | some w =>
          simp only [hw] at hs
          split at hs
          · rename_i hp
            rw [Option.some.injEq] at hs
            rw [← hs]
            exact Move.wakeCondition s i w hw hp
          · rename_i hp
            rw [Option.some.injEq] at hs
            rw [← hs]
            exact Move.wakePause s i w hw hp
          · simp only [reduceCtorEq] at hs
  | wakeCompletion k =>
      simp only [step, wakeCompletion] at hs
      split at hs
      · rename_i hk
        rw [Option.some.injEq] at hs
        rw [← hs]
        exact Move.wakeCompletion s k hk
      · simp only [reduceCtorEq] at hs

/-- A worker of a pool that has grown was there before or is new. -/
theorem mem_grown {workers : List (Worker α)} {n : Nat} {w : Worker α}
    (h : w ∈ workers ++ List.replicate n Worker.spawned) : w ∈ workers ∨ w = Worker.spawned :=
  (List.mem_append.mp h).imp_right List.eq_of_mem_replicate

/-! ### Steps that are possible -/

theorem step_finishTask (s : Pool α) (i : Nat) (w : Worker α) (task : Task α)
    (hw : s.workers[i]? = some w) (hp : w.position = .running task) :
    (machine α).step s (.work i) = some (finishTask i task s) := by
  simp only [machine, step, work, hw, hp]

/-- The decrement, with the notification if the worker is the last one. -/
theorem step_retire (s : Pool α) (i : Nat) (w : Worker α) (hfree : s.queueMutex = none)
    (hw : s.workers[i]? = some w) (hp : w.position = .finished) :
    (machine α).step s (.work i) =
      if s.tasks.isEmpty && s.activeThreads - 1 == 0 then
        some (Pool.notifyAllPause
          { s.setPosition i .top with activeThreads := s.activeThreads - 1 })
      else some { s.setPosition i .top with activeThreads := s.activeThreads - 1 } := by
  simp only [machine, step, work, hw, hp, retire_free i s hfree]
  split <;> rfl

theorem step_exit (s : Pool α) (i : Nat) (w : Worker α) (hfree : s.queueMutex = none)
    (hw : s.workers[i]? = some w) (hp : w.position = .top) (hstop : s.stop = true)
    (ht : s.tasks = []) : (machine α).step s (.work i) = some (s.setPosition i .exited) := by
  simp only [machine, step, work, hw, hp, takeTask_free i s hfree, hstop, ht,
    Bool.true_eq_false, false_and, if_false, commit]

theorem step_sleepPause (s : Pool α) (i : Nat) (w : Worker α) (hfree : s.queueMutex = none)
    (hw : s.workers[i]? = some w) (hp : w.position = .top) (hstop : s.stop = true)
    (hpaused : s.paused = true) (ht : s.tasks ≠ []) :
    (machine α).step s (.work i) = some (s.setPosition i .sleepPause) := by
  rcases List.exists_cons_of_ne_nil ht with ⟨task, rest, ht⟩
  simp only [machine, step, work, hw, hp, takeTask_free i s hfree, hstop, ht, hpaused,
    Bool.true_eq_false, false_and, if_false, if_true, commit]

theorem step_dequeue (s : Pool α) (i : Nat) (w : Worker α) (task : Task α)
    (rest : List (Task α)) (hfree : s.queueMutex = none) (hw : s.workers[i]? = some w)
    (hp : w.position = .top) (hpaused : s.paused = false) (ht : s.tasks = task :: rest) :
    (machine α).step s (.work i) = some
      { s.setPosition i (.running task) with
        tasks := rest, activeThreads := s.activeThreads + 1,
        dequeued := s.dequeued ++ [task] } := by
  simp only [machine, step, work, hw, hp, takeTask_free i s hfree, ht, hpaused,
    Bool.false_eq_true, reduceCtorEq, or_self, and_false, if_false, commit]

/-- A notification of `enqueue` can be issued: nobody sleeps on `condition`, or
    some worker wakes. -/
theorem step_notifyOne (s : Pool α) (n : Nat) (hn : s.enqueueNotifies = n + 1) :
    (machine α).step s (.notifyOne 0) = some { s with enqueueNotifies := n } ∨
      ∃ i w, s.workers[i]? = some w ∧ w.position = .sleepCondition ∧
        (machine α).step s (.notifyOne i) =
          some { s.setPosition i .top with enqueueNotifies := n } := by
  cases hany : s.workers.any (fun w => w.position.isSleepCondition) with
  | false =>
      left
      simp only [machine, step, notifyOne, hn, hany, Bool.false_eq_true, if_false]
  | true =>
      right
      rcases List.any_eq_true.mp hany with ⟨w, hmem, hp⟩
      rcases List.getElem?_of_mem hmem with ⟨i, hw⟩
      refine ⟨i, w, hw, (isSleepCondition_iff _).mp hp, ?_⟩
      simp only [machine, step, notifyOne, hn, hany, hw, hp, if_true]

end ThreadPool

end EpollServer
