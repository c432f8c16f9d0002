import EpollServer.Theory.ThreadPool.Drain

/-!
# The Sizing Contract of `resize`

Which calls of `resize` do what they are for.

A call that grows the pool, or asks for the size it has, returns, and the pool
has that size from then on, with every worker in its loop: workers leave only
a stopped pool, and nothing stops it. A task accepted afterwards is executed.
Its own notification sees to it, whatever notifications were lost before: from
the moment of the `enqueue` the pool is `Wakeful`, and the way to the end of
all tasks has a rank (`effort`) that drops with each step of a worker.

A call that shrinks the pool does not return at all, since `enqueue` locks the
mutex again. And a pool that has no worker accepts tasks that nobody will ever
execute.

## Main definitions

* `Undisturbed`: The guard: no `resize` and no `shutdown`.
* `Executed`: Every accepted task has finished.
* `Settled`: The tasks `resize` queues are done.
* `SizingContract`: What `resize` is to bring about.
* `Steady`: A running pool of a fixed size.
* `Busy`: A running pool that is awake.
* `Position.effort`, `effort`: How far a pool is from the end of its tasks.

## Theorems

* `move_steady`: An undisturbed transition keeps a pool steady.
* `executed_of_busy`: A pool that is awake can finish its tasks.
* `resize_contract_iff`: The exact condition.
* `resize_shrink_relocks`: Two workers that are to become one.
-/

namespace EpollServer

namespace ThreadPool

variable {α : Type}

/-- No call of `resize` or `shutdown`. -/
def Undisturbed (_ : Pool α) (a : Act α) : Prop :=
  ∀ self op, a = .call self op → op ≠ .shutdown ∧ ∀ newSize, op ≠ .resize newSize

/-- Every accepted task has finished. -/
def Executed (s : Pool α) : Prop := s.accepted.Perm s.finished

/-- No task of `resize` is queued or running. -/
def Settled (s : Pool α) : Prop := .terminate ∉ s.tasks ∧ .terminate ∉ s.held

/-- The call returns and gives the mutex back. In every state reached then
    without another `resize` or a `shutdown`, once the tasks it queued are done:
    `newSize` workers are in their loop, and the pool reports that size and is
    not stopped; no task accepted before is lost; and `enqueue` accepts a task,
    which can, unless the pool is paused, be executed from whatever state the
    pool gets into by itself. -/
def SizingContract (self : Thread) (newSize : Nat) (s : Pool α) : Prop :=
  ∃ b t, resize self newSize s = .ok b t ∧ t.queueMutex = none ∧
    ∀ u, (machine α).ReachesBy Undisturbed t u → Settled u →
      u.workers.countP (fun w => !w.position.isExited) = newSize ∧
      (∀ caller, getSize caller u = .ok newSize u) ∧ u.stop = false ∧
      s.accepted <+: u.accepted ∧ u.accepted.Perm (u.finished ++ u.held ++ u.tasks) ∧
      ∀ caller body, ∃ v, enqueue caller (.user body) u = .ok true v ∧
        .user body ∈ v.accepted ∧
        (u.paused = false → ∀ x, (machine α).ReachesBy NoCall v x →
          ∃ y, (machine α).ReachesBy NoCall x y ∧ Executed y)

theorem isExited_eq_false_iff (p : Position α) : p.isExited = false ↔ p ≠ .exited := by
  cases p <;> simp only [Position.isExited, ne_eq, reduceCtorEq, not_false_eq_true,
    not_true_eq_false]

/-- The tasks workers hold are the callers' own. -/
theorem not_terminate_held (s : Pool α) (hs : Owed s) : .terminate ∉ s.held := by
  intro hmem
  rcases List.mem_filterMap.mp hmem with ⟨w, hw, htask⟩
  exact hs.running w hw htask

/-! ### A steady pool -/

/-- A running pool of `size` workers whose tasks are the callers' own. -/
structure Steady (size : Nat) (s : Pool α) : Prop where
  stop : s.stop = false
  free : s.queueMutex = none
  size : s.workers.length = size
  owed : Owed s

/-- An undisturbed transition keeps the number of workers. -/
theorem length_of_undisturbed (s s' : Pool α) (a : Act α) (h : Move s a s')
    (ha : Undisturbed s a) : s'.workers.length = s.workers.length := by
  cases h with
  | grow self newSize => exact absurd rfl ((ha self _ rfl).2 newSize)
  | sleepCondition | exit | sleepPause | dequeue | sleepAgain | unpause | finish | retire
  | notifyOne | join | wakeCondition | wakePause =>
      simp only [Pool.setPosition, finishTask, List.length_modify]
  | retireLast | notifyResume | notifyShutdown =>
      simp only [Pool.notifyAllPause, Pool.notifyAllCondition, Pool.setPosition, List.length_map,
        List.length_modify]
  | _ => rfl

/-- An undisturbed transition does not stop a pool. -/
theorem running_of_move (s s' : Pool α) (a : Act α) (h : Move s a s') (ha : Undisturbed s a)
    (hs : Owed s) (hstop : s.stop = false) : s'.stop = false := by
  cases h with
  | shutdown self => exact absurd rfl (ha self _ rfl).1
  | finish i w task hw hp =>
      cases task with
      | user body => exact (Bool.or_false _).trans hstop
      | terminate => exact absurd (by rw [hp]; rfl) (hs.running w (List.mem_of_getElem? hw))
  | _ => exact hstop

/-- An undisturbed transition leaves the mutex free. -/
theorem free_of_undisturbed (s s' : Pool α) (a : Act α) (h : Move s a s') (ha : Undisturbed s a)
    (hfree : s.queueMutex = none) : s'.queueMutex = none := by
  cases h with
  | shrink self newSize => exact absurd rfl ((ha self _ rfl).2 newSize)
  | _ => exact hfree

theorem move_steady (size : Nat) (s s' : Pool α) (a : Act α) (hs : Steady size s)
    (ha : Undisturbed s a) (h : Move s a s') : Steady size s' :=
  ⟨running_of_move s s' a h ha hs.owed hs.stop, free_of_undisturbed s s' a h ha hs.free,
    (length_of_undisturbed s s' a h ha).trans hs.size, move_owed s s' a hs.owed h⟩

theorem reachesBy_steady (size : Nat) (s t : Pool α) (hs : Steady size s)
    (h : (machine α).ReachesBy Undisturbed s t) : Steady size t :=
  Machine.invariant h hs
    (fun u a v hu ha hstep => move_steady size u v a hu ha (move_of_step u v a hstep))

/-- Accepted tasks stay accepted. -/
theorem accepted_of_move (s s' : Pool α) (a : Act α) (h : Move s a s') :
    s.accepted <+: s'.accepted := by
  cases h with
  | enqueue => exact List.prefix_append _ _
  | _ => exact List.prefix_refl _

theorem reaches_accepted (s t : Pool α) (h : (machine α).Reaches s t) :
    s.accepted <+: t.accepted :=
  Machine.invariant (I := fun u : Pool α => s.accepted <+: u.accepted) h (List.prefix_refl _)
    (fun u a v hu _ hstep => hu.trans (accepted_of_move u v a (move_of_step u v a hstep)))

/-- Where every accepted task is. -/
theorem accepted_perm (s : Pool α) (hs : Conserved s) :
    s.accepted.Perm (s.finished ++ s.held ++ s.tasks) := by
  rw [hs.fifo]
  exact List.Perm.append_right _ hs.held

/-! ### Executing what was accepted -/

/-- How many steps a worker may take before it needs another task. -/
def Position.effort : Position α → Nat
  | .running _ => 3
  | .finished => 2
  | .wokenPause => 2
  | .top => 1
  | _ => 0

/-- How far the pool is from the end of its tasks: each takes a worker from
    the top of the loop to its return, and a notification may wake one. -/
def effort (s : Pool α) : Nat :=
  3 * s.tasks.length + 2 * s.enqueueNotifies + (s.workers.map (fun w => w.position.effort)).sum

/-- A running pool that is awake. -/
structure Busy (s : Pool α) : Prop where
  stop : s.stop = false
  paused : s.paused = false
  free : s.queueMutex = none
  wakeful : Wakeful s
  owed : Owed s
  placed : Placed s
  conserved : Conserved s

/-- A step that is not a call keeps a pool busy. -/
theorem move_busy (s s' : Pool α) (a : Act α) (hs : Busy s) (ha : NoCall s a) (h : Move s a s') :
    Busy s' := by
  have hun : Undisturbed s a := by
    rintro self op rfl
    exact absurd ha.symm Bool.false_ne_true
  have hresume : ResumeSafe s a := by
    rintro self rfl
    exact absurd ha.symm Bool.false_ne_true
  refine ⟨running_of_move s s' a h hun hs.owed hs.stop, ?_,
    free_of_undisturbed s s' a h hun hs.free, move_wakeful s s' a hs.wakeful hresume h,
    move_owed s s' a hs.owed h, move_placed s s' a hs.placed h,
    move_conserved s s' a hs.conserved h⟩
  cases h with
  | pause => exact absurd ha.symm Bool.false_ne_true
  | resume => rfl
  | _ => exact hs.paused

theorem reachesBy_busy (s t : Pool α) (hs : Busy s) (h : (machine α).ReachesBy NoCall s t) :
    Busy t :=
  Machine.invariant h hs
    (fun u a v hu ha hstep => move_busy u v a hu ha (move_of_step u v a hstep))

/-- Moving one worker changes the effort by what it is about to do. -/
theorem effort_setPosition (s : Pool α) (i : Nat) (w : Worker α) (p q : Position α)
    (hw : s.workers[i]? = some w) (hq : w.position = q) :
    ((s.setPosition i p).workers.map (fun w => w.position.effort)).sum + q.effort =
      (s.workers.map (fun w => w.position.effort)).sum + p.effort := by
  have hsum := ListModify.sum_modify (fun v : Worker α => v.position.effort)
    (fun v => { v with position := p }) hw
  rw [hq] at hsum
  exact hsum

/-- A step towards the end of the tasks is possible. -/
def Progresses (s : Pool α) : Prop :=
  ∃ a t, NoCall s a ∧ (machine α).step s a = some t ∧ Busy t ∧ effort t < effort s

theorem progresses_of_step (s t : Pool α) (a : Act α) (hs : Busy s) (ha : NoCall s a)
    (hstep : (machine α).step s a = some t) (hlt : effort t < effort s) : Progresses s :=
  ⟨a, t, ha, hstep, move_busy s t a hs ha (move_of_step s t a hstep), hlt⟩

/-- A worker that is awake and has something to do goes on. -/
theorem progresses_work (s : Pool α) (hs : Busy s) (i : Nat) (w : Worker α)
    (hw : s.workers[i]? = some w) (hawake : w.position.isAsleep = false)
    (htodo : s.tasks ≠ [] ∨ w.position.isActive = true) : Progresses s := by
  have hmem := List.mem_of_getElem? hw
  cases hp : w.position with
  | sleepCondition => rw [hp] at hawake; exact absurd hawake.symm Bool.false_ne_true
  | sleepPause => rw [hp] at hawake; exact absurd hawake.symm Bool.false_ne_true
  | exited => exact absurd hp (not_exited s hs.placed hs.stop w hmem)
  | wokenPause =>
      -- Nobody waits there before `stop`.
      have hwait := hs.placed.waits w hmem (by rw [hp]; rfl)
      exact absurd (hs.stop.symm.trans hwait) Bool.false_ne_true
  | running task =>
      refine progresses_of_step s _ (.work i) hs rfl (step_finishTask s i w task hw hp) ?_
      have heffort := effort_setPosition s i w .finished _ hw hp
      simp only [Position.effort, effort, finishTask, Pool.setPosition] at heffort ⊢
      omega
  | finished =>
      have heffort := effort_setPosition s i w .top _ hw hp
      have hstep := step_retire s i w hs.free hw hp
      by_cases hlast : (s.tasks.isEmpty && s.activeThreads - 1 == 0) = true
      · rw [if_pos hlast] at hstep
        refine progresses_of_step s _ (.work i) hs rfl hstep ?_
        -- The notification finds nobody.
        have hsame : (s.setPosition i .top).notifyAllPause.workers =
            (s.setPosition i .top).workers := by
          refine notifyAllPause_workers _ (fun v hv => ?_)
          exact (setPosition_wakeful s i w .top hs.wakeful hw rfl rfl).condition hs.stop v hv
        simp only [Pool.notifyAllPause, Position.effort, effort, Pool.setPosition]
          at hsame heffort ⊢
        rw [hsame]
        omega
      · rw [if_neg hlast] at hstep
        refine progresses_of_step s _ (.work i) hs rfl hstep ?_
        simp only [Position.effort, effort, Pool.setPosition] at heffort ⊢
        omega
  | top =>
      have htasks : s.tasks ≠ [] := by
        rcases htodo with htasks | hactive
        · exact htasks
        · rw [hp] at hactive
          exact absurd hactive Bool.false_ne_true
      rcases List.exists_cons_of_ne_nil htasks with ⟨task, rest, ht⟩
      refine progresses_of_step s _ (.work i) hs rfl
        (step_dequeue s i w task rest hs.free hw hp hs.paused ht) ?_
      have heffort := effort_setPosition s i w (.running task) _ hw hp
      simp only [Position.effort, effort, Pool.setPosition, ht, List.length_cons] at heffort ⊢
      omega

/-- A notification of `enqueue` is issued. -/
theorem progresses_notify (s : Pool α) (hs : Busy s) (n : Nat) (hn : s.enqueueNotifies = n + 1) :
    Progresses s := by
  rcases step_notifyOne s n hn with hstep | ⟨i, w, hw, hp, hstep⟩
  · refine progresses_of_step s _ (.notifyOne 0) hs rfl hstep ?_
    simp only [effort]
    omega
  · refine progresses_of_step s _ (.notifyOne i) hs rfl hstep ?_
    have heffort := effort_setPosition s i w .top _ hw hp
    simp only [Position.effort, effort, Pool.setPosition] at heffort ⊢
    omega

/-- While some accepted task has not finished, a step towards it is possible. -/
theorem progresses_of_busy (s : Pool α) (hs : Busy s) (h : ¬ Executed s) : Progresses s := by
  by_cases htasks : s.tasks = []
  · -- A worker holds the task.
    have hheld : s.held ≠ [] := by
      intro hnil
      refine h ?_
      have hperm := accepted_perm s hs.conserved
      rw [hnil, htasks, List.append_nil, List.append_nil] at hperm
      exact hperm
    rcases List.exists_mem_of_ne_nil _ hheld with ⟨task, hmem⟩
    rcases List.mem_filterMap.mp hmem with ⟨w, hw, hwt⟩
    rcases List.getElem?_of_mem hw with ⟨i, hi⟩
    have hp := (task?_eq_some_iff _ _).mp hwt
    exact progresses_work s hs i w hi (by rw [hp]; rfl) (Or.inr (by rw [hp]; rfl))
  · rcases hs.wakeful.awake hs.stop hs.paused htasks with ⟨w, hw, hawake⟩ | hnotify
    · rcases List.getElem?_of_mem hw with ⟨i, hi⟩
      exact progresses_work s hs i w hi hawake (Or.inl htasks)
    · rcases Nat.exists_eq_succ_of_ne_zero (Nat.pos_iff_ne_zero.mp hnotify) with ⟨n, hn⟩
      exact progresses_notify s hs n hn

/-- A pool that is awake can finish its tasks. -/
theorem executed_of_busy (s : Pool α) (hs : Busy s) :
    ∃ t, (machine α).ReachesBy NoCall s t ∧ Executed t := by
  rcases Machine.reachesBy_terminal (M := machine α) (P := NoCall) effort (I := Busy)
    (T := Executed) progresses_of_busy s hs with ⟨t, ht, _, hexecuted⟩
  exact ⟨t, ht, hexecuted⟩

theorem enqueue_running (self : Thread) (task : Task α) (s : Pool α) (hfree : s.queueMutex = none)
    (hstop : s.stop = false) :
    enqueue self task s =
      .ok true { s with tasks := s.tasks ++ [task], accepted := s.accepted ++ [task],
                        enqueueNotifies := s.enqueueNotifies + 1 } := by
  rw [enqueue_free self task s hfree, if_neg (by rw [hstop]; exact Bool.false_ne_true)]

/-- A task enqueued into a running pool that is not paused makes it busy. -/
theorem busy_of_enqueue (size : Nat) (s : Pool α) (self : Thread) (body : α) (hs : Steady size s)
    (hpos : 0 < size) (hpaused : s.paused = false) (hplaced : Placed s) (hcons : Conserved s) :
    Busy { s with tasks := s.tasks ++ [.user body], accepted := s.accepted ++ [.user body],
                  enqueueNotifies := s.enqueueNotifies + 1 } := by
  have hmove := Move.enqueue s self body hs.free hs.stop
  have hne : s.workers ≠ [] := by
    intro hnil
    have hsize := hs.size
    rw [hnil, List.length_nil] at hsize
    omega
  refine ⟨hs.stop, hpaused, hs.free,
    ⟨hne, fun _ w hw => ?_, fun _ _ _ => Or.inr (Nat.succ_pos _)⟩,
    move_owed s _ _ hs.owed hmove, move_placed s _ _ hplaced hmove,
    move_conserved s _ _ hcons hmove⟩
  refine Bool.eq_false_iff.mpr (fun hin => ?_)
  exact absurd (hs.stop.symm.trans (hplaced.waits w hw hin)) Bool.false_ne_true

/-! ### A pool without workers -/

/-- Nobody takes a task from the queue of a pool without workers. -/
theorem move_deserted (s s' : Pool α) (a : Act α) (ha : NoCall s a) (h : Move s a s')
    (hs : s.workers = [] ∧ s.tasks ≠ []) : s'.workers = [] ∧ s'.tasks ≠ [] := by
  have hnone : ∀ (i : Nat) (w : Worker α), s.workers[i]? = some w → False := by
    intro i w hw
    rw [hs.1, List.getElem?_nil] at hw
    simp only [reduceCtorEq] at hw
  cases h with
  | refuse | enqueue | pause | resume | shutdown | waitForCompletion | query | grow | shrink =>
      exact absurd ha.symm Bool.false_ne_true
  | sleepCondition i w _ hw | exit i w _ hw | sleepPause i w _ hw | sleepAgain i w _ hw
  | unpause i w _ hw | retire i w _ hw | retireLast i w _ hw | dequeue i w _ _ _ hw =>
      exact absurd hw (hnone i w)
  | finish i w _ hw | wakeCondition i w hw | wakePause i w hw => exact absurd hw (hnone i w)
  | notifyOne i n w _ hw => exact absurd hw (hnone i w)
  | join k next w _ hw => exact absurd hw (hnone next w)
  | notifyResume => exact ⟨List.map_eq_nil_iff.mpr hs.1, hs.2⟩
  | notifyShutdown => exact ⟨List.map_eq_nil_iff.mpr hs.1, hs.2⟩
  | _ => exact hs

/-- A task accepted by such a pool is never executed. -/
theorem not_executed_of_deserted (s t : Pool α) (hcons : Conserved s)
    (h : (machine α).ReachesBy NoCall s t) (hs : s.workers = [] ∧ s.tasks ≠ []) :
    ¬ Executed t := by
  have hkeep : (t.workers = [] ∧ t.tasks ≠ []) ∧ Conserved t := by
    refine Machine.invariant (I := fun u : Pool α => (u.workers = [] ∧ u.tasks ≠ []) ∧ Conserved u)
      h ⟨hs, hcons⟩ (fun u a v hu ha hstep => ?_)
    have hmove := move_of_step u v a hstep
    exact ⟨move_deserted u v a ha hmove hu.1, move_conserved u v a hu.2 hmove⟩
  intro hexecuted
  -- A task in the queue is accepted and not finished.
  have hall := (accepted_perm t hkeep.2).length_eq
  have hfinished := hexecuted.length_eq
  rw [List.length_append, List.length_append] at hall
  exact hkeep.1.2 (List.length_eq_zero_iff.mp (by omega))

theorem unexecuted_of_empty (self : Thread) (body : α) (s : Pool α) (hempty : s.workers = [])
    (hcons : Conserved s) (hstop : s.stop = false) (hfree : s.queueMutex = none) :
    ∃ t, enqueue self (.user body) s = .ok true t ∧
      ∀ u, (machine α).ReachesBy NoCall t u → ¬ Executed u := by
  refine ⟨_, enqueue_running self (.user body) s hfree hstop, fun u hu => ?_⟩
  have hafter := move_conserved s _ _ hcons (Move.enqueue s self body hfree hstop)
  refine not_executed_of_deserted _ u hafter hu ⟨hempty, ?_⟩
  exact List.append_ne_nil_of_right_ne_nil _ (List.cons_ne_nil _ _)

/-! ### The contract -/

/-- A call that does not shrink the pool returns with the new size. -/
theorem resize_steady (self : Thread) (newSize : Nat) (s : Pool α) (hs : Owed s)
    (hstop : s.stop = false) (hfree : s.queueMutex = none) (hle : s.workers.length ≤ newSize) :
    ∃ b t, resize self newSize s = .ok b t ∧ Steady newSize t ∧ t.accepted = s.accepted ∧
      (machine α).Reaches s t := by
  have hshrink : ¬ newSize < s.workers.length := by omega
  have hexec := resize_free self newSize s hfree
  rw [if_neg hshrink] at hexec
  by_cases hgrow : s.workers.length < newSize
  · rw [if_pos hgrow] at hexec
    have hstep : (machine α).step s (.call self (.resize newSize)) = some { s with
        workers := s.workers ++ List.replicate (newSize - s.workers.length) Worker.spawned } := by
      simp only [machine, step, Op.exec, bind, EStateM.bind, hexec, pure, EStateM.pure, commit]
    refine ⟨true, _, hexec, ⟨hstop, hfree, ?_, ?_⟩, rfl, Machine.reachesBy_of_step trivial hstep⟩
    · rw [List.length_append, List.length_replicate]
      omega
    · exact move_owed s _ _ hs (Move.grow s self newSize hfree hgrow)
  · rw [if_neg hgrow] at hexec
    exact ⟨true, s, hexec, ⟨hstop, hfree, by omega, hs⟩, rfl, Machine.reaches_refl s⟩

/-- What `resize` is to bring about does come about if it leaves a worker and
    does not shrink the pool. -/
theorem contract_of_grow (threads : Nat) (s : Pool α) (self : Thread) (newSize : Nat)
    (h : Reachable threads s) (hstop : s.stop = false) (hfree : s.queueMutex = none)
    (hle : s.workers.length ≤ newSize) (hpos : 0 < newSize) : SizingContract self newSize s := by
  rcases resize_steady self newSize s (reachable_owed threads s h) hstop hfree hle with
    ⟨b, t, hexec, hsteady, haccepted, hreach⟩
  refine ⟨b, t, hexec, hsteady.free, fun u hu _ => ?_⟩
  have hus := reachesBy_steady newSize t u hsteady hu
  have hur : Reachable threads u :=
    Machine.reaches_trans (Machine.reaches_trans h hreach) (Machine.reaches_of_reachesBy hu)
  have hplaced := reachable_placed threads u hur
  have hcons := reachable_conserved threads u hur
  refine ⟨?_, fun caller => ?_, hus.stop, ?_, accepted_perm u hcons, fun caller body => ?_⟩
  · -- Nobody has left, since the pool is not stopped.
    rw [← hus.size, List.countP_eq_length]
    intro w hw
    rw [Bool.not_eq_true', isExited_eq_false_iff]
    exact not_exited u hplaced hus.stop w hw
  · rw [getSize_free caller u hus.free, hus.size]
  · rw [← haccepted]
    exact reaches_accepted t u (Machine.reaches_of_reachesBy hu)
  · -- The notification of this very call makes the pool busy.
    have henqueue := enqueue_running caller (.user body) u hus.free hus.stop
    refine ⟨_, henqueue, List.mem_append_right _ List.mem_cons_self, fun hpaused x hx => ?_⟩
    have hbusy := busy_of_enqueue newSize u caller body hus hpos hpaused hplaced hcons
    exact executed_of_busy x (reachesBy_busy _ x hbusy hx)

/-- A pool without workers breaks the contract. -/
theorem no_contract_of_empty (threads : Nat) (s : Pool α) (self : Thread) (body : α)
    (h : Reachable threads s) (hstop : s.stop = false) (hfree : s.queueMutex = none)
    (hempty : s.workers = []) : ¬ SizingContract self 0 s := by
  rintro ⟨b, t, hexec, _, hall⟩
  have hresize := resize_free self 0 s hfree
  rw [hempty, List.length_nil, if_neg (Nat.lt_irrefl 0), if_neg (Nat.lt_irrefl 0)] at hresize
  rw [hexec, EStateM.Result.ok.injEq] at hresize
  rw [hresize.2] at hall
  -- After a `resume` the pool is not paused.
  have hresume : (machine α).step s (.call self .resume) =
      some { s with paused := false, resumeNotifies := s.resumeNotifies + 1 } := by
    simp only [machine, step, Op.exec, resume_free self s hfree, commit]
  have hrun : (machine α).ReachesBy Undisturbed s
      { s with paused := false, resumeNotifies := s.resumeNotifies + 1 } := by
    refine Machine.reachesBy_of_step ?_ hresume
    intro caller op heq
    rw [← (Act.call.inj heq).2]
    exact ⟨fun hop => by simp only [reduceCtorEq] at hop,
      fun _ hop => by simp only [reduceCtorEq] at hop⟩
  have howed := reachable_owed threads s h
  have hsettled : Settled { s with paused := false, resumeNotifies := s.resumeNotifies + 1 } :=
    ⟨howed.tasks, not_terminate_held s howed⟩
  rcases (hall _ hrun hsettled).2.2.2.2.2 self body with ⟨v, hv, _, hdone⟩
  have hcons := reachable_conserved threads s h
  rcases unexecuted_of_empty self body
    { s with paused := false, resumeNotifies := s.resumeNotifies + 1 } hempty
    ⟨hcons.fifo, hcons.held, hcons.active, hcons.front⟩ hstop hfree with ⟨x, hx, hnever⟩
  rw [hx, EStateM.Result.ok.injEq] at hv
  rcases hdone rfl v Machine.ReachesBy.refl with ⟨y, hy, hexecuted⟩
  rw [← hv.2] at hy
  exact hnever y hy hexecuted

/-- In every running pool, `resize` does what it is for if and only if it does
    not ask for fewer workers than there are, and asks for one at least. -/
theorem resize_contract_iff [Inhabited α] (threads : Nat) (s : Pool α) (self : Thread)
    (newSize : Nat) (h : Reachable threads s) (hstop : s.stop = false)
    (hfree : s.queueMutex = none) :
    SizingContract self newSize s ↔ s.workers.length ≤ newSize ∧ 0 < newSize := by
  constructor
  · intro hcontract
    -- A call that shrinks the pool does not return.
    have hle : s.workers.length ≤ newSize := by
      by_contra hlt
      rcases hcontract with ⟨b, t, hexec, _⟩
      have hrelock := resize_relocks self newSize s hfree (Nat.lt_of_not_le hlt)
      rcases hrelock with ⟨v, hv, _⟩
      rw [hexec] at hv
      simp only [reduceCtorEq] at hv
    -- A pool that keeps its 0 workers executes nothing.
    refine ⟨hle, Nat.pos_of_ne_zero (fun hzero => ?_)⟩
    rw [hzero] at hcontract hle
    have hempty := List.length_eq_zero_iff.mp (Nat.le_zero.mp hle)
    exact no_contract_of_empty threads s self default h hstop hfree hempty hcontract
  · exact fun hle => contract_of_grow threads s self newSize h hstop hfree hle.1 hle.2

/-- One worker becomes two. -/
theorem resize_contract_iff_two : SizingContract (.caller 0) 2 (create Nat 1) :=
  (resize_contract_iff 1 (create Nat 1) (.caller 0) 2 (Machine.reaches_refl _) rfl rfl).mpr
    (by decide)

/-- Two workers are to become one: the call locks the mutex twice and never
    returns. -/
theorem resize_shrink_relocks :
    Relocks (.caller 0) (resize (.caller 0) 1 (create Nat 2)) ∧
      ¬ SizingContract (.caller 0) 1 (create Nat 2) := by
  have hrelock := resize_relocks (.caller 0) 1 (create Nat 2) rfl (by decide)
  refine ⟨hrelock, ?_⟩
  rintro ⟨b, t, hexec, hfree, _⟩
  exact not_relocks_of_released ⟨b, t, hexec, hfree⟩ hrelock

end ThreadPool

end EpollServer
