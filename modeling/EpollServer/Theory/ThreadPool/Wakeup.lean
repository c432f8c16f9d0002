import EpollServer.Theory.ThreadPool.Steps

/-!
# Lost Wake-ups

When a queued task can be left with every worker asleep.

A worker goes to sleep on `condition` only when there is nothing to take: the
queue is empty or the pool is paused. From then on `enqueue` wakes it, and
nothing else does. `resume` notifies `pauseCondition`, and in a pool that is
not stopped nobody sleeps there (`not_sleepPause`), because a worker that
passes the predicate of `condition.wait` finds the pool unpaused.

So tasks enqueued while the pool is paused use up their notifications on
workers that see `paused` and sleep again, and a later `resume` reaches none
of them. `ResumeLoses` is the state of the pool before such a `resume`.
`Wakeful` is the invariant of the runs without one: a task in an unpaused
queue has a worker that is awake, or a notification still to come. The
condition is exact: a `resume` in a losing state leads to a lost wake-up as
soon as its own notification has been issued (`lost_of_resumeLoses`).

## Main definitions

* `Position.isAsleep`: Asleep on one of the two condition variables.
* `LostWakeup`: Tasks are queued, nothing holds the pool back, all sleep.
* `ResumeLoses`: The states in which `resume` loses the wake-up.
* `ResumeSafe`: The guard of the runs without such a `resume`.
* `Wakeful`: The invariant of those runs.

## Theorems

* `not_sleepPause`: Nobody sleeps on `pauseCondition` before `stop`.
* `move_wakeful`: Every transition but a losing `resume` keeps the invariant.
* `lost_of_resumeLoses`: A losing `resume` loses the wake-up.
* `lostWakeup_iff_resume`: The exact condition.
* `lostWakeup_after_pause`: A run of one worker that loses a wake-up.
-/

namespace EpollServer

namespace ThreadPool

variable {α : Type}

/-- Asleep on one of the two condition variables, without a notification. -/
def Position.isAsleep : Position α → Bool
  | .sleepCondition => true
  | .sleepPause => true
  | _ => false

/-- Inside `pauseCondition.wait`. -/
def Position.inPauseWait : Position α → Bool
  | .sleepPause => true
  | .wokenPause => true
  | _ => false

/-- The pool is neither stopped nor paused and has tasks, but every worker
    sleeps and no notification is on its way. -/
def LostWakeup (s : Pool α) : Prop :=
  s.stop = false ∧ s.paused = false ∧ s.tasks ≠ [] ∧
    (∀ w ∈ s.workers, w.position.isAsleep = true) ∧
    s.enqueueNotifies = 0 ∧ s.resumeNotifies = 0

/-- The states in which `resume` loses the wake-up: the pool is paused, holds
    tasks, and every worker sleeps with no `enqueue` about to notify. -/
def ResumeLoses (s : Pool α) : Prop :=
  s.paused = true ∧ s.tasks ≠ [] ∧ (∀ w ∈ s.workers, w.position.isAsleep = true) ∧
    s.enqueueNotifies = 0

instance [DecidableEq α] (s : Pool α) : Decidable (LostWakeup s) :=
  inferInstanceAs (Decidable (_ ∧ _ ∧ _ ∧ _ ∧ _ ∧ _))

/-- A step that is not a `resume` in a losing state. -/
def ResumeSafe (s : Pool α) (a : Act α) : Prop :=
  ∀ self, a = .call self .resume → ¬ ResumeLoses s

/-- What keeps the pool awake: before `stop`, nobody is in
    `pauseCondition.wait`, and tasks in an unpaused queue have a worker awake or a
    notification to come. -/
structure Wakeful (s : Pool α) : Prop where
  workers : s.workers ≠ []
  condition : s.stop = false → ∀ w ∈ s.workers, w.position.inPauseWait = false
  awake : s.stop = false → s.paused = false → s.tasks ≠ [] →
    (∃ w ∈ s.workers, w.position.isAsleep = false) ∨ 0 < s.enqueueNotifies

theorem isAsleep_cases (p : Position α) (h : p.isAsleep = true) :
    p = .sleepCondition ∨ p = .sleepPause := by
  cases p <;> simp only [Position.isAsleep, Bool.false_eq_true] at h
  · exact Or.inl rfl
  · exact Or.inr rfl

theorem modify_ne_nil {l : List (Worker α)} (i : Nat) (f : Worker α → Worker α) (h : l ≠ []) :
    l.modify i f ≠ [] := by
  intro hnil
  have hlen := congrArg List.length hnil
  rw [List.length_modify, List.length_nil] at hlen
  exact h (List.length_eq_zero_iff.mp hlen)

theorem inPauseWait_modify {l : List (Worker α)} {i : Nat} {w : Worker α}
    (f : Worker α → Worker α) (hw : l[i]? = some w) (hq : (f w).position.inPauseWait = false)
    (h : ∀ v ∈ l, v.position.inPauseWait = false) :
    ∀ v ∈ l.modify i f, v.position.inPauseWait = false := by
  intro v hv
  rcases ListModify.mem_of_mem_modify hw hv with rfl | hold
  · exact hq
  · exact h v hold

/-- A step that leaves one worker awake, and outside `pauseCondition.wait`,
    keeps the pool awake. -/
theorem modify_wakeful (s : Pool α) (i : Nat) (w : Worker α) (f : Worker α → Worker α)
    (hs : Wakeful s) (hw : s.workers[i]? = some w) (hp : (f w).position.isAsleep = false)
    (hq : (f w).position.inPauseWait = false) :
    Wakeful { s with workers := s.workers.modify i f } :=
  ⟨modify_ne_nil i f hs.workers,
    fun hstop => inPauseWait_modify f hw hq (hs.condition hstop),
    fun _ _ _ => Or.inl ⟨f w, ListModify.mem_modify_self f hw, hp⟩⟩

theorem setPosition_wakeful (s : Pool α) (i : Nat) (w : Worker α) (p : Position α)
    (hs : Wakeful s) (hw : s.workers[i]? = some w) (hp : p.isAsleep = false)
    (hq : p.inPauseWait = false) : Wakeful (s.setPosition i p) :=
  modify_wakeful s i w (fun v => { v with position := p }) hs hw hp hq

/-- A state that is stopped is wakeful: the invariant is about the time
    before. -/
theorem wakeful_of_stop (s : Pool α) (hw : s.workers ≠ []) (hstop : s.stop = true) :
    Wakeful s :=
  ⟨hw, fun hf => absurd (hf.symm.trans hstop) Bool.false_ne_true,
    fun hf => absurd (hf.symm.trans hstop) Bool.false_ne_true⟩

/-- A worker in `pauseCondition.wait` shows that the pool was stopped. -/
theorem stop_of_inPauseWait (s : Pool α) (hs : Wakeful s) (i : Nat) (w : Worker α)
    (hw : s.workers[i]? = some w) (hp : w.position.inPauseWait = true) : s.stop = true := by
  cases hstop : s.stop with
  | true => rfl
  | false =>
      have hf := hs.condition hstop w (List.mem_of_getElem? hw)
      exact absurd (hf.symm.trans hp) Bool.false_ne_true

/-- With nobody in `pauseCondition.wait`, its notification moves no worker. -/
theorem notifyAllPause_workers (s : Pool α)
    (h : ∀ w ∈ s.workers, w.position.inPauseWait = false) :
    s.notifyAllPause.workers = s.workers := by
  have hid : ∀ w ∈ s.workers, Worker.wakePause w = w := by
    intro w hw
    cases hp : w.position <;> simp only [Worker.wakePause, hp]
    have hf := h w hw
    rw [hp] at hf
    exact absurd hf.symm Bool.false_ne_true
  exact (List.map_congr_left hid).trans (List.map_id _)

theorem notifyAllPause_wakeful (s : Pool α) (hs : Wakeful s) : Wakeful s.notifyAllPause := by
  cases hstop : s.stop with
  | true =>
      refine wakeful_of_stop _ (fun hnil => hs.workers ?_) hstop
      exact List.map_eq_nil_iff.mp hnil
  | false =>
      -- Nobody is in `pauseCondition.wait`, so no worker moves.
      have hsame := notifyAllPause_workers s (hs.condition hstop)
      refine ⟨by rw [hsame]; exact hs.workers, fun _ => ?_, fun _ hpaused htasks => ?_⟩
      · rw [hsame]
        exact hs.condition hstop
      · rw [hsame]
        exact hs.awake hstop hpaused htasks

theorem isAsleep_wakeCondition (w : Worker α) (h : w.position.isAsleep = false) :
    w.wakeCondition.position.isAsleep = false := by
  cases w with
  | mk position joinable =>
      cases position <;> simp only [Position.isAsleep, Bool.true_eq_false] at h ⊢ <;> rfl

theorem inPauseWait_wakeCondition (w : Worker α) :
    w.wakeCondition.position.inPauseWait = w.position.inPauseWait := by
  cases w with
  | mk position joinable => cases position <;> rfl

theorem notifyAllCondition_wakeful (s : Pool α) (hs : Wakeful s) :
    Wakeful s.notifyAllCondition := by
  refine ⟨fun hnil => hs.workers (List.map_eq_nil_iff.mp hnil), fun hstop w hw => ?_,
    fun hstop hpaused htasks => ?_⟩
  · rcases List.mem_map.mp hw with ⟨v, hv, rfl⟩
    rw [inPauseWait_wakeCondition]
    exact hs.condition hstop v hv
  · rcases hs.awake hstop hpaused htasks with ⟨w, hw, hp⟩ | hn
    · exact Or.inl ⟨_, List.mem_map_of_mem hw, isAsleep_wakeCondition w hp⟩
    · exact Or.inr hn

/-- Every transition but a losing `resume` keeps the invariant. -/
theorem move_wakeful (s s' : Pool α) (a : Act α) (hs : Wakeful s) (ha : ResumeSafe s a)
    (h : Move s a s') : Wakeful s' := by
  cases h with
  | relock | waitForCompletion | shrink | joinReturn | joinThrow | recheck | wakeCompletion =>
      exact ⟨hs.workers, hs.condition, hs.awake⟩
  | refuse => exact hs
  | enqueue =>
      -- The `notify_one` of this call is still to come.
      exact ⟨hs.workers, hs.condition, fun _ _ _ => Or.inr (Nat.succ_pos _)⟩
  | pause => exact ⟨hs.workers, hs.condition, fun _ hp => by simp only [Bool.true_eq_false] at hp⟩
  | resume self hm =>
      refine ⟨hs.workers, hs.condition, fun hstop _ htasks => ?_⟩
      -- Were nobody awake and nothing pending, this `resume` would lose.
      cases hpaused : s.paused with
      | false => exact hs.awake hstop hpaused htasks
      | true =>
          by_contra hno
          refine ha self rfl ⟨hpaused, htasks, fun w hw => ?_, ?_⟩
          · cases hp : w.position.isAsleep with
            | true => rfl
            | false => exact absurd (Or.inl ⟨w, hw, hp⟩) hno
          · exact Nat.eq_zero_of_not_pos (fun hpos => hno (Or.inr hpos))
  | shutdown => exact ⟨hs.workers, fun hstop => by simp only [Bool.true_eq_false] at hstop,
      fun hstop => by simp only [Bool.true_eq_false] at hstop⟩
  | query => exact hs
  | grow self newSize hm hlt =>
      refine ⟨fun hnil => hs.workers (List.append_eq_nil_iff.mp hnil).1, fun hstop w hw => ?_,
        fun hstop hpaused htasks => ?_⟩
      · rcases mem_grown hw with hold | rfl
        · exact hs.condition hstop w hold
        · rfl
      · rcases hs.awake hstop hpaused htasks with ⟨w, hw, hp⟩ | hn
        · exact Or.inl ⟨w, List.mem_append_left _ hw, hp⟩
        · exact Or.inr hn
  | sleepCondition i w _ hw _ hstop hidle =>
      -- The only way to sleep before `stop` needs an empty queue or a pause.
      refine ⟨modify_ne_nil i _ hs.workers, fun _ => ?_,
        fun _ hpaused htasks => ?_⟩
      · exact inPauseWait_modify _ hw rfl (hs.condition hstop)
      · rcases hidle with hp | ht
        · exact absurd (hpaused.symm.trans hp) Bool.false_ne_true
        · exact absurd ht htasks
  | exit i w _ hw => exact setPosition_wakeful s i w _ hs hw rfl rfl
  | sleepPause i w _ hw _ hstop =>
      exact wakeful_of_stop _ (modify_ne_nil i _ hs.workers) hstop
  | dequeue i w task rest _ hw =>
      have h := setPosition_wakeful s i w (.running task) hs hw rfl rfl
      exact ⟨h.workers, h.condition,
        fun _ _ _ => Or.inl ⟨_, ListModify.mem_modify_self _ hw, rfl⟩⟩
  | sleepAgain i w _ hw hp =>
      -- Before `stop`, nobody is there to sleep again.
      refine wakeful_of_stop _ (modify_ne_nil i _ hs.workers) ?_
      exact stop_of_inPauseWait s hs i w hw (by rw [hp]; rfl)
  | unpause i w _ hw => exact setPosition_wakeful s i w _ hs hw rfl rfl
  | finish i w task hw =>
      have h := setPosition_wakeful s i w .finished hs hw rfl rfl
      refine ⟨h.workers, fun hstop => h.condition ?_,
        fun _ _ _ => Or.inl ⟨_, ListModify.mem_modify_self _ hw, rfl⟩⟩
      exact (Bool.or_eq_false_iff.mp hstop).1
  | retire i w _ hw =>
      have h := setPosition_wakeful s i w .top hs hw rfl rfl
      exact ⟨h.workers, h.condition, h.awake⟩
  | retireLast i w _ hw =>
      have h := setPosition_wakeful s i w .top hs hw rfl rfl
      exact notifyAllPause_wakeful _ ⟨h.workers, h.condition, h.awake⟩
  | notifyOne i n w _ hw =>
      have h := setPosition_wakeful s i w .top hs hw rfl rfl
      exact ⟨h.workers, h.condition,
        fun _ _ _ => Or.inl ⟨_, ListModify.mem_modify_self _ hw, rfl⟩⟩
  | notifyNobody i n hn hnobody =>
      refine ⟨hs.workers, hs.condition, fun hstop _ _ => Or.inl ?_⟩
      -- Nobody sleeps on either variable, and there is somebody.
      rcases List.exists_mem_of_ne_nil _ hs.workers with ⟨w, hw⟩
      refine ⟨w, hw, ?_⟩
      cases hp : w.position.isAsleep with
      | false => rfl
      | true =>
          rcases isAsleep_cases _ hp with hc | hc
          · exact absurd hc (hnobody w hw)
          · have hf := hs.condition hstop w hw
            rw [hc] at hf
            exact absurd hf.symm Bool.false_ne_true
  | notifyResume n =>
      have h := notifyAllPause_wakeful s hs
      exact ⟨h.workers, h.condition, h.awake⟩
  | notifyShutdown =>
      have h := notifyAllCondition_wakeful s hs
      exact ⟨h.workers, h.condition, h.awake⟩
  | join k next w _ hw _ hp =>
      have h := modify_wakeful s next w (fun v => { v with joinable := false }) hs hw
        (by rw [hp]; rfl) (by rw [hp]; rfl)
      exact ⟨h.workers, h.condition, h.awake⟩
  | wakeCondition i w hw => exact setPosition_wakeful s i w _ hs hw rfl rfl
  | wakePause i w hw hp =>
      -- Before `stop`, nobody is there to wake.
      refine wakeful_of_stop _ (modify_ne_nil i _ hs.workers) ?_
      exact stop_of_inPauseWait s hs i w hw (by rw [hp]; rfl)

theorem create_wakeful (threads : Nat) (hpos : 0 < threads) : Wakeful (create α threads) := by
  refine ⟨fun hnil => ?_, fun _ w hw => ?_, fun _ _ htasks => absurd rfl htasks⟩
  · have hlen := congrArg List.length hnil
    simp only [create, List.length_replicate, List.length_nil] at hlen
    omega
  · rw [List.eq_of_mem_replicate hw]
    rfl

/-- The invariant holds along every run without a losing `resume`. -/
theorem reachesBy_wakeful (threads : Nat) (hpos : 0 < threads) (s : Pool α)
    (h : (machine α).ReachesBy ResumeSafe (create α threads) s) : Wakeful s :=
  Machine.invariant h (create_wakeful threads hpos)
    (fun t a u ht ha hstep => move_wakeful t u a ht ha (move_of_step t u a hstep))

/-- The invariant excludes a lost wake-up. -/
theorem not_lostWakeup (s : Pool α) (hs : Wakeful s) : ¬ LostWakeup s := by
  rintro ⟨hstop, hpaused, htasks, hasleep, hen, _⟩
  rcases hs.awake hstop hpaused htasks with ⟨w, hw, hp⟩ | hn
  · exact absurd (hp.symm.trans (hasleep w hw)) Bool.false_ne_true
  · omega

/-- Before `stop`, issuing the outstanding notifications of `resume` wakes
    nobody, so a pool that sleeps over its tasks has lost the wake-up. -/
theorem lost_of_asleep : ∀ (n : Nat) (s : Pool α), s.resumeNotifies = n → s.stop = false →
    s.paused = false → s.tasks ≠ [] → (∀ w ∈ s.workers, w.position.isAsleep = true) →
    (∀ w ∈ s.workers, w.position.inPauseWait = false) → s.enqueueNotifies = 0 →
    ∃ u, (machine α).Reaches s u ∧ LostWakeup u := by
  intro n
  -- By induction on the notifications still to be issued.
  induction n with
  | zero =>
      intro s hn hstop hpaused htasks hasleep _ hen
      exact ⟨s, Machine.reaches_refl s, hstop, hpaused, htasks, hasleep, hen, hn⟩
  | succ n ih =>
      intro s hn hstop hpaused htasks hasleep hwait hen
      have hsame := notifyAllPause_workers s hwait
      have hstep : (machine α).step s .notifyResume =
          some { s.notifyAllPause with resumeNotifies := n } := by
        simp only [machine, step, hn]
      rcases ih { s.notifyAllPause with resumeNotifies := n } rfl hstop hpaused htasks
        (by rw [hsame]; exact hasleep) (by rw [hsame]; exact hwait) hen with ⟨u, hu, hlost⟩
      exact ⟨u, Machine.reachesBy_head trivial hstep hu, hlost⟩

/-- A losing `resume` loses the wake-up. -/
theorem lost_of_resumeLoses (s t : Pool α) (self : Thread) (hs : Wakeful s)
    (hstop : s.stop = false) (hfree : s.queueMutex = none) (hlose : ResumeLoses s)
    (hstep : step s (.call self .resume) = some t) :
    ∃ u, (machine α).Reaches t u ∧ LostWakeup u := by
  rcases hlose with ⟨_, htasks, hasleep, hen⟩
  simp only [step, Op.exec, resume_free self s hfree, commit, Option.some.injEq] at hstep
  rw [← hstep]
  exact lost_of_asleep (s.resumeNotifies + 1) _ rfl hstop rfl htasks hasleep (hs.condition hstop)
    hen

/-- In every run whose `resume` calls all find the pool unpaused, or empty, or
    with a worker awake or an `enqueue` about to notify, no wake-up is lost;
    and a `resume` that finds none of these loses one. -/
theorem lostWakeup_iff_resume (threads : Nat) (hpos : 0 < threads) (s : Pool α)
    (h : (machine α).ReachesBy ResumeSafe (create α threads) s) :
    ¬ LostWakeup s ∧
      ∀ self t, s.stop = false → s.queueMutex = none →
        step s (.call self .resume) = some t → ResumeLoses s →
        ∃ u, (machine α).Reaches t u ∧ LostWakeup u := by
  have hs := reachesBy_wakeful threads hpos s h
  exact ⟨not_lostWakeup s hs, fun self t hstop hfree hstep hlose =>
    lost_of_resumeLoses s t self hs hstop hfree hlose hstep⟩

/-- One worker with a task queued: the notification is still to come. -/
theorem lostWakeup_iff_resume_one : ∃ s : Pool Nat,
    (machine Nat).step (create Nat 1) (.call (.caller 0) (.enqueue 7)) = some s ∧
      s.tasks = [.user 7] ∧ ¬ LostWakeup s :=
  ⟨_, rfl, rfl, (lostWakeup_iff_resume 1 (by decide) _ (Machine.reachesBy_of_step
    (a := .call (.caller 0) (.enqueue 7)) (fun _ h => by simp only [Act.call.injEq, reduceCtorEq,
      and_false] at h) rfl)).1⟩

/-- One worker sleeps, the pool is paused, a task comes and its notification
    is used up, and `resume` notifies the other variable. -/
theorem lostWakeup_after_pause : ∃ s : Pool Nat,
    (machine Nat).execute (create Nat 1)
      [.work 0, .call (.caller 0) .pause, .call (.caller 0) (.enqueue 7), .notifyOne 0, .work 0,
        .call (.caller 0) .resume, .notifyResume] = some s ∧ LostWakeup s :=
  ⟨_, rfl, by decide⟩

end ThreadPool

end EpollServer
