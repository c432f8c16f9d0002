import EpollServer.Theory.ThreadPool.Conservation

/-!
# Waiting for Completion

When `waitForCompletion` returns, and why it is never left asleep.

The call evaluates `tasks.empty() && activeThreads == 0` under the mutex and
returns only when it holds. Conservation turns this into a statement about
tasks (`finished_of_complete`): nothing is queued and no worker is between its
dequeue and its decrement, so everything accepted has finished.

A call that found the predicate false sleeps on `pauseCondition`, which it
shares with the workers of a paused pool. Of the two places that notify it,
`resume` has nothing to do with the predicate. What matters is the other one:
the predicate becomes true in no step but the decrement of the last active
worker, and that step notifies under the lock it has decremented under. So
there is no moment at which the predicate holds and a call is asleep
(`Attended`), whatever a spurious wake-up or the `notify_all` of `resume` does
in between.

## Main definitions

* `CompletedIn`: A step in which a call of `waitForCompletion` returns.
* `Attended`: While the predicate holds, no call is asleep.

## Theorems

* `finished_of_complete`: The predicate says that every task has finished.
* `complete_of_completedIn`: A call returns only while the predicate holds.
* `move_attended`: Every transition keeps `Attended`.
* `waitForCompletion_exact`: Both parts, over every run.
-/

namespace EpollServer

namespace ThreadPool

variable {α : Type}

/-- Call `k` of `waitForCompletion` returns in the step from `s` to `s'`. -/
def CompletedIn (s s' : Pool α) (k : Nat) : Prop :=
  s.completions[k]? ≠ some .returned ∧ s'.completions[k]? = some .returned

/-- While the predicate of `waitForCompletion` holds, no call of it is asleep. -/
def Attended (s : Pool α) : Prop := s.complete = true → CompletionCall.asleep ∉ s.completions

theorem complete_iff (s : Pool α) : s.complete = true ↔ s.tasks = [] ∧ s.activeThreads = 0 := by
  unfold Pool.complete
  rw [Bool.and_eq_true, List.isEmpty_iff, beq_iff_eq]

/-- A queue that is empty and a pool without active workers: everything that was
    accepted has finished. -/
theorem finished_of_complete (s : Pool α) (hs : Conserved s) (hc : s.complete = true) :
    s.accepted.Perm s.finished := by
  rcases (complete_iff s).mp hc with ⟨ht, ha⟩
  have hidle : ∀ w ∈ s.workers, ¬ w.position.isActive = true := by
    rw [hs.active] at ha
    exact List.countP_eq_zero.mp ha
  -- A worker that is not active holds no task.
  have hheld : s.held = [] := by
    refine List.filterMap_eq_nil_iff.mpr (fun w hw => task?_of_not_active _ ?_)
    exact Bool.eq_false_iff.mpr (hidle w hw)
  have hperm := hs.held
  rw [hheld, List.append_nil] at hperm
  rw [hs.fifo, ht, List.append_nil]
  exact hperm

/-- A notification lets no call return. -/
theorem returned_of_wake (cs : List CompletionCall) (k : Nat)
    (h : (cs.map CompletionCall.wake)[k]? = some .returned) : cs[k]? = some .returned := by
  rw [List.getElem?_map, Option.map_eq_some_iff] at h
  rcases h with ⟨c, hc, hwake⟩
  rw [hc]
  cases c <;> simp only [CompletionCall.wake, reduceCtorEq] at hwake ⊢

theorem completionCall_returned (s : Pool α) (h : s.completionCall = .returned) :
    s.complete = true := by
  unfold Pool.completionCall at h
  by_cases hc : s.complete = true
  · exact hc
  · rw [if_neg hc] at h
    simp only [reduceCtorEq] at h

/-- A call returns only while the predicate holds, and the step changes no
    task. -/
theorem complete_of_completedIn (s s' : Pool α) (a : Act α) (k : Nat) (h : Move s a s')
    (hk : CompletedIn s s' k) :
    s.complete = true ∧ s'.accepted = s.accepted ∧ s'.finished = s.finished := by
  rcases hk with ⟨hbefore, hafter⟩
  cases h with
  | waitForCompletion self =>
      refine ⟨?_, rfl, rfl⟩
      -- The new call is the one that returned, and it was just evaluated.
      rw [List.getElem?_append] at hafter
      split at hafter
      · exact absurd hafter hbefore
      · rw [List.getElem?_singleton] at hafter
        split at hafter
        · exact completionCall_returned s (Option.some.inj hafter)
        · simp only [reduceCtorEq] at hafter
  | recheck j =>
      refine ⟨?_, rfl, rfl⟩
      rw [List.getElem?_set] at hafter
      split at hafter
      · split at hafter
        · exact completionCall_returned s (Option.some.inj hafter)
        · simp only [reduceCtorEq] at hafter
      · exact absurd hafter hbefore
  | retireLast | notifyResume => exact absurd (returned_of_wake _ k hafter) hbefore
  | wakeCompletion j =>
      rw [List.getElem?_set] at hafter
      split at hafter
      · split at hafter <;> simp only [Option.some.injEq, reduceCtorEq] at hafter
      · exact absurd hafter hbefore
  | _ => exact absurd hafter hbefore

/-- `notify_all` leaves no call asleep. -/
theorem asleep_not_mem_wake (cs : List CompletionCall) :
    CompletionCall.asleep ∉ cs.map CompletionCall.wake := by
  intro h
  rcases List.mem_map.mp h with ⟨c, _, hwake⟩
  cases c <;> simp only [CompletionCall.wake, reduceCtorEq] at hwake

/-- A call that has just evaluated the predicate is not asleep while it holds. -/
theorem completionCall_ne_asleep (s : Pool α) (hc : s.complete = true) :
    CompletionCall.asleep ≠ s.completionCall := by
  unfold Pool.completionCall
  rw [if_pos hc]
  simp only [ne_eq, reduceCtorEq, not_false_eq_true]

/-- Every transition keeps `Attended`. The predicate can only become true where
    the last active worker of an empty queue retires. -/
theorem move_attended (s s' : Pool α) (a : Act α) (hs : Attended s) (h : Move s a s') :
    Attended s' := by
  intro hc
  cases h with
  | enqueue self body =>
      -- Something is queued now.
      exact absurd ((complete_iff _).mp hc).1 (List.append_ne_nil_of_right_ne_nil _
        (List.cons_ne_nil _ _))
  | dequeue i w task rest =>
      exact absurd ((complete_iff _).mp hc).2 (Nat.succ_ne_zero _)
  | retire i w _ _ _ hrest =>
      rcases (complete_iff _).mp hc with ⟨ht, ha⟩
      rcases hrest with hne | hne
      · exact absurd ht hne
      · exact absurd ha hne
  | retireLast | notifyResume => exact asleep_not_mem_wake s.completions
  | waitForCompletion self =>
      intro hmem
      rcases List.mem_append.mp hmem with hold | hnew
      · exact hs hc hold
      · exact completionCall_ne_asleep s hc (List.mem_singleton.mp hnew)
  | recheck k =>
      intro hmem
      rcases List.mem_or_eq_of_mem_set hmem with hold | hnew
      · exact hs hc hold
      · exact completionCall_ne_asleep s hc hnew
  | wakeCompletion k =>
      intro hmem
      rcases List.mem_or_eq_of_mem_set hmem with hold | hnew
      · exact hs hc hold
      · simp only [reduceCtorEq] at hnew
  | _ => exact hs hc

theorem reachable_attended (threads : Nat) (s : Pool α) (h : Reachable threads s) :
    Attended s :=
  Machine.invariant h (fun _ => List.not_mem_nil)
    (fun t a u ht _ hstep => move_attended t u a ht (move_of_step t u a hstep))

/-- Whenever a call of `waitForCompletion` returns, every task accepted so far
    has finished, and no call is asleep while the queue is empty and no worker is
    active. -/
theorem waitForCompletion_exact (threads : Nat) (s : Pool α) (h : Reachable threads s) :
    (∀ a s' k, step s a = some s' → CompletedIn s s' k → s'.accepted.Perm s'.finished) ∧
      (s.tasks = [] → s.activeThreads = 0 → ∀ k : Nat, s.completions[k]? ≠ some .asleep) := by
  constructor
  · intro a s' k hstep hk
    rcases complete_of_completedIn s s' a k (move_of_step s s' a hstep) hk with ⟨hc, hacc, hfin⟩
    rw [hacc, hfin]
    exact finished_of_complete s (reachable_conserved threads s h) hc
  · intro ht ha k hasleep
    have hc := (complete_iff s).mpr ⟨ht, ha⟩
    exact reachable_attended threads s h hc (List.mem_of_getElem? hasleep)

/-- One worker and one task: a call that sleeps while the task runs is woken by
    the decrement and returns after it. -/
theorem waitForCompletion_exact_one : ∃ s s' : Pool Nat, Reachable 1 s ∧
    step s (.recheck 0) = some s' ∧ CompletedIn s s' 0 ∧ s'.accepted.Perm s'.finished := by
  rcases Machine.reaches_of_check (M := machine Nat) (s := create Nat 1)
    [.call (.caller 0) (.enqueue 7), .call (.caller 0) .waitForCompletion, .work 0, .work 0,
      .work 0]
    (fun s => decide (s.completions = [.woken] ∧ s.queueMutex = none ∧ s.tasks = [] ∧
      s.activeThreads = 0)) rfl with ⟨s, hs, hcheck⟩
  rcases of_decide_eq_true hcheck with ⟨hwoken, hfree, ht, ha⟩
  have hcall : s.completionCall = .returned := if_pos ((complete_iff s).mpr ⟨ht, ha⟩)
  have hstep : step s (.recheck 0) =
      some { s with completions := s.completions.set 0 s.completionCall } := by
    simp only [step, hwoken, List.getElem?_cons_zero, recheckCompletion_free _ 0 s hfree, commit]
  have hreturns :
      CompletedIn s { s with completions := s.completions.set 0 s.completionCall } 0 := by
    rw [hwoken, hcall]
    exact ⟨by rw [hwoken]; decide, rfl⟩
  exact ⟨s, _, hs, hstep, hreturns, (waitForCompletion_exact 1 s hs).1 _ _ 0 hstep hreturns⟩

end ThreadPool

end EpollServer
