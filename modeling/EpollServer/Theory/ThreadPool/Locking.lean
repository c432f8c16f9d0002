import EpollServer.Theory.ThreadPool.Settling
import EpollServer.Theory.ThreadPool.Steps

/-!
# Locking Discipline

When a thread locks `queueMutex` while it owns it.

Every member function locks the mutex once, and gives it back before it
returns. One of them calls another in between: `resize` to a smaller size
holds the lock and calls `enqueue`, which locks it again. So the mutex is
free between any two steps of a run that never shrinks the pool, and in such
a state a call relocks exactly when it shrinks.

`adjustThreadPoolSize` reads the length of the queue and the number of workers
and resizes, each under a lock of its own. The size it asks for is that of the
sizes it has read, and the workers are those there are when it resizes: it
returns exactly when the first is not smaller (`Enough`). If nothing happens in
between it is smaller when the queue is shorter than half of the workers and
there are more than ten of them, which is what the growth under an earlier load
leaves behind (`adjustedSize_lt`); and it can be smaller for any sizes if
another thread makes the pool grow before the resize.

## Main definitions

* `Shrinks`: A call of `resize` to a smaller size.
* `NoShrink`: The guard of the runs without one.
* `Released`: A call that returns and leaves the mutex free.
* `Relocks`: A call that locks twice.
* `Enough`: The sizes read do not ask for fewer workers.

## Theorems

* `move_free`: A transition that does not shrink keeps the mutex free.
* `relocks_iff`: A call on a free pool relocks exactly when it shrinks.
* `adjustedSize_lt`: When sizes ask for fewer workers than they count.
* `enough_iff`: When they ask for fewer than there are.
* `adjust_returns_iff`, `adjust_stuck_iff`: The last piece of
  `adjustThreadPoolSize`.
* `adjustThreadPoolSize_settled_iff`: When it changes nothing.
* `locking_discipline_iff`: The exact condition.
* `adjustThreadPoolSize_relocks`: The server's pool, grown and idle again.
-/

namespace EpollServer

namespace ThreadPool

variable {α : Type}

/-- `resize` to a smaller size than the pool has. -/
def Shrinks (s : Pool α) (op : Op α) : Prop :=
  ∃ newSize, op = .resize newSize ∧ newSize < s.workers.length

/-- A step that does not shrink the pool. -/
def NoShrink (s : Pool α) (a : Act α) : Prop :=
  ∀ self op, a = .call self op → ¬ Shrinks s op

/-- The call returns, and the mutex is free. -/
def Released {β : Type} (r : EStateM.Result Fault (Pool α) β) : Prop :=
  ∃ b t, r = .ok b t ∧ t.queueMutex = none

/-- The call locks the mutex that its thread owns, and keeps it. -/
def Relocks {β : Type} (self : Thread) (r : EStateM.Result Fault (Pool α) β) : Prop :=
  ∃ t, r = .error (.relock self) t ∧ t.queueMutex = some self

theorem not_relocks_of_released {β : Type} {self : Thread}
    {r : EStateM.Result Fault (Pool α) β} (h : Released r) : ¬ Relocks self r := by
  rcases h with ⟨b, t, hr, _⟩
  rintro ⟨u, hu, _⟩
  rw [hr] at hu
  simp only [reduceCtorEq] at hu

/-! ### Runs -/

/-- A transition that does not shrink keeps the mutex free and sets no fault. -/
theorem move_free (s s' : Pool α) (a : Act α) (hm : s.queueMutex = none)
    (hf : s.fault = none) (ha : NoShrink s a) (h : Move s a s') :
    s'.queueMutex = none ∧ s'.fault = none := by
  cases h with
  | relock _ self hown =>
      rw [hm] at hown
      simp only [reduceCtorEq] at hown
  | shrink self newSize _ hlt => exact absurd ⟨newSize, rfl, hlt⟩ (ha self _ rfl)
  | _ => exact ⟨hm, hf⟩

theorem reachesBy_free (threads : Nat) (s : Pool α)
    (h : (machine α).ReachesBy NoShrink (create α threads) s) :
    s.queueMutex = none ∧ s.fault = none :=
  Machine.invariant (I := fun t : Pool α => t.queueMutex = none ∧ t.fault = none) h ⟨rfl, rfl⟩
    (fun t a u ht ha hstep => move_free t u a ht.1 ht.2 ha (move_of_step t u a hstep))

/-! ### Calls -/

theorem resize_relocks (self : Thread) (newSize : Nat) (s : Pool α) (hm : s.queueMutex = none)
    (hlt : newSize < s.workers.length) : Relocks self (resize self newSize s) := by
  have hgrow : ¬ s.workers.length < newSize := by omega
  rw [resize_free self newSize s hm, if_neg hgrow, if_pos hlt]
  exact ⟨_, rfl, rfl⟩

theorem resize_released (self : Thread) (newSize : Nat) (s : Pool α) (hm : s.queueMutex = none)
    (hle : s.workers.length ≤ newSize) : Released (resize self newSize s) := by
  have hshrink : ¬ newSize < s.workers.length := by omega
  rw [resize_free self newSize s hm, if_neg hshrink]
  by_cases hgrow : s.workers.length < newSize
  · rw [if_pos hgrow]
    exact ⟨_, _, rfl, hm⟩
  · rw [if_neg hgrow]
    exact ⟨_, _, rfl, hm⟩

/-- A call whose value is dropped releases the mutex if it does with it. -/
theorem released_drop {β : Type} {f : PoolM α β} {s : Pool α} (h : Released (f s)) :
    Released ((do let _ ← f; pure () : PoolM α Unit) s) := by
  rcases h with ⟨b, t, hr, ht⟩
  refine ⟨(), t, ?_, ht⟩
  simp only [bind, EStateM.bind, hr, pure, EStateM.pure]

theorem relocks_drop {β : Type} {f : PoolM α β} {s : Pool α} {self : Thread}
    (h : Relocks self (f s)) : Relocks self ((do let _ ← f; pure () : PoolM α Unit) s) := by
  rcases h with ⟨t, hr, ht⟩
  refine ⟨t, ?_, ht⟩
  simp only [bind, EStateM.bind, hr]

/-- On a free pool, a call that does not shrink returns and releases. -/
theorem exec_released (self : Thread) (op : Op α) (s : Pool α) (hm : s.queueMutex = none)
    (h : ¬ Shrinks s op) : Released (op.exec self s) := by
  -- Every operation but a shrinking `resize` gives the mutex back.
  cases op with
  | enqueue body =>
      refine released_drop (f := enqueue self (.user body)) ?_
      rw [enqueue_free self _ s hm]
      by_cases hstop : s.stop = true
      · rw [if_pos hstop]
        exact ⟨_, _, rfl, hm⟩
      · rw [if_neg hstop]
        exact ⟨_, _, rfl, hm⟩
  | pause => exact ⟨_, _, pause_free self s hm, hm⟩
  | resume => exact ⟨_, _, resume_free self s hm, hm⟩
  | shutdown => exact ⟨_, _, shutdown_free self s hm, hm⟩
  | waitForCompletion => exact ⟨_, _, waitForCompletion_free self s hm, hm⟩
  | getQueueSize => exact released_drop ⟨_, _, getQueueSize_free self s hm, hm⟩
  | getActiveThreads => exact released_drop ⟨_, _, getActiveThreads_free self s hm, hm⟩
  | getSize => exact released_drop ⟨_, _, getSize_free self s hm, hm⟩
  | resize newSize =>
      have hle : s.workers.length ≤ newSize := by
        by_contra hlt
        exact h ⟨newSize, rfl, by omega⟩
      exact released_drop (resize_released self newSize s hm hle)

theorem exec_relocks (self : Thread) (op : Op α) (s : Pool α) (hm : s.queueMutex = none)
    (h : Shrinks s op) : Relocks self (op.exec self s) := by
  rcases h with ⟨newSize, rfl, hlt⟩
  exact relocks_drop (resize_relocks self newSize s hm hlt)

theorem released_iff (self : Thread) (op : Op α) (s : Pool α) (hm : s.queueMutex = none) :
    Released (op.exec self s) ↔ ¬ Shrinks s op :=
  ⟨fun hr hs => not_relocks_of_released hr (exec_relocks self op s hm hs),
    exec_released self op s hm⟩

theorem relocks_iff (self : Thread) (op : Op α) (s : Pool α) (hm : s.queueMutex = none) :
    Relocks self (op.exec self s) ↔ Shrinks s op := by
  refine ⟨fun hr => ?_, exec_relocks self op s hm⟩
  by_contra hs
  exact not_relocks_of_released (exec_released self op s hm hs) hr

/-! ### `adjustThreadPoolSize` -/

/-- The only way to ask for fewer workers: more than ten of them, and a queue
    shorter than half their number. -/
theorem adjustedSize_lt (queueSize currentSize : Nat) :
    adjustedSize queueSize currentSize < currentSize ↔
      10 < currentSize ∧ queueSize < currentSize / 2 := by
  rcases adjustedSize_cases queueSize currentSize with ⟨hq, heq⟩ | ⟨hq, heq⟩ | ⟨_, hhalf, heq⟩
  · -- A queue longer than the pool asks for more workers.
    rw [heq]
    omega
  · -- Half of them, but at least ten.
    rw [heq]
    omega
  · rw [heq]
    omega

/-- The sizes read do not ask for fewer than so many workers. -/
def Enough (queueSize currentSize workers : Nat) : Prop :=
  (currentSize < queueSize → workers ≤ 2 * currentSize) ∧
    (queueSize < currentSize / 2 → workers ≤ max (currentSize / 2) 10) ∧
    (queueSize ≤ currentSize → currentSize / 2 ≤ queueSize → workers ≤ currentSize)

instance (queueSize currentSize workers : Nat) : Decidable (Enough queueSize currentSize workers) :=
  inferInstanceAs (Decidable ((_ → _) ∧ (_ → _) ∧ (_ → _ → _)))

theorem enough_iff (queueSize currentSize workers : Nat) :
    Enough queueSize currentSize workers ↔ workers ≤ adjustedSize queueSize currentSize := by
  unfold Enough
  rcases adjustedSize_cases queueSize currentSize with ⟨hq, heq⟩ | ⟨hq, heq⟩ | ⟨hq, hhalf, heq⟩
  · rw [heq]
    omega
  · rw [heq]
    omega
  · rw [heq]
    omega

/-- The first two pieces read the sizes of the pool they find. -/
theorem adjust_called (self : Thread) (s : Pool α) (hm : s.queueMutex = none) :
    adjustThreadPoolSize self s .called = some (.queueRead s.tasks.length, s) := by
  simp only [adjustThreadPoolSize, call, getQueueSize_free self s hm, Option.map_some]

theorem adjust_queueRead (self : Thread) (s : Pool α) (hm : s.queueMutex = none)
    (queueSize : Nat) :
    adjustThreadPoolSize self s (.queueRead queueSize) =
      some (.sizesRead queueSize s.workers.length, s) := by
  simp only [adjustThreadPoolSize, call, getSize_free self s hm, Option.map_some]

/-- The last piece, by the workers it finds. -/
theorem adjust_sizesRead (self : Thread) (s : Pool α) (hm : s.queueMutex = none)
    (queueSize currentSize : Nat) :
    adjustThreadPoolSize self s (.sizesRead queueSize currentSize) =
      if s.workers.length < adjustedSize queueSize currentSize then
        some (.returned, { s with
          workers := s.workers ++ List.replicate
            (adjustedSize queueSize currentSize - s.workers.length) Worker.spawned })
      else if adjustedSize queueSize currentSize < s.workers.length then
        some (.stuck, { s with queueMutex := some self, fault := some (.relock self) })
      else some (.returned, s) := by
  simp only [adjustThreadPoolSize, call, resize_free self _ s hm]
  by_cases hgrow : s.workers.length < adjustedSize queueSize currentSize
  · simp only [if_pos hgrow, Option.map_some]
  · by_cases hshrink : adjustedSize queueSize currentSize < s.workers.length
    · simp only [if_neg hgrow, if_pos hshrink, Option.map_some]
    · simp only [if_neg hgrow, if_neg hshrink, Option.map_some]

/-- `adjustThreadPoolSize` returns with the mutex free exactly if the sizes it has
    read do not ask for fewer workers than it finds. -/
theorem adjust_returns_iff (self : Thread) (s : Pool α) (hm : s.queueMutex = none)
    (queueSize currentSize : Nat) :
    (∃ t, adjustThreadPoolSize self s (.sizesRead queueSize currentSize) = some (.returned, t) ∧
        t.queueMutex = none) ↔ Enough queueSize currentSize s.workers.length := by
  rw [enough_iff, adjust_sizesRead self s hm]
  by_cases hgrow : s.workers.length < adjustedSize queueSize currentSize
  · rw [if_pos hgrow]
    exact iff_of_true ⟨_, rfl, hm⟩ hgrow.le
  · rw [if_neg hgrow]
    by_cases hshrink : adjustedSize queueSize currentSize < s.workers.length
    · rw [if_pos hshrink]
      refine iff_of_false (fun h => ?_) (Nat.not_le_of_lt hshrink)
      rcases h with ⟨t, ht, _⟩
      simp only [Option.some.injEq, Prod.mk.injEq, reduceCtorEq, false_and] at ht
    · rw [if_neg hshrink]
      exact iff_of_true ⟨s, rfl, hm⟩ (Nat.le_of_not_lt hshrink)

/-- Otherwise it waits for the mutex that it owns. -/
theorem adjust_stuck_iff (self : Thread) (s : Pool α) (hm : s.queueMutex = none)
    (queueSize currentSize : Nat) :
    (∃ t, adjustThreadPoolSize self s (.sizesRead queueSize currentSize) = some (.stuck, t) ∧
        t.queueMutex = some self) ↔ ¬Enough queueSize currentSize s.workers.length := by
  constructor
  · rintro ⟨t, ht, _⟩ henough
    rcases (adjust_returns_iff self s hm queueSize currentSize).mpr henough with ⟨u, hu, _⟩
    simp only [ht, Option.some.injEq, Prod.mk.injEq, reduceCtorEq, false_and] at hu
  · intro h
    rw [enough_iff] at h
    have hshrink : adjustedSize queueSize currentSize < s.workers.length := Nat.lt_of_not_le h
    refine ⟨{ s with queueMutex := some self, fault := some (.relock self) }, ?_, rfl⟩
    rw [adjust_sizesRead self s hm, if_neg (Nat.lt_asymm hshrink), if_pos hshrink]

/-- On a pool of at least ten, sizes that are those of the pool change nothing
    exactly if they are settled. -/
theorem adjustThreadPoolSize_settled_iff (self : Thread) (s : Pool α)
    (hm : s.queueMutex = none) (hten : 10 ≤ s.workers.length) :
    adjustThreadPoolSize self s (.sizesRead s.tasks.length s.workers.length) =
        some (.returned, s) ↔
      SettledSize s.tasks.length s.workers.length := by
  rw [← adjustedSize_eq_iff hten, adjust_sizesRead self s hm]
  by_cases hgrow : s.workers.length < adjustedSize s.tasks.length s.workers.length
  · -- The workers are more than before.
    rw [if_pos hgrow]
    refine iff_of_false (fun heq => ?_) hgrow.ne'
    rw [Option.some.injEq, Prod.mk.injEq] at heq
    have hlen := congrArg (fun t : Pool α => t.workers.length) heq.2
    simp only [List.length_append, List.length_replicate] at hlen
    omega
  · -- No worker is added.
    rw [if_neg hgrow]
    by_cases hshrink : adjustedSize s.tasks.length s.workers.length < s.workers.length
    · rw [if_pos hshrink]
      refine iff_of_false (fun heq => ?_) hshrink.ne
      simp only [Option.some.injEq, Prod.mk.injEq, reduceCtorEq, false_and] at heq
    · rw [if_neg hshrink]
      exact iff_of_true rfl (by omega)

/-! ### The exact condition -/

/-- In every run that never shrinks the pool, nobody locks the mutex twice
    and every call gives it back. In each state of such a run, a call relocks
    exactly when it would shrink the pool. The pieces of `adjustThreadPoolSize`,
    each of which may be taken in another state of the run, read the two sizes,
    and then, whatever they are, the last one returns exactly when they do not ask
    for fewer workers than there are, and otherwise locks twice. -/
theorem locking_discipline_iff (threads : Nat) (s : Pool α)
    (h : (machine α).ReachesBy NoShrink (create α threads) s) :
    s.queueMutex = none ∧ s.fault = none ∧
      (∀ self op, (Released (op.exec self s) ↔ ¬ Shrinks s op) ∧
        (Relocks self (op.exec self s) ↔ Shrinks s op)) ∧
      ∀ self, adjustThreadPoolSize self s .called = some (.queueRead s.tasks.length, s) ∧
        (∀ queueSize, adjustThreadPoolSize self s (.queueRead queueSize) =
          some (.sizesRead queueSize s.workers.length, s)) ∧
        ∀ queueSize currentSize,
          ((∃ t, adjustThreadPoolSize self s (.sizesRead queueSize currentSize) =
              some (.returned, t) ∧ t.queueMutex = none) ↔
            Enough queueSize currentSize s.workers.length) ∧
          ((∃ t, adjustThreadPoolSize self s (.sizesRead queueSize currentSize) =
              some (.stuck, t) ∧ t.queueMutex = some self) ↔
            ¬Enough queueSize currentSize s.workers.length) := by
  rcases reachesBy_free threads s h with ⟨hm, hf⟩
  -- The guard keeps the mutex free between the operations, so each is run from a free mutex.
  exact ⟨hm, hf, fun self op => ⟨released_iff self op s hm, relocks_iff self op s hm⟩,
    fun self => ⟨adjust_called self s hm, adjust_queueRead self s hm, fun queueSize currentSize =>
      ⟨adjust_returns_iff self s hm queueSize currentSize,
        adjust_stuck_iff self s hm queueSize currentSize⟩⟩⟩

/-- Another thread makes the server's pool grow to twenty, and an adjustment that
    read eleven tasks and ten workers before it resizes now: it returns. -/
theorem locking_discipline_iff_grown : ∃ s : Pool Nat,
    (machine Nat).ReachesBy NoShrink (create Nat 10) s ∧ s.workers.length = 20 ∧
      ∃ t, adjustThreadPoolSize (.caller 0) s (.sizesRead 11 10) = some (.returned, t) ∧
        t.queueMutex = none := by
  have hgrown : (machine Nat).ReachesBy NoShrink (create Nat 10)
      { create Nat 10 with workers := List.replicate 20 Worker.spawned } := by
    refine Machine.reachesBy_of_step (a := .call (.caller 1) (.resize 20)) ?_ rfl
    rintro self op heq ⟨newSize, rfl, hlt⟩
    cases heq
    exact absurd hlt (by decide)
  exact ⟨_, hgrown, rfl,
    ((((locking_discipline_iff 10 _ hgrown).2.2.2 (.caller 0)).2.2 11 10).1).mpr (by decide)⟩

/-- Eleven connections are queued, the pool grows to twenty workers, and two
    of them take a task. The next adjustment reads nine and twenty and locks the
    mutex twice. -/
theorem adjustThreadPoolSize_relocks : ∃ s t : Pool Nat, Reachable 10 s ∧
    s.workers.length = 20 ∧ s.tasks.length = 9 ∧
      adjustThreadPoolSize (.caller 0) s .called = some (.queueRead 9, s) ∧
      adjustThreadPoolSize (.caller 0) s (.queueRead 9) = some (.sizesRead 9 20, s) ∧
      adjustThreadPoolSize (.caller 0) s (.sizesRead 9 20) = some (.stuck, t) ∧
      t.queueMutex = some (.caller 0) := by
  rcases Machine.reaches_of_check (M := machine Nat) (s := create Nat 10)
    (List.replicate 11 (.call (.caller 0) (.enqueue 7)) ++
      [.call (.caller 0) (.resize (adjustedSize 11 10)), .work 0, .work 1])
    (fun s => s.queueMutex == none && s.workers.length == 20 && s.tasks.length == 9)
    (by decide +kernel) with ⟨s, hs, hp⟩
  simp only [Bool.and_eq_true, beq_iff_eq] at hp
  rcases hp with ⟨⟨hm, hw⟩, ht⟩
  have hcalled := adjust_called (.caller 0) s hm
  have hread := adjust_queueRead (.caller 0) s hm 9
  rw [ht] at hcalled
  rw [hw] at hread
  rcases (adjust_stuck_iff (.caller 0) s hm 9 20).mpr (by rw [hw]; decide) with ⟨t, hstuck, hmine⟩
  exact ⟨s, t, hs, hw, ht, hcalled, hread, hstuck, hmine⟩

end ThreadPool

end EpollServer
