import EpollServer.Theory.Decline

/-!
# How Many Can Be Served

The other side of `Theory.Serving`: the places of the pool that are not lost
can all be used.

A place that is neither lost nor under a client that is served is with a call
on its way to a connection, with one that gives a connection back, or with an
idle connection. As long as the database answers, each of these moves on: the
call that has the mutex comes out of it (`lucky_inside`), a connection that has
been got is used, and one that is to be given back is (`advances_outside`). The
weight of a call is how far it still has to go, and no call that waits has to
move. What is left then is idle (`places_settled`), and goes to whoever asks.

Who asks is a client whose task a worker has begun, unless its call is about to
fail. For all this nobody has to come, to be queued or begun, or to leave
(`Within`), so the threads of the server have no part in it but to run the
handlers they are in (`reaches_within`). A server serves whoever has a worker,
as far as its places go, even when its main thread hangs (`capacity`).

## Main definitions

* `Held`: The mutex is held by a call inside.
* `Fits`, `Owned`: The phases of the calls and of the tasks that made them.
* `Within`: The steps in handlers and in calls.
* `weight`, `rank`: How far the calls have to go.
* `asks`, `asking`: Who can still get a connection.
* `Onward`: Who asks is served or still asks.
* `Settled`: Every place is served, idle or lost.
* `Known`: The invariants of both halves together.
* `Advances`: A step after which less is to do.

## Theorems

* `reaches_held`, `reaches_owned`: Both hold in every reachable state.
* `lucky_inside`: A call that has the mutex comes out of it.
* `advances_of_not_settled`, `settles`: Every place comes to be settled.
* `serves_asker`: An idle connection serves one who asks.
* `serves_all`: Whoever asks is served, as far as the places go.
* `reaches_within`: A run in the handlers is one of the server.
* `capacity`: How many clients can be served at a time.
-/

namespace EpollServer

namespace Serving

open Handler (Connection TaskAct taskStep)
open Push (Layout Environment packedLayout allSucceed)
open ConnectionPool (Phase called)

variable {ν : Type}

/-! ### The mutex -/

/-- The mutex is held by a call inside. -/
def Held (p : ConnectionPool.State) : Prop :=
  ∀ k, p.mutex = some k → ∃ phase, p.calls[k]? = some phase ∧ phase.inside = true

/-- A call inside stays inside, or lets the mutex go. -/
theorem held_moved (p q : ConnectionPool.State) (k : Nat) (phase phase' : Phase)
    (h : ConnectionPool.Moved p q k phase phase') (hmutex : p.mutex = some k)
    (hinside : phase.inside = true) : Held q := by
  intro j hj
  cases h.locking with
  | lock hfree _ => exact absurd (hfree.symm.trans hmutex) (Option.some_ne_none k).symm
  | keep hsame hkeep =>
      rw [hkeep, hmutex, Option.some.injEq] at hj
      refine ⟨phase', ?_, by rw [hsame, hinside]⟩
      rw [← hj, h.calls, List.getElem?_modify_eq, h.before]
      rfl
  | unlock _ _ hnone =>
      rw [hnone] at hj
      simp only [reduceCtorEq] at hj

theorem held_step (n : Nat) (p q : ConnectionPool.State) (a : ConnectionPool.Act)
    (hkept : ConnectionPool.Kept n p) (hp : Held p) (h : ConnectionPool.step p a = some q) :
    Held q := by
  -- A piece inside is one of the call that has the mutex.
  have hpiece : ∀ k phase phase', ConnectionPool.Moved p q k phase phase' →
      phase.inside = true → Held q :=
    fun k phase phase' hmoved hinside =>
      held_moved p q k phase phase' hmoved (hkept.locked k phase hmoved.before hinside) hinside
  cases ConnectionPool.turn_of_step p q a h with
  | getConnection =>
      intro j hj
      rcases hp j hj with ⟨phase, hphase, hinside⟩
      refine ⟨phase, ?_, hinside⟩
      rw [List.getElem?_append_left (List.getElem?_eq_some_iff.mp hphase).1]
      exact hphase
  | lock k attempt _ hcall =>
      intro j hj
      rw [← Option.some.inj hj]
      exact ⟨_, ConnectionPool.call_setCall p k _ _ hcall, rfl⟩
  | relock k conn _ hcall =>
      intro j hj
      rw [← Option.some.inj hj]
      exact ⟨_, ConnectionPool.call_setCall p k _ _ hcall, rfl⟩
  | pass k attempt hcall =>
      rcases ConnectionPool.moved_search p k attempt hcall with ⟨phase', hmoved⟩
      exact hpiece k _ phase' hmoved rfl
  | validate k attempt conn validation hcall =>
      rcases ConnectionPool.moved_checkPopped p k attempt conn validation hcall with
        ⟨phase', hmoved⟩
      exact hpiece k _ phase' hmoved rfl
  | revalidate k conn validation hcall =>
      rcases ConnectionPool.moved_checkReturned p k conn validation hcall with ⟨phase', hmoved⟩
      exact hpiece k _ phase' hmoved rfl
  | create k attempt connects hcall =>
      rcases ConnectionPool.moved_refill p k attempt _ hcall with ⟨phase', hmoved⟩
      exact hpiece k _ phase' hmoved rfl
  | recreate k connects hcall =>
      rcases ConnectionPool.moved_replace p k _ hcall with ⟨phase', hmoved⟩
      exact hpiece k _ phase' hmoved rfl
  | handOut k conn hcall =>
      intro j hj
      simp only [ConnectionPool.returnFound, ConnectionPool.State.unlock, reduceCtorEq] at hj
  | returnConnection k conn hcall =>
      intro j hj
      rcases hp j hj with ⟨phase, hphase, hinside⟩
      refine ⟨phase, ?_, hinside⟩
      -- Who has a connection is not inside.
      have hne : k ≠ j := by
        rintro rfl
        rw [hcall, Option.some.injEq] at hphase
        rw [← hphase] at hinside
        exact absurd hinside Bool.false_ne_true
      rw [ConnectionPool.State.setCall, List.getElem?_modify_ne _ _ hne]
      exact hphase

theorem reaches_held (poolSize : Int) (connects : Nat → Nat → ConnectionPool.Connect)
    (p q : ConnectionPool.State) (h0 : ConnectionPool.construct poolSize connects = some p)
    (h : ConnectionPool.machine.Reaches p q) : Held q := by
  refine Machine.invariant_of (K := ConnectionPool.Kept poolSize.toNat) h
    (fun t ht => ConnectionPool.reaches_kept poolSize connects p t h0 ht) ?_
    (fun t a u hkept ht _ hstep => held_step _ t u a hkept ht hstep)
  intro k hk
  rw [(ConnectionPool.built_construct poolSize connects p h0).mutex] at hk
  simp only [reduceCtorEq] at hk

/-! ### The owners -/

/-- The phase of a task whose call has come to `phase`: as long as it has no
    connection the task is in `getConnection`, and then it has it until it
    gives it back. -/
def Fits (k : Connection ν) : Phase → Prop
  | .waiting _ => k.phase = .started
  | .searching _ => k.phase = .started
  | .validating _ _ => k.phase = .started
  | .creating _ => k.phase = .started
  | .found _ => k.phase = .started
  | .holding _ => k.phase = .started ∨ keeps k = true ∨ k.phase = .removed
  | _ => True

theorem fits_next (k : Connection ν) (phase phase' : Phase) (h : Next phase phase')
    (hfits : Fits k phase) : Fits k phase' := by
  cases h with
  | lock | pop | sleep | valid | invalid | refill => exact hfits
  | handOut conn => exact Or.inl hfits
  | giveUp | unchecked | relock | given | bad | replaced => exact trivial

/-- A pass of the loop ends in it or behind it. -/
theorem keeps_loop (k : Connection ν) (more : Bool) (hphase : k.phase = .serving) :
    keeps (k.loop more) = true := by
  cases more with
  | true => simp only [keeps, serves, Connection.loop, if_true, hphase, Bool.true_or]
  | false => rfl

/-- Whoever has a connection keeps it until `returnConnection`. -/
theorem fits_holding (L : Layout ν) (env : Environment) (k k' : Connection ν) (a : TaskAct L)
    (conn : Nat) (hbalanced : Handler.Balanced k) (hrun : taskStep L env k a = some k')
    (hgot : a ≠ .getConnection false) (hgiven : ∀ accepted, a ≠ .returnConnection accepted)
    (hfits : Fits k (.holding conn)) : Fits k' (.holding conn) := by
  simp only [Fits] at hfits
  cases Handler.turn_of_taskStep L env k k' a hrun with
  | enqueue hphase | start hphase | close hphase | decrement hphase =>
      simp only [keeps, serves, wastes, hphase, Bool.or_self, Bool.false_eq_true, reduceCtorEq,
        or_self] at hfits
  | getConnection _ obtained =>
      cases obtained with
      | true => exact Or.inr (Or.inl rfl)
      | false => exact absurd rfl hgot
  | message hphase _ more session _ =>
      exact Or.inr (Or.inl (keeps_loop { k with session := session } more hphase))
  | silence hphase activity heartbeat =>
      exact Or.inr (Or.inl (keeps_loop k (activity && heartbeat) hphase))
  | foreign _ => exact hfits
  | throws hphase _ =>
      -- It is the exception that keeps it now.
      simp only [Handler.Balanced, hphase, Handler.Connection.counts, List.cons.injEq] at hbalanced
      exact Or.inr (Or.inl (decide_eq_true ⟨hbalanced.1, hbalanced.2.1⟩))
  | remove _ => exact Or.inr (Or.inr rfl)
  | returnConnection _ accepted => exact absurd rfl (hgiven accepted)

/-- A task goes on with its call as it is. -/
theorem fits_work (L : Layout ν) (env : Environment) (s : State ν) (task : Task ν)
    (a : TaskAct L) (handler : Connection ν) (j : Nat) (phase : Phase) (hj : task.call = some j)
    (hphase : s.pool.calls[j]? = some phase) (hbalanced : Handler.Balanced task.handler)
    (hrun : taskStep L env task.handler a = some handler) (hawaits : Awaits s task a)
    (hfits : Fits task.handler phase) : Fits handler phase := by
  -- What the task has waited for is the phase of its call.
  have hcall : ∀ {phase'}, (∃ k, task.call = some k ∧ s.pool.calls[k]? = some phase') →
      phase = phase' := by
    rintro phase' ⟨k, hk, hphase'⟩
    rw [hj, Option.some.injEq] at hk
    rw [← hk, hphase, Option.some.injEq] at hphase'
    exact hphase'
  have hturn := Handler.turn_of_taskStep L env task.handler handler a hrun
  have hstarted : task.handler.phase = .started →
      (∃ conn, phase = .holding conn) ∨ phase = .failed := by
    intro hstarted
    cases hturn with
    | getConnection _ obtained =>
        cases obtained with
        | true =>
            rcases hawaits with ⟨k, conn, hk, hholding⟩
            exact Or.inl ⟨conn, hcall ⟨k, hk, hholding⟩⟩
        | false => exact Or.inr (hcall hawaits)
    | enqueue h | start h | message h | throws h | silence h | foreign h | remove h
    | returnConnection h | close h | decrement h =>
        rw [hstarted] at h
        exact Handler.Phase.noConfusion h
  cases phase with
  | waiting | searching | validating | creating | found =>
      -- There is nothing to go on with.
      rcases hstarted hfits with ⟨conn, h⟩ | h <;> exact Phase.noConfusion h
  | returning | rechecking | replacing | done | failed => exact trivial
  | holding conn =>
      refine fits_holding L env _ _ a conn hbalanced hrun ?_ ?_ hfits
      · rintro rfl
        exact Phase.noConfusion (hcall hawaits)
      · rintro accepted rfl
        exact Phase.noConfusion (hcall hawaits)

/-- Every call is that of a task, and their phases fit. -/
structure Owned (s : State ν) : Prop where
  owner : ∀ k, k < s.pool.calls.length → ∃ task ∈ s.tasks, task.call = some k
  fits : ∀ task ∈ s.tasks, ∀ k phase, task.call = some k → s.pool.calls[k]? = some phase →
    Fits task.handler phase

/-- One call has gone on, and its phase fits its task as before. -/
theorem owned_moved (s t : State ν) (k : Nat) (phase phase' : Phase)
    (htasks : t.tasks = s.tasks) (hphase : s.pool.calls[k]? = some phase)
    (hcalls : t.pool.calls = s.pool.calls.modify k (fun _ => phase'))
    (hfits : ∀ handler : Connection ν, Fits handler phase → Fits handler phase') (hs : Owned s) :
    Owned t := by
  refine ⟨fun j hj => ?_, fun task htask j other hj hother => ?_⟩
  · rw [hcalls, List.length_modify] at hj
    rw [htasks]
    exact hs.owner j hj
  · rw [htasks] at htask
    rw [hcalls] at hother
    -- The call that moved fits its task as before, and the others did not move.
    by_cases hsame : k = j
    · rw [← hsame, List.getElem?_modify_eq, hphase, Option.map_eq_map, Option.map_some,
        Option.some.injEq] at hother
      rw [← hother]
      exact hfits _ (hs.fits task htask k phase (by rw [hsame, hj]) hphase)
    · rw [List.getElem?_modify_ne _ _ hsame] at hother
      exact hs.fits task htask j other hj hother

/-- A task has called `getConnection`, and waits. -/
theorem owned_call (s t : State ν) (c : Nat) (task : Task ν) (hc : s.tasks[c]? = some task)
    (hstarted : task.handler.phase = .started) (hfresh : task.call = none)
    (htasks : t.tasks = s.tasks.modify c (fun _ => { task with call := some s.pool.calls.length }))
    (hcalls : t.pool.calls = s.pool.calls ++ [.waiting 0]) (hjoined : Joined s) (hs : Owned s) :
    Owned t := by
  refine ⟨fun k hk => ?_, fun other hother k phase hk hphase => ?_⟩
  · rw [htasks]
    rw [hcalls, List.length_append, List.length_singleton] at hk
    -- The new call is that of the task.
    by_cases hlast : k = s.pool.calls.length
    · refine ⟨_, ListModify.mem_modify_self
        (fun _ => { task with call := some s.pool.calls.length }) hc, ?_⟩
      rw [hlast]
    · rcases hs.owner k (by omega) with ⟨other, hother, hcall⟩
      refine ⟨other, ListModify.mem_modify_of_ne hc hother ?_, hcall⟩
      -- A task that already had a call is not the one that makes a new one.
      rintro rfl
      rw [hfresh] at hcall
      simp only [reduceCtorEq] at hcall
  · rw [htasks] at hother
    rw [hcalls] at hphase
    -- The task has not gone on since it made the call.
    rcases ListModify.mem_of_mem_modify hc hother with rfl | hold
    · rw [← Option.some.inj hk, List.getElem?_append_right (Nat.le_refl _), Nat.sub_self,
        List.getElem?_cons_zero, Option.some.injEq] at hphase
      rw [← hphase]
      exact hstarted
    · rw [List.getElem?_append_left (hjoined.made other hold k hk)] at hphase
      exact hs.fits other hold k phase hk hphase

theorem owned_step (L : Layout ν) (env : Nat → Environment) (s t : State ν) (a : Act L)
    (hbalanced : ∀ task ∈ s.tasks, Handler.Balanced task.handler) (hjoined : Joined s)
    (hs : Owned s) (h : step L env s a = some t) : Owned t := by
  cases moved_of_step L env s t a h with
  | stay htasks _ hpool =>
      exact ⟨by rw [htasks, hpool]; exact hs.owner, by rw [htasks, hpool]; exact hs.fits⟩
  | accept htasks _ hpool =>
      refine ⟨fun k hk => ?_, fun task htask k phase hk hphase => ?_⟩
      · rw [hpool] at hk
        rcases hs.owner k hk with ⟨task, htask, hcall⟩
        exact ⟨task, by rw [htasks]; exact List.mem_append_left _ htask, hcall⟩
      · rw [htasks] at htask
        rw [hpool] at hphase
        rcases List.mem_append.mp htask with hold | hnew
        · -- A new connection has no call.
          exact hs.fits task hold k phase hk hphase
        · rw [List.mem_singleton.mp hnew] at hk
          simp only [reduceCtorEq] at hk
  | work c task b handler hc hrun hawaits hafter =>
      have hmem := List.mem_of_getElem? hc
      rw [hafter]
      refine ⟨fun k hk => ?_, fun other hother k phase hk hphase => ?_⟩
      · rcases hs.owner k hk with ⟨other, hother, hcall⟩
        -- The task keeps its call.
        by_cases hsame : other = task
        · refine ⟨_, ListModify.mem_modify_self (fun _ => { task with handler := handler }) hc, ?_⟩
          rw [← hcall, hsame]
        · exact ⟨other, ListModify.mem_modify_of_ne hc hother hsame, hcall⟩
      · rcases ListModify.mem_of_mem_modify hc hother with rfl | hold
        · exact fits_work L (env c) s task b handler k phase hk hphase (hbalanced task hmem) hrun
            hawaits (hs.fits task hmem k phase hk hphase)
        · exact hs.fits other hold k phase hk hphase
  | call c task hc hstarted hfresh htasks _ hpool =>
      exact owned_call s t c task hc hstarted hfresh htasks (by rw [hpool]) hjoined hs
  | giveBack c task k hc hremoved hk htasks _ hpool =>
      simp only [ConnectionPool.step] at hpool
      -- Only a call that holds a connection can give it back.
      split at hpool
      · rename_i conn hholding
        rw [Option.some.injEq] at hpool
        exact owned_moved s t k _ (.returning conn) htasks hholding (by rw [← hpool]; rfl)
          (fun _ _ => trivial) hs
      · simp only [reduceCtorEq] at hpool
  | inside b hinternal htasks _ hpool =>
      rcases calls_inside _ _ b hinternal hpool with ⟨k, phase, phase', hphase, hcalls, hnext⟩
      exact owned_moved s t k phase phase' htasks hphase hcalls
        (fun handler => fits_next handler phase phase' hnext) hs

theorem reaches_owned (L : Layout ν) (env : Nat → Environment) (pool : ConnectionPool.State)
    (s : State ν) (hbuilt : pool.calls = []) (h : (machine L env).Reaches (initial ν pool) s) :
    Owned s := by
  refine Machine.invariant_of (K := fun t : State ν =>
    (∀ task ∈ t.tasks, Handler.Balanced task.handler) ∧ Joined t) h (fun t ht => ⟨?_, ?_⟩) ?_
    (fun t a u hknown ht _ hstep => owned_step L env t u a hknown.1 hknown.2 ht hstep)
  · exact reaches_balanced L env pool t ht
  · exact reaches_joined L env pool t ht
  · refine ⟨fun k hk => ?_, fun _ htask => absurd htask List.not_mem_nil⟩
    rw [initial, hbuilt] at hk
    exact absurd hk (Nat.not_lt_zero k)

/-! ### What can go on -/

/-- No client comes, and none is queued, begun or taken off the count: what the
    tasks do in their handlers, and the calls of the pool. -/
def Within {L : Layout ν} (_ : State ν) : Act L → Prop
  | .accept _ => False
  | .task _ .enqueue => False
  | .task _ .start => False
  | .task _ .decrement => False
  | _ => True

/-- How far a call has to go until its connection is served or idle. -/
def weight : Phase → Nat
  | .creating _ => 7
  | .searching _ => 6
  | .validating _ _ => 5
  | .found _ => 4
  | .holding _ => 3
  | .returning _ => 2
  | .rechecking _ => 1
  | .replacing => 1
  | _ => 0

/-- How far all calls have to go. -/
def rank (s : State ν) : Nat := (s.pool.calls.map weight).sum

/-- The call can still come out of `getConnection` with a connection, or has. -/
def gets (p : ConnectionPool.State) : Phase → Bool
  | .waiting _ => true
  -- The last look at an empty queue is in vain.
  | .searching attempt =>
      !p.connectionQueue.isEmpty || decide (attempt < ConnectionPool.maxAttempts - 1)
  | .validating _ _ => true
  | .creating _ => true
  | .found _ => true
  | .holding _ => true
  | _ => false

/-- So can the call of a task, also if it has not been made yet. -/
def hopes (p : ConnectionPool.State) : Option Nat → Bool
  | none => true
  | some k => (p.calls[k]?.map (gets p)).getD false

/-- The task has begun and is not served, and can get a connection. -/
def asks (p : ConnectionPool.State) (task : Task ν) : Bool :=
  decide (task.handler.phase = .started) && hopes p task.call

/-- The number of tasks that have begun and can get a connection. -/
def asking (s : State ν) : Nat := s.tasks.countP (asks s.pool)

/-- Who was served is, who asked is served or still asks, and nothing is lost. -/
structure Onward (s t : State ν) : Prop where
  gains : served s ≤ served t
  total : served t + asking t = served s + asking s
  wasted : wasted t = wasted s
  dropped : t.pool.dropped = s.pool.dropped

theorem onward_refl (s : State ν) : Onward s s := ⟨le_rfl, rfl, rfl, rfl⟩

theorem onward_trans (s t u : State ν) (hst : Onward s t) (htu : Onward t u) : Onward s u :=
  ⟨hst.gains.trans htu.gains, htu.total.trans hst.total, htu.wasted.trans hst.wasted,
    htu.dropped.trans hst.dropped⟩

theorem not_keeps_of_started (k : Connection ν) (h : k.phase = .started) : keeps k = false := by
  simp only [keeps, serves, wastes, h, Bool.or_self]

/-- Where a call moves, the others ask as before, for none of them is inside. -/
theorem gets_other (p q : ConnectionPool.State) (phase : Phase) (h : phase.inside = false) :
    gets q phase = gets p phase := by
  cases phase with
  | searching | validating | creating | found | rechecking | replacing =>
      exact absurd h.symm Bool.false_ne_true
  | waiting | holding | returning | done | failed => rfl

/-- One call has moved, for its task as well as for nobody. -/
theorem asks_moved (p q : ConnectionPool.State) (k : Nat) (phase phase' : Phase)
    (hphase : p.calls[k]? = some phase)
    (hcalls : q.calls = p.calls.modify k (fun _ => phase'))
    (hothers : ∀ j other, j ≠ k → p.calls[j]? = some other → other.inside = false)
    (task : Task ν)
    (hgets : task.call = some k → task.handler.phase = .started → gets q phase' = gets p phase) :
    asks q task = asks p task := by
  unfold asks
  -- A task that is not at its start asks for nothing.
  by_cases hstarted : task.handler.phase = .started
  · cases hcall : task.call with
    | none => rfl
    | some j =>
        unfold hopes
        rw [hcalls]
        -- Of the calls only one has moved, and what it gets is the same.
        by_cases hjk : j = k
        · rw [hjk] at hcall ⊢
          simp only [List.getElem?_modify_eq, hphase, Option.map_eq_map, Option.map_some,
            hgets hcall hstarted]
        · simp only [List.getElem?_modify_ne _ _ (Ne.symm hjk)]
          cases hother : p.calls[j]? with
          | none => rfl
          | some other =>
              simp only [Option.map_some, gets_other p q other (hothers j other hjk hother)]
  · simp only [decide_eq_false hstarted, Bool.false_and]

/-- A piece of a call is onward if its own task asks as before. -/
theorem onward_moved (s t : State ν) (k : Nat) (phase phase' : Phase)
    (htasks : t.tasks = s.tasks) (hdropped : t.pool.dropped = s.pool.dropped)
    (hphase : s.pool.calls[k]? = some phase)
    (hcalls : t.pool.calls = s.pool.calls.modify k (fun _ => phase'))
    (hothers : ∀ j other, j ≠ k → s.pool.calls[j]? = some other → other.inside = false)
    (hgets : ∀ task ∈ s.tasks, task.call = some k → task.handler.phase = .started →
      gets t.pool phase' = gets s.pool phase) : Onward s t := by
  -- So nobody asks less or more than before.
  have hasking : asking t = asking s := by
    unfold asking
    rw [htasks]
    exact List.countP_congr fun task htask => by
      rw [asks_moved s.pool t.pool k phase phase' hphase hcalls hothers task (hgets task htask)]
  have hserved : served t = served s := by
    unfold served
    rw [htasks]
  refine ⟨hserved.ge, ?_, ?_, hdropped⟩
  · rw [hasking, hserved]
  · rw [wasted, wasted, htasks]

/-- A call that has moved on has less to go. -/
theorem rank_lt (s t : State ν) (k : Nat) (phase phase' : Phase)
    (hphase : s.pool.calls[k]? = some phase)
    (hcalls : t.pool.calls = s.pool.calls.modify k (fun _ => phase'))
    (hlt : weight phase' < weight phase) : rank t < rank s := by
  have hsum := ListModify.sum_modify weight (fun _ => phase') hphase
  rw [← hcalls] at hsum
  unfold rank
  omega

/-- With a database that answers, a call inside goes on and nothing is
    dropped. -/
theorem lucky_inside (p : ConnectionPool.State) (k : Nat) (phase : Phase)
    (hphase : p.calls[k]? = some phase) (hinside : phase.inside = true) :
    ∃ a q phase', isInternal a = true ∧ ConnectionPool.step p a = some q ∧
      q.dropped = p.dropped ∧ q.calls = p.calls.modify k (fun _ => phase') ∧
      gets q phase' = gets p phase ∧ weight phase' < weight phase := by
  cases phase with
  | waiting | holding | returning | done | failed => exact absurd hinside Bool.false_ne_true
  | searching attempt =>
      have hstep : ConnectionPool.step p (.pass k) = some (ConnectionPool.search k attempt p) := by
        simp only [ConnectionPool.step, hphase]
      cases hqueue : p.connectionQueue with
      | cons conn rest =>
          rw [ConnectionPool.search, hqueue] at hstep
          refine ⟨.pass k, _, .validating attempt conn, rfl, hstep, rfl, rfl, ?_,
            Nat.lt_succ_self 5⟩
          simp only [gets, hqueue, List.isEmpty_cons, Bool.not_false, Bool.true_or]
      | nil =>
          by_cases hlast : attempt < ConnectionPool.maxAttempts - 1
          · simp only [ConnectionPool.search, hqueue, hlast, if_true] at hstep
            refine ⟨.pass k, _, .waiting (attempt + 1), rfl, hstep, rfl, rfl, ?_, Nat.succ_pos 5⟩
            simp only [gets, hlast, decide_true, Bool.or_true]
          · simp only [ConnectionPool.search, hqueue, hlast, if_false] at hstep
            refine ⟨.pass k, _, .failed, rfl, hstep, rfl, rfl, ?_, Nat.succ_pos 5⟩
            simp only [gets, hqueue, hlast, List.isEmpty_nil, decide_false, Bool.not_true,
              Bool.or_self]
  | validating attempt conn =>
      have hstep : ConnectionPool.step p (.validate k .valid) =
          some (ConnectionPool.checkPopped k attempt conn .valid p) := by
        simp only [ConnectionPool.step, hphase]
      exact ⟨.validate k .valid, _, .found conn, rfl, hstep, rfl, rfl, rfl, Nat.lt_succ_self 4⟩
  | creating attempt =>
      have hstep : ConnectionPool.step p (.create k fun _ => .connected) =
          some (ConnectionPool.refill k attempt .connection p) := by
        simp only [ConnectionPool.step, hphase]
        rfl
      refine ⟨.create k fun _ => .connected, _, .searching attempt, rfl, hstep, rfl, rfl, ?_,
        Nat.lt_succ_self 6⟩
      -- The new connection is in the queue now.
      have hqueue : (ConnectionPool.refill k attempt .connection p).connectionQueue.isEmpty =
          false := by
        rw [List.isEmpty_eq_false_iff]
        exact List.append_ne_nil_of_right_ne_nil _ (List.cons_ne_nil _ _)
      simp only [gets, hqueue, Bool.not_false, Bool.true_or]
  | found conn =>
      have hstep : ConnectionPool.step p (.handOut k) =
          some (ConnectionPool.returnFound k conn p) := by
        simp only [ConnectionPool.step, hphase]
      exact ⟨.handOut k, _, .holding conn, rfl, hstep, rfl, rfl, rfl, Nat.lt_succ_self 3⟩
  | rechecking conn =>
      have hstep : ConnectionPool.step p (.validate k .valid) =
          some (ConnectionPool.checkReturned k conn .valid p) := by
        simp only [ConnectionPool.step, hphase]
      exact ⟨.validate k .valid, _, .done, rfl, hstep, rfl, rfl, rfl, Nat.lt_succ_self 0⟩
  | replacing =>
      have hstep : ConnectionPool.step p (.create k fun _ => .connected) =
          some (ConnectionPool.replace k .connection p) := by
        simp only [ConnectionPool.step, hphase]
        rfl
      exact ⟨.create k fun _ => .connected, _, .done, rfl, hstep, rfl, rfl, rfl,
        Nat.lt_succ_self 0⟩

/-- A task whose call has got a connection serves its client. -/
theorem onward_gotConnection (L : Layout ν) (env : Nat → Environment) (s : State ν) (c : Nat)
    (task : Task ν) (k conn : Nat) (hc : s.tasks[c]? = some task)
    (hstarted : task.handler.phase = .started) (hk : task.call = some k)
    (hholding : s.pool.calls[k]? = some (.holding conn)) :
    ∃ t, step L env s (.gotConnection c) = some t ∧ Onward s t ∧ asking s = asking t + 1 ∧
      t.pool = s.pool := by
  have hrun : taskStep L (env c) task.handler (.getConnection true) =
      some (Handler.getConnection true task.handler) := by
    simp only [taskStep, hstarted]
  -- It was not served before, and asks no more.
  have hserved := ListModify.countP_modify (fun task : Task ν => serves task.handler)
    (fun _ => { task with handler := Handler.getConnection true task.handler }) hc
  have hwasted := ListModify.countP_modify (fun task : Task ν => wastes task.handler)
    (fun _ => { task with handler := Handler.getConnection true task.handler }) hc
  have hasking := ListModify.countP_modify (asks s.pool)
    (fun _ => { task with handler := Handler.getConnection true task.handler }) hc
  have hasks : asks s.pool task = true := by
    simp only [asks, hopes, hstarted, hk, hholding, gets, decide_true, Option.map_some,
      Option.getD_some, Bool.and_self]
  have hgot : (Handler.getConnection true task.handler).phase = .serving := rfl
  simp only [serves, hstarted, hgot, if_true, Bool.false_eq_true, if_false] at hserved
  simp only [wastes, hstarted, hgot, Bool.false_eq_true, if_false] at hwasted
  rw [hasks] at hasking
  simp only [asks, hgot, reduceCtorEq, decide_false, Bool.false_and, Bool.false_eq_true, if_true,
    if_false] at hasking
  generalize hafter : s.handled c task (.getConnection true : TaskAct L)
    (Handler.getConnection true task.handler) = t
  have htasks : t.tasks = s.tasks.modify c
      (fun _ => { task with handler := Handler.getConnection true task.handler }) := by
    rw [← hafter]
    rfl
  have hpool : t.pool = s.pool := by
    rw [← hafter]
    rfl
  have hless : asking s = asking t + 1 := by
    unfold asking
    rw [htasks, hpool]
    exact hasking.symm
  have hmore : served t = served s + 1 := by
    unfold served
    rw [htasks]
    exact hserved
  refine ⟨t, ?_, ⟨by omega, by omega, ?_, by rw [hpool]⟩, hless, hpool⟩
  · rw [← hafter]
    simp only [step, hc, hk, Option.bind_some, hholding, handle, hrun, Option.map_some]
  · unfold wasted
    rw [htasks]
    exact hwasted

/-- Pieces of calls, one after the other. -/
theorem reaches_inside (L : Layout ν) (env : Nat → Environment) :
    ∀ (as : List ConnectionPool.Act) (s : State ν) (q : ConnectionPool.State),
      (∀ a ∈ as, isInternal a = true) → ConnectionPool.machine.execute s.pool as = some q →
        ∃ t, (machine L env).ReachesBy Within s t ∧ t.tasks = s.tasks ∧ t.pool = q := by
  intro as
  induction as with
  | nil =>
      intro s q _ h
      exact ⟨s, Machine.ReachesBy.refl, rfl, Option.some.inj h⟩
  | cons a as ih =>
      intro s q hall h
      -- The calls of the pool are steps of the server, one for each.
      rw [List.forall_mem_cons] at hall
      simp only [Machine.execute, ConnectionPool.machine] at h
      split at h
      · simp only [reduceCtorEq] at h
      · rename_i p hp
        have hstep : (machine L env).step s (.pool a) =
            some { s with pool := p, thrown := s.thrown ++ throws s.pool a } := by
          simp only [machine, step, hall.1, if_true, hp, Option.map_some]
        rcases ih { s with pool := p, thrown := s.thrown ++ throws s.pool a } q hall.2 h with
          ⟨t, ht, htasks, hpool⟩
        exact ⟨t, Machine.reachesBy_head (P := Within) (a := .pool a) trivial hstep ht, htasks,
          hpool⟩

/-- A call alone with an idle connection gets it. -/
theorem obtains_idle (p : ConnectionPool.State) (k attempt conn : Nat) (rest : List Nat)
    (hk : p.calls[k]? = some (.waiting attempt)) (hmutex : p.mutex = none)
    (hqueue : p.connectionQueue = conn :: rest) :
    ∃ q, ConnectionPool.machine.execute p [.lock k, .pass k, .validate k .valid, .handOut k] =
        some q ∧
      q.calls = p.calls.modify k (fun _ => .holding conn) ∧ q.dropped = p.dropped := by
  have hlock : ConnectionPool.step p (.lock k) =
      some { p.setCall k (.searching attempt) with mutex := some k } := by
    simp only [ConnectionPool.step, hmutex, hk]
  -- Each step is taken from what the one before has left.
  have hsearching := ConnectionPool.call_setCall p k _ (.searching attempt) hk
  generalize hlocked : { p.setCall k (.searching attempt) with mutex := some k } = locked at hlock
  have hcall : locked.calls[k]? = some (.searching attempt) := by
    rw [← hlocked]
    exact hsearching
  have hidle : locked.connectionQueue = conn :: rest := by
    rw [← hlocked]
    exact hqueue
  have hpass : ConnectionPool.step locked (.pass k) =
      some ({ locked with connectionQueue := rest }.setCall k (.validating attempt conn)) := by
    simp only [ConnectionPool.step, hcall, ConnectionPool.search, hidle]
  have hvalidating := ConnectionPool.call_setCall { locked with connectionQueue := rest } k _
    (.validating attempt conn) hcall
  generalize hpopped : { locked with connectionQueue := rest }.setCall k
    (.validating attempt conn) = popped at hpass hvalidating
  have hvalidate : ConnectionPool.step popped (.validate k .valid) =
      some (ConnectionPool.checkPopped k attempt conn .valid popped) := by
    simp only [ConnectionPool.step, hvalidating]
  have hfound := ConnectionPool.call_setCall
    { popped with validated := popped.validated ++ [(k, conn)] } k _ (.found conn) hvalidating
  have hreturn : ConnectionPool.step (ConnectionPool.checkPopped k attempt conn .valid popped)
      (.handOut k) = some (ConnectionPool.returnFound k conn
        (ConnectionPool.checkPopped k attempt conn .valid popped)) := by
    simp only [ConnectionPool.step, ConnectionPool.checkPopped, hfound]
  refine ⟨ConnectionPool.returnFound k conn
    (ConnectionPool.checkPopped k attempt conn .valid popped), ?_, ?_, ?_⟩
  · simp only [Machine.execute, ConnectionPool.machine, hlock, hpass, hvalidate, hreturn]
  · -- Of the four phases only the last one stays.
    rw [← hpopped, ← hlocked]
    simp only [ConnectionPool.returnFound, ConnectionPool.checkPopped, ConnectionPool.State.setCall,
      ConnectionPool.State.unlock, List.modify_modify_eq]
    rfl
  · rw [← hpopped, ← hlocked]
    rfl

/-! ### Every place -/

/-- Nobody is inside, and every place a call takes up is under a connection that
    is served, or was when an exception ended its task. -/
structure Settled (s : State ν) : Prop where
  free : s.pool.mutex = none
  kept : ∀ k phase, s.pool.calls[k]? = some phase → phase.place = 1 →
    ∃ task ∈ s.tasks, task.call = some k ∧ keeps task.handler = true

/-- Then the places are all served, idle or lost. -/
theorem places_settled (n : Nat) (s : State ν) (hkept : ConnectionPool.Kept n s.pool)
    (hjoined : Joined s) (h : Settled s) :
    served s + wasted s + s.pool.connectionQueue.length + s.pool.dropped = n := by
  -- A place is lost by a call or kept by one, never by two.
  have hone : ∀ phase : Phase, phase.place ≤ 1 := by
    intro phase
    cases phase <;> simp only [Phase.place, Nat.zero_le, Nat.le_refl]
  have hle := ListModify.sum_le_length Phase.place hone s.pool.calls
    ((s.tasks.filter fun task => keeps task.handler).filterMap Task.call)
    (fun k phase hphase hplace => by
      rcases h.kept k phase hphase hplace with ⟨task, htask, hcall, hkeeps⟩
      exact List.mem_filterMap.mpr ⟨task, List.mem_filter.mpr ⟨htask, hkeeps⟩, hcall⟩)
  have hlen := List.length_filterMap_le Task.call (s.tasks.filter fun task => keeps task.handler)
  have hserved := served_wasted_le s hjoined
  have hplaces := hkept.places
  rw [served_add_wasted] at hserved ⊢
  -- A place is idle, held by a task, or dropped.
  omega

/-- Nobody is inside where nobody has the mutex. -/
theorem outside_of_free (n : Nat) (p : ConnectionPool.State) (hkept : ConnectionPool.Kept n p)
    (hmutex : p.mutex = none) (k : Nat) (phase : Phase) (hphase : p.calls[k]? = some phase) :
    phase.inside = false := by
  cases hinside : phase.inside with
  | false => rfl
  | true =>
      rw [hkept.locked k phase hphase hinside] at hmutex
      simp only [reduceCtorEq] at hmutex

/-- What is known of every state a run reaches. -/
structure Known (n : Nat) (s : State ν) : Prop where
  kept : ConnectionPool.Kept n s.pool
  held : Held s.pool
  joined : Joined s
  owned : Owned s

theorem reaches_known (L : Layout ν) (env : Nat → Environment) (poolSize : Int)
    (connects : Nat → Nat → ConnectionPool.Connect) (pool : ConnectionPool.State) (s : State ν)
    (h0 : ConnectionPool.construct poolSize connects = some pool)
    (h : (machine L env).Reaches (initial ν pool) s) : Known poolSize.toNat s := by
  have hpool := (reaches_parts L env _ s h).2
  have hbuilt := ConnectionPool.built_construct poolSize connects pool h0
  exact ⟨ConnectionPool.reaches_kept poolSize connects pool s.pool h0 hpool,
    reaches_held poolSize connects pool s.pool h0 hpool, reaches_joined L env pool s h,
    reaches_owned L env pool s hbuilt.calls h⟩

/-- A step that may be taken, after which less is to do. -/
def Advances (L : Layout ν) (env : Nat → Environment) (s : State ν) : Prop :=
  ∃ a t, Within s a ∧ (machine L env).step s a = some t ∧ Onward s t ∧
    asking t + rank t < asking s + rank s

/-- A piece of a call, as a step of the two together. -/
theorem advances_pool (L : Layout ν) (env : Nat → Environment) (s : State ν) (k : Nat)
    (phase phase' : Phase) (a : ConnectionPool.Act) (q : ConnectionPool.State)
    (hphase : s.pool.calls[k]? = some phase) (ha : isInternal a = true)
    (hstep : ConnectionPool.step s.pool a = some q) (hdropped : q.dropped = s.pool.dropped)
    (hcalls : q.calls = s.pool.calls.modify k (fun _ => phase'))
    (hothers : ∀ j other, j ≠ k → s.pool.calls[j]? = some other → other.inside = false)
    (hgets : gets q phase' = gets s.pool phase) (hlt : weight phase' < weight phase) :
    Advances L env s := by
  generalize hafter : { s with pool := q, thrown := s.thrown ++ throws s.pool a } = t
  have htasks : t.tasks = s.tasks := by rw [← hafter]
  have hpool : t.pool = q := by rw [← hafter]
  have honward : Onward s t := by
    refine onward_moved s t k phase phase' htasks (by rw [hpool, hdropped]) hphase
      (by rw [hpool, hcalls]) hothers (fun _ _ _ _ => ?_)
    rw [hpool]
    exact hgets
  have hrank := rank_lt s t k phase phase' hphase (by rw [hpool, hcalls]) hlt
  -- Nobody is served by this step, but someone has come nearer to it.
  have hserved : served t = served s := by
    unfold served
    rw [htasks]
  refine ⟨.pool a, t, trivial, ?_, honward, ?_⟩
  · simp only [machine, step, ha, if_true, hstep, Option.map_some, hafter]
  · have htotal := honward.total
    omega

/-- A call with a connection that is neither served nor idle goes on, or its
    task does. -/
theorem advances_outside (L : Layout ν) (env : Nat → Environment) (n : Nat) (s : State ν)
    (k : Nat) (phase : Phase) (hs : Known n s) (hmutex : s.pool.mutex = none)
    (hphase : s.pool.calls[k]? = some phase) (hplace : phase.place = 1)
    (hfree : ∀ task ∈ s.tasks, task.call = some k → keeps task.handler ≠ true) :
    Advances L env s := by
  have houtside := outside_of_free n s.pool hs.kept hmutex
  have hothers : ∀ j other, j ≠ k → s.pool.calls[j]? = some other → other.inside = false :=
    fun j other _ hother => houtside j other hother
  cases phase with
  | waiting | done | failed => exact absurd hplace Nat.zero_ne_one
  | searching | validating | creating | found | rechecking | replacing =>
      exact absurd (houtside k _ hphase).symm Bool.false_ne_true
  | returning conn =>
      have hstep : ConnectionPool.step s.pool (.lock k) =
          some { s.pool.setCall k (.rechecking conn) with mutex := some k } := by
        simp only [ConnectionPool.step, hmutex, hphase]
      exact advances_pool L env s k _ (.rechecking conn) (.lock k) _ hphase rfl hstep rfl rfl
        hothers rfl (Nat.lt_succ_self 1)
  | holding conn =>
      rcases hs.owned.owner k (List.getElem?_eq_some_iff.mp hphase).1 with ⟨task, htask, hcall⟩
      rcases List.getElem?_of_mem htask with ⟨c, hc⟩
      rcases hs.owned.fits task htask k _ hcall hphase with hstarted | hkeeps | hremoved
      · -- The task has only to notice.
        rcases onward_gotConnection L env s c task k conn hc hstarted hcall hphase with
          ⟨t, hgot, honward, hless, hpool⟩
        refine ⟨.gotConnection c, t, trivial, hgot, honward, ?_⟩
        unfold rank
        rw [hpool]
        omega
      · exact absurd hkeeps (hfree task htask hcall)
      · -- The task has only to call `returnConnection`.
        have hstep : ConnectionPool.step s.pool (.returnConnection k) =
            some (s.pool.setCall k (.returning conn)) := by
          simp only [ConnectionPool.step, hphase]
        generalize hafter : { s with pool := s.pool.setCall k (.returning conn) } = t
        have htasks : t.tasks = s.tasks := by rw [← hafter]
        have hcalls : t.pool.calls = s.pool.calls.modify k (fun _ => .returning conn) := by
          rw [← hafter]
          rfl
        have honward : Onward s t := by
          refine onward_moved s t k _ (.returning conn) htasks (by rw [← hafter]; rfl) hphase
            hcalls hothers (fun other hother hk hstarted => ?_)
          -- The call is that of a task that has left its loop.
          rcases List.getElem?_of_mem hother with ⟨d, hd⟩
          have hcd := ListModify.index_unique Task.call k s.tasks c d task other hs.joined.own hc hd
            hcall hk
          rw [← hcd, hc, Option.some.injEq] at hd
          rw [← hd, hremoved] at hstarted
          exact Handler.Phase.noConfusion hstarted
        have hrank := rank_lt s t k _ (.returning conn) hphase hcalls (Nat.lt_succ_self 2)
        have hserved : served t = served s := by
          unfold served
          rw [htasks]
        refine ⟨.returnConnection c, t, trivial, ?_, honward, ?_⟩
        · simp only [machine, step, hc, hremoved, if_true, hcall, hstep, Option.map_some, hafter]
        · have htotal := honward.total
          omega

/-- As long as it is not settled, something can go on. -/
theorem advances_of_not_settled (L : Layout ν) (env : Nat → Environment) (n : Nat) (s : State ν)
    (hs : Known n s) (h : ¬Settled s) : Advances L env s := by
  cases hmutex : s.pool.mutex with
  | some k =>
      -- The call that has the mutex goes on.
      rcases hs.held k hmutex with ⟨phase, hphase, hinside⟩
      rcases lucky_inside s.pool k phase hphase hinside with
        ⟨a, q, phase', ha, hstep, hdropped, hcalls, hgets, hlt⟩
      refine advances_pool L env s k phase phase' a q hphase ha hstep hdropped hcalls
        (fun j other hjk hother => ?_) hgets hlt
      cases hother_inside : other.inside with
      | false => rfl
      | true =>
          have hj := hs.kept.locked j other hother hother_inside
          rw [hmutex, Option.some.injEq] at hj
          exact absurd hj.symm hjk
  | none =>
      have hplaces : ¬ ∀ k phase, s.pool.calls[k]? = some phase → phase.place = 1 →
          ∃ task ∈ s.tasks, task.call = some k ∧ keeps task.handler = true :=
        fun hplaces => h ⟨hmutex, hplaces⟩
      simp only [not_forall, not_exists, not_and, exists_prop] at hplaces
      rcases hplaces with ⟨k, phase, hphase, hplace, hfree⟩
      exact advances_outside L env n s k phase hs hmutex hphase hplace hfree

/-- A run from there in which every place comes to be served, idle or lost. -/
theorem settles (L : Layout ν) (env : Nat → Environment) (n : Nat) (s : State ν)
    (hknown : ∀ t, (machine L env).Reaches s t → Known n t) :
    ∃ t, (machine L env).ReachesBy Within s t ∧ Onward s t ∧ Settled t := by
  have hlower : ∀ t, ((machine L env).Reaches s t ∧ Onward s t) → ¬Settled t →
      ∃ a u, Within t a ∧ (machine L env).step t a = some u ∧
        ((machine L env).Reaches s u ∧ Onward s u) ∧
        asking u + rank u < asking t + rank t := by
    rintro t ⟨hreach, honward⟩ hnot
    rcases advances_of_not_settled L env n t (hknown t hreach) hnot with
      ⟨a, u, ha, hstep, hmore, hlt⟩
    exact ⟨a, u, ha, hstep, ⟨Machine.reaches_step hreach hstep, onward_trans s t u honward hmore⟩,
      hlt⟩
  rcases Machine.reachesBy_terminal (fun t => asking t + rank t) hlower s
    ⟨Machine.reaches_refl s, onward_refl s⟩ with ⟨t, ht, ⟨_, honward⟩, hsettled⟩
  exact ⟨t, ht, honward, hsettled⟩

/-- The tasks that have a call ask as before. -/
theorem asks_called (s : State ν) (hjoined : Joined s) :
    s.tasks.countP (asks (called s.pool)) = s.tasks.countP (asks s.pool) := by
  refine List.countP_congr fun other hother => ?_
  unfold asks hopes
  cases hcall : other.call with
  | none => exact Iff.rfl
  | some k =>
      have hsame : gets (called s.pool) = gets s.pool := by
        funext phase
        cases phase <;> rfl
      have hold : (called s.pool).calls[k]? = s.pool.calls[k]? :=
        List.getElem?_append_left (hjoined.made other hother k hcall)
      simp only [hold, hsame]

/-- A task that has begun calls `getConnection`, and asks as before. -/
theorem calls_asker (L : Layout ν) (env : Nat → Environment) (s : State ν) (c : Nat)
    (task : Task ν) (hjoined : Joined s) (hsettled : Settled s) (hc : s.tasks[c]? = some task)
    (hstarted : task.handler.phase = .started) (hfresh : task.call = none) :
    ∃ t k, (machine L env).step s (.getConnection c) = some t ∧ Onward s t ∧
      asking t = asking s ∧ Settled t ∧ t.pool.connectionQueue = s.pool.connectionQueue ∧
      t.tasks[c]? = some { task with call := some k } ∧
      t.pool.calls[k]? = some (.waiting 0) := by
  generalize hafter : { s.setTask c { task with call := some s.pool.calls.length } with
    pool := called s.pool } = t
  have htasks : t.tasks = s.tasks.modify c
      (fun _ => { task with call := some s.pool.calls.length }) := by
    rw [← hafter]
    rfl
  have hpool : t.pool = called s.pool := by rw [← hafter]
  have hnew := (ConnectionPool.at_called s.pool hsettled.free).call
  have hstep : (machine L env).step s (.getConnection c) = some t := by
    rw [← hafter]
    simp only [machine, step, hc, hstarted, hfresh, and_self, if_true, ConnectionPool.step,
      Option.map_some, called]
  -- The others ask as before, and so does the task itself.
  have hasking : asking t = asking s := by
    have hcount := ListModify.countP_modify (asks (called s.pool))
      (fun _ => { task with call := some s.pool.calls.length }) hc
    have hbefore : asks (called s.pool) task = true := by
      simp only [asks, hopes, hstarted, hfresh, decide_true, Bool.and_self]
    have hthen : asks (called s.pool) { task with call := some s.pool.calls.length } = true := by
      simp only [asks, hopes, hstarted, hnew, gets, decide_true, Option.map_some,
        Option.getD_some, Bool.and_self]
    rw [hbefore, hthen, if_pos rfl, asks_called s hjoined] at hcount
    unfold asking
    rw [htasks, hpool]
    omega
  have hserved := ListModify.countP_modify (fun task : Task ν => serves task.handler)
    (fun _ => { task with call := some s.pool.calls.length }) hc
  have hwasted := ListModify.countP_modify (fun task : Task ν => wastes task.handler)
    (fun _ => { task with call := some s.pool.calls.length }) hc
  rw [← htasks] at hserved hwasted
  have hsame : served t = served s := Nat.add_right_cancel hserved
  refine ⟨t, s.pool.calls.length, hstep, ⟨hsame.ge, ?_, ?_, ?_⟩, hasking,
    ⟨?_, fun k phase hphase hplace => ?_⟩, ?_, ?_, ?_⟩
  · rw [hasking, hsame]
  · exact Nat.add_right_cancel hwasted
  · rw [hpool]
    rfl
  · rw [hpool]
    exact hsettled.free
  · -- Whoever keeps a place does so with an old call, and is not this task.
    rw [hpool] at hphase
    have hne : phase ≠ .waiting 0 := by
      rintro rfl
      exact absurd hplace Nat.zero_ne_one
    have hold := ConnectionPool.call_before s.pool k phase hne hphase
    rcases hsettled.kept k phase hold hplace with ⟨other, hother, hcall, hkeeps⟩
    refine ⟨other, ?_, hcall, hkeeps⟩
    rw [htasks]
    refine ListModify.mem_modify_of_ne hc hother ?_
    rintro rfl
    rw [hfresh] at hcall
    simp only [reduceCtorEq] at hcall
  · rw [hpool]
    rfl
  · rw [htasks, List.getElem?_modify_eq, hc]
    rfl
  · rw [hpool]
    exact hnew

/-- Whoever asks in a settled state waits for a connection. -/
theorem waiting_of_asks (s : State ν) (task : Task ν) (k : Nat) (hjoined : Joined s)
    (hsettled : Settled s) (htask : task ∈ s.tasks) (hk : task.call = some k)
    (hasks : asks s.pool task = true)
    (houtside : ∀ (j : Nat) (phase : Phase), s.pool.calls[j]? = some phase →
      phase.inside = false) :
    ∃ attempt, s.pool.calls[k]? = some (.waiting attempt) := by
  rw [asks, Bool.and_eq_true, decide_eq_true_eq, hk] at hasks
  rcases hasks with ⟨hstarted, hhopes⟩
  simp only [hopes] at hhopes
  cases hphase : s.pool.calls[k]? with
  | none => rw [hphase] at hhopes; exact absurd hhopes Bool.false_ne_true
  | some phase =>
      have hinside := houtside k phase hphase
      rw [hphase, Option.map_some, Option.getD_some] at hhopes
      cases phase with
      | waiting attempt => exact ⟨attempt, rfl⟩
      | searching | validating | creating | found | rechecking | replacing =>
          exact absurd hinside.symm Bool.false_ne_true
      | returning | done | failed => exact absurd hhopes Bool.false_ne_true
      | holding conn =>
          -- A connection is with a task that is served, and this one is not.
          rcases hsettled.kept k _ hphase rfl with ⟨other, hother, hcall, hkeeps⟩
          rcases List.getElem?_of_mem htask with ⟨c, hc⟩
          rcases List.getElem?_of_mem hother with ⟨d, hd⟩
          have hcd := ListModify.index_unique Task.call k s.tasks c d task other hjoined.own hc hd
            hk hcall
          rw [← hcd, hc, Option.some.injEq] at hd
          rw [← hd, not_keeps_of_started _ hstarted] at hkeeps
          exact absurd hkeeps Bool.false_ne_true

/-- A task that waits gets an idle connection, and its client is served. -/
theorem serves_waiting (L : Layout ν) (env : Nat → Environment) (s : State ν) (c : Nat)
    (task : Task ν) (k attempt : Nat) (hsettled : Settled s)
    (houtside : ∀ (j : Nat) (phase : Phase), s.pool.calls[j]? = some phase →
      phase.inside = false)
    (hidle : s.pool.connectionQueue ≠ []) (hc : s.tasks[c]? = some task)
    (hstarted : task.handler.phase = .started) (hk : task.call = some k)
    (hphase : s.pool.calls[k]? = some (.waiting attempt)) :
    ∃ t, (machine L env).ReachesBy Within s t ∧ Onward s t ∧ asking s = asking t + 1 := by
  rcases List.exists_cons_of_ne_nil hidle with ⟨conn, rest, hqueue⟩
  rcases obtains_idle s.pool k attempt conn rest hphase hsettled.free hqueue with
    ⟨q, hrun, hcalls, hdropped⟩
  rcases reaches_inside L env _ s q
    (by simp only [List.forall_mem_cons, isInternal, List.not_mem_nil, false_implies, implies_true,
      and_self]) hrun with ⟨u, hu, htasks, hpool⟩
  rw [← hpool] at hcalls hdropped
  have honward := onward_moved s u k _ (.holding conn) htasks hdropped hphase hcalls
    (fun j other _ hother => houtside j other hother) (fun _ _ _ _ => rfl)
  have hholding : u.pool.calls[k]? = some (.holding conn) := by
    rw [hcalls, List.getElem?_modify_eq, hphase]
    rfl
  rcases onward_gotConnection L env u c task k conn (by rw [htasks]; exact hc) hstarted hk hholding
    with ⟨t, hgot, hmore, hless, _⟩
  refine ⟨t, .step u t (.gotConnection c) hu trivial hgot, onward_trans s u t honward hmore, ?_⟩
  -- The pieces of the call change nothing for anyone.
  have hserved : served u = served s := by
    unfold served
    rw [htasks]
  have htotal := honward.total
  omega

/-- An idle connection serves one who asks. -/
theorem serves_asker (L : Layout ν) (env : Nat → Environment) (n : Nat) (s : State ν)
    (hs : Known n s) (hsettled : Settled s) (hknown : ∀ t, (machine L env).Reaches s t → Known n t)
    (hidle : s.pool.connectionQueue ≠ []) (hasking : asking s ≠ 0) :
    ∃ t, (machine L env).ReachesBy Within s t ∧ Onward s t ∧ asking s = asking t + 1 := by
  -- There is a task that asks.
  rcases List.countP_pos_iff.mp (Nat.pos_of_ne_zero hasking) with ⟨task, htask, hasks⟩
  rcases List.getElem?_of_mem htask with ⟨c, hc⟩
  have hstarted : task.handler.phase = .started := by
    rw [asks, Bool.and_eq_true, decide_eq_true_eq] at hasks
    exact hasks.1
  -- It waits in a call, or has yet to make one.
  cases hcall : task.call with
  | some k =>
      have houtside := outside_of_free n s.pool hs.kept hsettled.free
      rcases waiting_of_asks s task k hs.joined hsettled htask hcall hasks houtside with
        ⟨attempt, hphase⟩
      exact serves_waiting L env s c task k attempt hsettled houtside hidle hc hstarted hcall hphase
  | none =>
      rcases calls_asker L env s c task hs.joined hsettled hc hstarted hcall with
        ⟨t, k, hstep, honward, hsame, hsettledt, hqueue, hct, hphase⟩
      have hst : (machine L env).ReachesBy Within s t :=
        Machine.reachesBy_of_step (P := Within) (a := .getConnection c) trivial hstep
      -- The call is made, and waits like the other ones.
      have hkeptt := (hknown t (Machine.reaches_of_reachesBy hst)).kept
      rcases serves_waiting L env t c _ k 0 hsettledt
        (outside_of_free n t.pool hkeptt hsettledt.free) (by rw [hqueue]; exact hidle) hct hstarted
        rfl hphase with ⟨u, hu, hmore, hless⟩
      exact ⟨u, Machine.reachesBy_trans hst hu, onward_trans s t u honward hmore, by omega⟩

/-- From every reachable state, without anyone coming or going: all who ask are
    served, or as many as there are places that are not lost. -/
theorem serves_all (L : Layout ν) (env : Nat → Environment) (n : Nat) (s : State ν)
    (hknown : ∀ t, (machine L env).Reaches s t → Known n t) :
    ∃ t, (machine L env).ReachesBy Within s t ∧ Onward s t ∧
      served t = min (n - wasted s - s.pool.dropped) (served s + asking s) := by
  induction hm : asking s using Nat.strong_induction_on generalizing s with
  | _ m ih =>
      rcases settles L env n s hknown with ⟨t, hst, honward, hsettled⟩
      have hreach := Machine.reaches_of_reachesBy hst
      have hknownt := hknown t hreach
      have hplaces := places_settled n t hknownt.kept hknownt.joined hsettled
      have htotal := honward.total
      have hwasted := honward.wasted
      have hdropped := honward.dropped
      by_cases hdone : t.pool.connectionQueue = [] ∨ asking t = 0
      · -- No place is idle, or nobody asks.
        refine ⟨t, hst, honward, ?_⟩
        rcases hdone with hidle | hasking
        · rw [hidle, List.length_nil] at hplaces
          omega
        · omega
      · rw [not_or] at hdone
        rcases serves_asker L env n t hknownt hsettled
          (fun u hu => hknown u (Machine.reaches_trans hreach hu)) hdone.1 hdone.2 with
          ⟨u, htu, hmore, hless⟩
        have hsu := Machine.reachesBy_trans hst htu
        have honwardu := onward_trans s t u honward hmore
        have hgains := honward.gains
        -- One less asks, and the rest is the same question again.
        rcases ih (asking u) (by omega) u
          (fun v hv => hknown v (Machine.reaches_trans (Machine.reaches_of_reachesBy hsu) hv)) rfl
          with ⟨v, huv, hmorev, hserved⟩
        refine ⟨v, Machine.reachesBy_trans hsu huv, onward_trans s u v honwardu hmorev, ?_⟩
        rw [hserved, honwardu.wasted, honwardu.dropped, honwardu.total, hm]

end Serving

namespace Whole

open Handler (Phase)
open Push (Layout Environment packedLayout allSucceed)
open Serving (Within served wasted asking)

variable {ν : Type}

/-! ### The whole server -/

/-- What a connection does in its handler, its worker does. -/
theorem handler_exists (L : Layout ν) (env : Nat → Environment) (pool : ConnectionPool.State)
    (s : State ν) (h : (machine L env).Reaches (initial ν pool) s) (c : Nat) (piece : Piece L)
    (v : Serving.State ν) (hpiece : piece.isHandler = true)
    (hv : Serving.step L env s.serving (piece.of c) = some v) :
    ∃ t, (machine L env).Reaches s t ∧ t.serving = v := by
  rcases goes_piece L env _ v c piece hpiece hv with ⟨p, q, hgoes, hinside, _⟩
  rcases worker_of_inside s (reaches_placed L env pool s h) (reaches_conserved L env pool s h) c p
    hgoes.before hinside with ⟨i, hruns, hhandling⟩
  rcases (unhindered L env pool s h).2 i c piece v hruns hhandling hpiece hv with ⟨t, ht, hserving⟩
  exact ⟨t, Machine.reaches_step (a := .handler i piece) (Machine.reaches_refl s) ht, hserving⟩

/-- A run of the connections in which no client comes, and none is queued, begun
    or taken off the count, is one of the server, whatever becomes of its
    threads. -/
theorem reaches_within (L : Layout ν) (env : Nat → Environment) (pool : ConnectionPool.State)
    (s : State ν) (h : (machine L env).Reaches (initial ν pool) s) (v : Serving.State ν)
    (hv : (Serving.machine L env).ReachesBy Within s.serving v) :
    ∃ t, (machine L env).Reaches s t ∧ t.serving = v := by
  induction hv with
  | refl => exact ⟨s, Machine.reaches_refl s, rfl⟩
  | step u v a _ ha hstep ih =>
      rcases ih with ⟨t, hst, rfl⟩
      have hreach := Machine.reaches_trans h hst
      have hone : ∃ w, (machine L env).Reaches t w ∧ w.serving = v := by
        cases a with
        -- Nobody is accepted within the server.
        | accept => exact ha.elim
        | pool b =>
            have hdatabase : (machine L env).step t (.database b) =
                some { t with serving := v } := by
              have hpool : Serving.step L env t.serving (.pool b) = some v := hstep
              simp only [machine, step, hpool, Option.map_some]
            exact ⟨_, Machine.reaches_step (Machine.reaches_refl t) hdatabase, rfl⟩
        | task c b =>
            refine handler_exists L env pool t hreach c (.task b) v ?_ hstep
            -- Nor does the main thread or a worker do anything outside the handlers.
            cases b with
            | enqueue | start | decrement => exact ha.elim
            | _ => rfl
        | getConnection c => exact handler_exists L env pool t hreach c .getConnection v rfl hstep
        | gotConnection c => exact handler_exists L env pool t hreach c .gotConnection v rfl hstep
        | returnConnection c =>
            exact handler_exists L env pool t hreach c .returnConnection v rfl hstep
        | gaveConnection c => exact handler_exists L env pool t hreach c .gaveConnection v rfl hstep
      rcases hone with ⟨w, htw, hw⟩
      exact ⟨w, Machine.reaches_trans hst htw, hw⟩

/-- In every reachable state of the server, whatever has happened to its clients,
    its threads and its database until then, also if it hangs: in some
    continuation all are served who are served and who ask, or as many as the
    database pool has places less the lost ones, whichever is less; and in no
    continuation more than these places. -/
theorem capacity (L : Layout ν) (env : Nat → Environment) (poolSize : Int)
    (connects : Nat → Nat → ConnectionPool.Connect) (pool : ConnectionPool.State) (s : State ν)
    (h0 : ConnectionPool.construct poolSize connects = some pool)
    (h : (machine L env).Reaches (initial ν pool) s) :
    (∃ t, (machine L env).Reaches s t ∧ served t.serving =
        min (poolSize.toNat - wasted s.serving - s.serving.pool.dropped)
          (served s.serving + asking s.serving)) ∧
      ∀ t, (machine L env).Reaches s t →
        served t.serving ≤ poolSize.toNat - wasted s.serving - s.serving.pool.dropped := by
  have hreach := reaches_serving L env _ s h
  constructor
  · rcases Serving.serves_all L env poolSize.toNat s.serving
      (fun t ht => Serving.reaches_known L env poolSize connects pool t h0
        (Machine.reaches_trans hreach ht)) with ⟨v, hv, _, hserved⟩
    rcases reaches_within L env pool s h v hv with ⟨t, hst, rfl⟩
    exact ⟨t, hst, hserved⟩
  · intro t hst
    -- What is lost stays lost.
    have ht := reaches_serving L env s t hst
    have hbound := Serving.places_bound L env poolSize connects pool t.serving h0
      (Machine.reaches_trans hreach ht)
    have hwasted := Serving.reaches_wasted L env s.serving t.serving ht
    have hdropped := Serving.reaches_dropped s.serving.pool t.serving.pool
      (Serving.reaches_parts L env s.serving t.serving ht).2
    omega

/-- The pool of four connections, made. -/
def fourPool : ConnectionPool.State :=
  { connectionQueue := [0, 1, 2, 3], mutex := none, calls := [], nextConnection := 4, dropped := 0,
    validated := [], handedOut := [] }

/-- A server that hangs at its thirteenth client. Of its four database
    connections none is taken, three clients have a worker, and three are
    served. -/
theorem capacity_hung :
    ∃ s : State UInt32, (machine packedLayout (fun _ => allSucceed)).Reaches
        (initial UInt32 fourPool) s ∧
      s.threads.pool.queueMutex = some (.caller 0) ∧ served s.serving = 0 ∧
      asking s.serving = 3 ∧
      (∃ t, (machine packedLayout (fun _ => allSucceed)).Reaches s t ∧ served t.serving = 3) ∧
      ∀ t, (machine packedLayout (fun _ => allSucceed)).Reaches s t → served t.serving ≤ 4 := by
  -- The thirteenth client finds the mutex taken by the main thread itself.
  have hrun : ((machine packedLayout (fun _ => allSucceed)).execute (initial UInt32 fourPool)
      (burst ++ [.accept true, .proceed, .proceed, .proceed])).map (fun s =>
        decide (s.threads.pool.queueMutex = some (.caller 0) ∧ served s.serving = 0 ∧
          wasted s.serving = 0 ∧ s.serving.pool.dropped = 0 ∧ asking s.serving = 3)) =
      some true := by decide +kernel
  rcases Machine.reaches_of_check _ _ hrun with ⟨s, hs, hcheck⟩
  rcases of_decide_eq_true hcheck with ⟨hmutex, hserved, hwasted, hdropped, hasking⟩
  have hcapacity := capacity packedLayout (fun _ => allSucceed) 4 (fun _ _ => .connected) fourPool s
    rfl hs
  -- With nothing wasted or dropped the bound is the size of the pool.
  rw [hwasted, hdropped, hserved, hasking] at hcapacity
  exact ⟨s, hs, hmutex, hserved, hasking, hcapacity⟩

end Whole

end EpollServer
