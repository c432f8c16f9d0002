import EpollServer.Core.Serving
import EpollServer.Theory.Handler
import EpollServer.Theory.ConnectionPool

/-!
# Who Is Served

What the handlers and the database connections do to each other: how many
connections are served at a time, and when the server has served its last one.

A step of the two together is a step of the handlers, a step of the pool, or
both (`Moved`), so a run is a run of each (`reaches_parts`) and what was shown
of each alone holds of the two. What is new is between them (`Joined`): every
call of the pool is that of one task, and a connection that is served has the
database connection its call has got.

That stays so when an exception ends the task. The `shared_ptr` in
`connectionHandler` is gone then, and so is its database connection, but
nobody has told the pool: its place is taken for ever. Together with the
connections the pool itself drops, these places only get more
(`reaches_wasted`, `reaches_dropped`), and when all are gone the server goes
on to accept clients and serves none of them.

## Main definitions

* `serves`, `wastes`: The connection is served, or was when an exception ended
  its task.
* `served`, `wasted`: How many these are.
* `Has`: The database connection of a connection.
* `Moved`: What a step is for each of the two.
* `Next`: What a piece of a call makes of its phase.
* `Joined`: Tasks and their calls.

## Theorems

* `reaches_parts`: A run of the two together is a run of each.
* `keeps_before`: Only `getConnection` gives a task a database connection.
* `reaches_joined`: Every call is that of one task.
* `served_bounded`: No more connections are served than the pool has places
  left, each with a database connection of its own.
* `exhausted_forever`: A server without places serves nobody again.
-/

namespace EpollServer

namespace Serving

open Handler (Connection TaskAct taskStep)
open Push (Layout Environment packedLayout allSucceed)
open ConnectionPool (Phase)

variable {ν : Type}

/-- The connection is served: it is in the loop of its task, or this has just
    been left. -/
def serves (k : Connection ν) : Bool :=
  match k.phase with
  | .serving => true
  | .leaving => true
  | _ => false

/-- An exception has ended the task while the connection was served. -/
def wastes (k : Connection ν) : Bool :=
  match k.phase with
  | .failed => decide (k.leased = 1 ∧ k.removed = 0)
  | _ => false

/-- The number of connections that are served. -/
def served (s : State ν) : Nat := s.tasks.countP fun task => serves task.handler

/-- The number of tasks that have ended with a database connection. -/
def wasted (s : State ν) : Nat := s.tasks.countP fun task => wastes task.handler

/-- Connection `c` has the database connection `conn`. -/
def Has (s : State ν) (c conn : Nat) : Prop :=
  ∃ task k, s.tasks[c]? = some task ∧ task.call = some k ∧
    s.pool.calls[k]? = some (.holding conn)

/-! ### What a step does -/

/-- What the call of a task has come to when the task takes the piece `a`. -/
def Awaits {L : Layout ν} (s : State ν) (task : Task ν) : TaskAct L → Prop
  | .getConnection true =>
      ∃ k conn, task.call = some k ∧ s.pool.calls[k]? = some (.holding conn)
  | .getConnection false => ∃ k, task.call = some k ∧ s.pool.calls[k]? = some .failed
  | .returnConnection _ => ∃ k, task.call = some k ∧ s.pool.calls[k]? = some .done
  | _ => True

/-- What a step of the tasks and the pool is for each of the two. -/
inductive Moved (L : Layout ν) (env : Nat → Environment) (s t : State ν) : Prop where
  | stay (tasks : t.tasks = s.tasks) (active : t.activeConnections = s.activeConnections)
      (pool : t.pool = s.pool)
  | accept (tasks : t.tasks = s.tasks ++ [{ handler := .opened ν, call := none }])
      (active : t.activeConnections = s.activeConnections + 1) (pool : t.pool = s.pool)
  | work (c : Nat) (task : Task ν) (a : TaskAct L) (handler : Connection ν)
      (before : s.tasks[c]? = some task) (run : taskStep L (env c) task.handler a = some handler)
      (awaits : Awaits s task a) (after : t = s.handled c task a handler)
  | call (c : Nat) (task : Task ν) (before : s.tasks[c]? = some task)
      (started : task.handler.phase = .started) (fresh : task.call = none)
      (tasks : t.tasks = s.tasks.modify c
        (fun _ => { task with call := some s.pool.calls.length }))
      (active : t.activeConnections = s.activeConnections)
      (pool : t.pool = { s.pool with calls := s.pool.calls ++ [.waiting 0] })
  | giveBack (c : Nat) (task : Task ν) (k : Nat) (before : s.tasks[c]? = some task)
      (removed : task.handler.phase = .removed) (made : task.call = some k)
      (tasks : t.tasks = s.tasks) (active : t.activeConnections = s.activeConnections)
      (pool : ConnectionPool.step s.pool (.returnConnection k) = some t.pool)
  | inside (a : ConnectionPool.Act) (internal : isInternal a = true)
      (tasks : t.tasks = s.tasks) (active : t.activeConnections = s.activeConnections)
      (pool : ConnectionPool.step s.pool a = some t.pool)

theorem moved_handle (L : Layout ν) (env : Nat → Environment) (s t : State ν) (c : Nat)
    (task : Task ν) (a : TaskAct L) (hc : s.tasks[c]? = some task) (hawaits : Awaits s task a)
    (h : handle L (env c) s c task a = some t) : Moved L env s t := by
  simp only [handle, Option.map_eq_some_iff] at h
  rcases h with ⟨handler, hrun, hafter⟩
  exact .work c task a handler hc hrun hawaits hafter.symm

theorem moved_of_step (L : Layout ν) (env : Nat → Environment) (s t : State ν) (a : Act L)
    (h : step L env s a = some t) : Moved L env s t := by
  cases a with
  -- The main thread only adds a task; the place in the pool is asked for by the task itself.
  | accept registered =>
      cases registered with
      | true =>
          simp only [step, if_true, Option.some.injEq] at h
          rw [← h]
          exact .accept rfl rfl rfl
      | false =>
          simp only [step, Bool.false_eq_true, if_false, Option.some.injEq] at h
          rw [← h]
          exact .stay rfl rfl rfl
  | task c a =>
      -- What a handler does by itself, the calls of the pool left out.
      simp only [step] at h
      split at h
      · simp only [reduceCtorEq] at h
      · rename_i task hc
        split at h
        · rename_i hlocal
          refine moved_handle L env s t c task a hc ?_ h
          cases a with
          | getConnection _ | returnConnection _ => exact absurd hlocal Bool.false_ne_true
          | _ => exact trivial
        · simp only [reduceCtorEq] at h
  | getConnection c =>
      simp only [step] at h
      split at h
      · simp only [reduceCtorEq] at h
      · rename_i task hc
        split at h
        · -- A call is made once, by a handler that has just started.
          rename_i hphase
          simp only [ConnectionPool.step, Option.map_some, Option.some.injEq] at h
          rw [← h]
          exact .call c task hc hphase.1 hphase.2 rfl rfl rfl
        · simp only [reduceCtorEq] at h
  | gotConnection c =>
      simp only [step] at h
      split at h
      · simp only [reduceCtorEq] at h
      · rename_i task hc
        -- The answer of a call is what the pool has for it: a connection, or its failure.
        split at h
        · rename_i conn hcall
          rw [Option.bind_eq_some_iff] at hcall
          rcases hcall with ⟨k, hk, hholding⟩
          exact moved_handle L env s t c task (.getConnection true) hc ⟨k, conn, hk, hholding⟩ h
        · rename_i hcall
          rw [Option.bind_eq_some_iff] at hcall
          exact moved_handle L env s t c task (.getConnection false) hc hcall h
        · simp only [reduceCtorEq] at h
  | returnConnection c =>
      simp only [step] at h
      split at h
      · simp only [reduceCtorEq] at h
      · rename_i task hc
        split at h
        · -- What is given back is the connection the call had got.
          rename_i hphase
          split at h
          · simp only [reduceCtorEq] at h
          · rename_i k hk
            rw [Option.map_eq_some_iff] at h
            rcases h with ⟨pool, hpool, rfl⟩
            exact .giveBack c task k hc hphase hk rfl rfl hpool
        · simp only [reduceCtorEq] at h
  | gaveConnection c =>
      simp only [step] at h
      split at h
      · simp only [reduceCtorEq] at h
      · rename_i task hc
        split at h
        · simp only [reduceCtorEq] at h
        · rename_i k hk
          split at h
          · rename_i hdone
            exact moved_handle L env s t c task (.returnConnection _) hc ⟨k, hk, hdone⟩ h
          · simp only [reduceCtorEq] at h
  | pool a =>
      simp only [step] at h
      -- Everything else in the pool moves inside one call.
      split at h
      · rename_i hinternal
        rw [Option.map_eq_some_iff] at h
        rcases h with ⟨pool, hpool, rfl⟩
        exact .inside a hinternal rfl rfl hpool
      · simp only [reduceCtorEq] at h

/-! ### The two halves -/

/-- The handlers take a step of theirs, or none. -/
theorem handlers_step (L : Layout ν) (env : Nat → Environment) (s t : State ν) (a : Act L)
    (h : step L env s a = some t) : (Handler.machine L env).Reaches s.handlers t.handlers := by
  have hsame : t.tasks.map Task.handler = s.tasks.map Task.handler →
      t.activeConnections = s.activeConnections →
      (Handler.machine L env).Reaches s.handlers t.handlers := by
    intro htasks hactive
    unfold State.handlers
    rw [htasks, hactive]
    exact Machine.reaches_refl _
  cases moved_of_step L env s t a h with
  | stay htasks hactive _ => exact hsame (by rw [htasks]) hactive
  | accept htasks hactive _ =>
      refine Machine.reaches_step (a := .accept true) (Machine.reaches_refl _) ?_
      simp only [Handler.machine, Handler.step, Handler.accept, if_true, State.handlers, htasks,
        hactive, List.map_append, List.map_singleton]
  | work c task b handler hc hrun _ hafter =>
      refine Machine.reaches_step (a := .task c b) (Machine.reaches_refl _) ?_
      have hconn : s.handlers.connections[c]? = some task.handler := by
        rw [State.handlers, List.getElem?_map, hc, Option.map_some]
      simp only [Handler.machine, Handler.step, hconn, hrun, Option.map_some, Option.some.injEq]
      rw [hafter]
      cases b <;>
        simp only [State.handlers, State.handled, State.setTask, ListModify.map_modify _ _ hc]
  | call c task hc _ _ htasks hactive _ =>
      -- The call is nothing to the handlers.
      refine hsame ?_ hactive
      rw [htasks, ListModify.map_modify _ _ hc, ListModify.modify_self]
      rw [List.getElem?_map, hc, Option.map_some]
  | giveBack _ _ _ _ _ _ htasks hactive _ => exact hsame (by rw [htasks]) hactive
  | inside _ _ htasks hactive _ => exact hsame (by rw [htasks]) hactive

/-- And so does the pool. -/
theorem pool_step (L : Layout ν) (env : Nat → Environment) (s t : State ν) (a : Act L)
    (h : step L env s a = some t) : ConnectionPool.machine.Reaches s.pool t.pool := by
  have hone : ∀ b, ConnectionPool.step s.pool b = some t.pool →
      ConnectionPool.machine.Reaches s.pool t.pool :=
    fun b hb => Machine.reaches_step (a := b) (Machine.reaches_refl _) hb
  cases moved_of_step L env s t a h with
  | stay _ _ hpool | accept _ _ hpool =>
      rw [hpool]
      exact Machine.reaches_refl _
  | work c task b handler _ _ _ hafter =>
      rw [hafter]
      exact Machine.reaches_refl _
  | call c task _ _ _ _ _ hpool => exact hone .getConnection (by rw [hpool]; rfl)
  | giveBack c task k _ _ _ _ _ hpool => exact hone _ hpool
  | inside b _ _ _ hpool => exact hone b hpool

/-- A run of the two together is a run of each. -/
theorem reaches_parts (L : Layout ν) (env : Nat → Environment) (s t : State ν)
    (h : (machine L env).Reaches s t) :
    (Handler.machine L env).Reaches s.handlers t.handlers ∧
      ConnectionPool.machine.Reaches s.pool t.pool :=
  ⟨Machine.reaches_image State.handlers (fun u a v hstep => handlers_step L env u v a hstep) h,
    Machine.reaches_image State.pool (fun u a v hstep => pool_step L env u v a hstep) h⟩

/-! ### Tasks and their calls -/

/-- The connection is served, or an exception has ended its task meanwhile. -/
def keeps (k : Connection ν) : Bool := serves k || wastes k

/-- Every call is that of one task, and one that is served, or was when an
    exception ended it, has a database connection. -/
structure Joined (s : State ν) : Prop where
  own : (s.tasks.filterMap Task.call).Nodup
  made : ∀ task ∈ s.tasks, ∀ k, task.call = some k → k < s.pool.calls.length
  holds : ∀ task ∈ s.tasks, keeps task.handler = true →
    ∃ k conn, task.call = some k ∧ s.pool.calls[k]? = some (.holding conn)

/-- Only `getConnection` makes a task one that has a database connection. -/
theorem keeps_before (L : Layout ν) (env : Environment) (k k' : Connection ν) (a : TaskAct L)
    (hk : Handler.Balanced k) (h : taskStep L env k a = some k') (hkeeps : keeps k' = true) :
    keeps k = true ∨ a = .getConnection true := by
  have hserving : k.phase = .serving → keeps k = true := by
    intro hphase
    simp only [keeps, serves, hphase, Bool.true_or]
  unfold Handler.Balanced at hk
  cases Handler.turn_of_taskStep L env k k' a h with
  | message hphase _ _ _ _ | throws hphase _ | silence hphase _ _ | foreign hphase =>
      exact Or.inl (hserving hphase)
  | enqueue _ | start _ | remove _ | close _ | decrement _ =>
      exact absurd hkeeps Bool.false_ne_true
  | getConnection hphase obtained =>
      cases obtained with
      | true => exact Or.inr rfl
      | false =>
          -- It has not leased one.
          simp only [hphase, Handler.Connection.counts, List.cons.injEq] at hk
          simp only [keeps, serves, wastes, Handler.getConnection, Bool.false_eq_true, if_false,
            Handler.Connection.fail, hk.1, Bool.false_or, decide_eq_true_eq] at hkeeps
          omega
  | returnConnection hphase accepted =>
      cases accepted with
      | true => exact absurd hkeeps Bool.false_ne_true
      | false =>
          -- It is out of epoll by now.
          simp only [hphase, Handler.Connection.counts, List.cons.injEq] at hk
          simp only [keeps, serves, wastes, Handler.returnConnection, Bool.false_eq_true, if_false,
            Handler.Connection.fail, hk.2.1, Bool.false_or, decide_eq_true_eq] at hkeeps
          omega

/-- What a piece of a call can make of its phase. -/
inductive Next : Phase → Phase → Prop where
  | lock (attempt : Nat) : Next (.waiting attempt) (.searching attempt)
  | pop (attempt conn : Nat) : Next (.searching attempt) (.validating attempt conn)
  | sleep (attempt : Nat) : Next (.searching attempt) (.waiting (attempt + 1))
  | giveUp (attempt : Nat) : Next (.searching attempt) .failed
  | valid (attempt conn : Nat) : Next (.validating attempt conn) (.found conn)
  | invalid (attempt conn : Nat) : Next (.validating attempt conn) (.creating attempt)
  | unchecked (attempt conn : Nat) : Next (.validating attempt conn) .failed
  | refill (attempt : Nat) : Next (.creating attempt) (.searching attempt)
  | handOut (conn : Nat) : Next (.found conn) (.holding conn)
  | relock (conn : Nat) : Next (.returning conn) (.rechecking conn)
  | given (conn : Nat) : Next (.rechecking conn) .done
  | bad (conn : Nat) : Next (.rechecking conn) .replacing
  | replaced : Next .replacing .done

theorem next_search (p : ConnectionPool.State) (k attempt : Nat) :
    ∃ phase', (ConnectionPool.search k attempt p).calls = p.calls.modify k (fun _ => phase') ∧
      (ConnectionPool.search k attempt p).dropped = p.dropped ∧
      Next (.searching attempt) phase' := by
  unfold ConnectionPool.search
  cases p.connectionQueue with
  | cons conn rest => exact ⟨_, rfl, rfl, .pop attempt conn⟩
  | nil =>
      by_cases hlast : attempt < ConnectionPool.maxAttempts - 1
      · simp only [hlast, if_true]
        exact ⟨_, rfl, rfl, .sleep attempt⟩
      · simp only [hlast, if_false]
        exact ⟨_, rfl, rfl, .giveUp attempt⟩

/-- A piece of a call moves this call only. -/
theorem calls_inside (p q : ConnectionPool.State) (a : ConnectionPool.Act)
    (ha : isInternal a = true) (h : ConnectionPool.step p a = some q) :
    ∃ k phase phase', p.calls[k]? = some phase ∧
      q.calls = p.calls.modify k (fun _ => phase') ∧ Next phase phase' := by
  -- One turn of the connection pool moves exactly one call.
  cases ConnectionPool.turn_of_step p q a h with
  | getConnection | returnConnection k conn _ => exact absurd ha Bool.false_ne_true
  -- The outcome of a validation is the database's, so each has its own next phase.
  | lock k attempt _ hcall => exact ⟨k, _, _, hcall, rfl, .lock attempt⟩
  | relock k conn _ hcall => exact ⟨k, _, _, hcall, rfl, .relock conn⟩
  | handOut k conn hcall => exact ⟨k, _, _, hcall, rfl, .handOut conn⟩
  | pass k attempt hcall =>
      rcases next_search p k attempt with ⟨phase', hcalls, _, hnext⟩
      exact ⟨k, _, phase', hcall, hcalls, hnext⟩
  | validate k attempt conn validation hcall =>
      cases validation with
      | valid => exact ⟨k, _, _, hcall, rfl, .valid attempt conn⟩
      | invalid => exact ⟨k, _, _, hcall, rfl, .invalid attempt conn⟩
      | exception => exact ⟨k, _, _, hcall, rfl, .unchecked attempt conn⟩
  | revalidate k conn validation hcall =>
      cases validation with
      | valid | exception => exact ⟨k, _, _, hcall, rfl, .given conn⟩
      | invalid => exact ⟨k, _, _, hcall, rfl, .bad conn⟩
  | create k attempt connects hcall =>
      refine ⟨k, _, _, hcall, ?_, .refill attempt⟩
      cases ConnectionPool.createNewConnection connects <;> rfl
  | recreate k connects hcall =>
      refine ⟨k, _, _, hcall, ?_, .replaced⟩
      cases ConnectionPool.createNewConnection connects <;> rfl

/-- And so leaves the connections of the callers with them. -/
theorem holding_inside (p q : ConnectionPool.State) (a : ConnectionPool.Act) (k conn : Nat)
    (ha : isInternal a = true) (hk : p.calls[k]? = some (.holding conn))
    (h : ConnectionPool.step p a = some q) : q.calls[k]? = some (.holding conn) := by
  rcases calls_inside p q a ha h with ⟨j, phase, phase', hj, hcalls, hnext⟩
  -- No piece of a call begins with its caller having a connection.
  have hne : j ≠ k := by
    rintro rfl
    rw [hj, Option.some.injEq] at hk
    rw [hk] at hnext
    cases hnext
  rw [hcalls, List.getElem?_modify_ne _ _ hne]
  exact hk

/-- No step takes a call away. -/
theorem calls_length (p q : ConnectionPool.State) (a : ConnectionPool.Act)
    (h : ConnectionPool.step p a = some q) : p.calls.length ≤ q.calls.length := by
  rcases ConnectionPool.step_cases p q a h with rfl | ⟨k, phase, phase', hmoved⟩
  · rw [List.length_append]
    exact Nat.le_add_right _ _
  · rw [hmoved.calls, List.length_modify]

theorem joined_accept (s : State ν) (hs : Joined s) :
    Joined { s with tasks := s.tasks ++ [{ handler := .opened ν, call := none }] } := by
  refine ⟨?_, fun task htask k hk => ?_, fun task htask hkeeps => ?_⟩
  · rw [List.filterMap_append, List.filterMap_cons_none rfl, List.filterMap_nil, List.append_nil]
    exact hs.own
  · rcases List.mem_append.mp htask with hold | hnew
    · exact hs.made task hold k hk
    · rw [List.mem_singleton.mp hnew] at hk
      simp only [reduceCtorEq] at hk
  · rcases List.mem_append.mp htask with hold | hnew
    · exact hs.holds task hold hkeeps
    · rw [List.mem_singleton.mp hnew] at hkeeps
      exact absurd hkeeps Bool.false_ne_true

/-- The task of one connection has gone on, with the call it has. -/
theorem joined_work (L : Layout ν) (env : Environment) (s : State ν) (c : Nat) (task : Task ν)
    (a : TaskAct L) (handler : Connection ν) (hc : s.tasks[c]? = some task)
    (hbalanced : Handler.Balanced task.handler)
    (hrun : taskStep L env task.handler a = some handler)
    (hawaits : Awaits s task a) (hs : Joined s) : Joined (s.handled c task a handler) := by
  -- The calls are as before, up to the order in which the tasks list them.
  have hperm := ListModify.filterMap_modify_perm Task.call
    (fun _ => { task with handler := handler }) hc
  have hmem := List.mem_of_getElem? hc
  -- Two tasks have no call in common; a call exists; who keeps a connection holds it.
  refine ⟨?_, fun other hother k hk => ?_, fun other hother hkeeps => ?_⟩
  · exact ((List.perm_append_left_iff _).mp hperm).nodup_iff.mpr hs.own
  · rcases ListModify.mem_of_mem_modify hc hother with rfl | hold
    · exact hs.made task hmem k hk
    · exact hs.made other hold k hk
  · rcases ListModify.mem_of_mem_modify hc hother with rfl | hold
    · rcases keeps_before L env _ _ a hbalanced hrun hkeeps with hbefore | ha
      · exact hs.holds task hmem hbefore
      · -- It waited for this call, which has got one.
        rw [ha] at hawaits
        exact hawaits
    · exact hs.holds other hold hkeeps

/-- A task calls `getConnection`. Its call is the last one. -/
theorem joined_call (s t : State ν) (c : Nat) (task : Task ν) (hc : s.tasks[c]? = some task)
    (hstarted : task.handler.phase = .started) (hfresh : task.call = none)
    (htasks : t.tasks = s.tasks.modify c (fun _ => { task with call := some s.pool.calls.length }))
    (hcalls : t.pool.calls = s.pool.calls ++ [.waiting 0]) (hs : Joined s) : Joined t := by
  have hperm := ListModify.filterMap_modify_perm Task.call
    (fun _ => { task with call := some s.pool.calls.length }) hc
  rw [← htasks, hfresh, Option.toList_none, List.nil_append, Option.toList_some,
    List.singleton_append] at hperm
  -- The new call is the last one, and its number was no other task's.
  have hlen : t.pool.calls.length = s.pool.calls.length + 1 := by
    rw [hcalls, List.length_append, List.length_singleton]
  refine ⟨hperm.nodup_iff.mpr (List.nodup_cons.mpr ⟨fun hmem => ?_, hs.own⟩),
    fun other hother k hk => ?_, fun other hother hkeeps => ?_⟩
  · rcases List.mem_filterMap.mp hmem with ⟨other, hother, hcall⟩
    exact absurd (hs.made other hother _ hcall) (Nat.lt_irrefl _)
  · rw [htasks] at hother
    rw [hlen]
    rcases ListModify.mem_of_mem_modify hc hother with rfl | hold
    · rw [← Option.some.inj hk]
      exact Nat.lt_succ_self _
    · exact Nat.lt_succ_of_lt (hs.made other hold k hk)
  · rw [htasks] at hother
    rcases ListModify.mem_of_mem_modify hc hother with rfl | hold
    · -- A task that has only started keeps nothing.
      simp only [keeps, serves, wastes, hstarted, Bool.or_self, Bool.false_eq_true] at hkeeps
    · rcases hs.holds other hold hkeeps with ⟨k, conn, hk, hholding⟩
      refine ⟨k, conn, hk, ?_⟩
      rw [hcalls, List.getElem?_append_left (hs.made other hold k hk)]
      exact hholding

/-- The pool has gone on, and has left the connections of those that are served
    with them. -/
theorem joined_pool (s t : State ν) (a : ConnectionPool.Act) (htasks : t.tasks = s.tasks)
    (hpool : ConnectionPool.step s.pool a = some t.pool)
    (hleft : ∀ task ∈ s.tasks, keeps task.handler = true → ∀ k conn, task.call = some k →
      s.pool.calls[k]? = some (.holding conn) → t.pool.calls[k]? = some (.holding conn))
    (hs : Joined s) : Joined t := by
  refine ⟨by rw [htasks]; exact hs.own, fun task htask k hk => ?_, fun task htask hkeeps => ?_⟩
  · rw [htasks] at htask
    exact Nat.lt_of_lt_of_le (hs.made task htask k hk) (calls_length _ _ a hpool)
  · rw [htasks] at htask
    rcases hs.holds task htask hkeeps with ⟨k, conn, hk, hholding⟩
    exact ⟨k, conn, hk, hleft task htask hkeeps k conn hk hholding⟩

theorem joined_step (L : Layout ν) (env : Nat → Environment) (s t : State ν) (a : Act L)
    (hbalanced : ∀ task ∈ s.tasks, Handler.Balanced task.handler) (hs : Joined s)
    (h : step L env s a = some t) : Joined t := by
  cases moved_of_step L env s t a h with
  | stay htasks _ hpool =>
      exact ⟨by rw [htasks]; exact hs.own, by rw [htasks, hpool]; exact hs.made,
        by rw [htasks, hpool]; exact hs.holds⟩
  | accept htasks _ hpool =>
      have hnew := joined_accept s hs
      exact ⟨by rw [htasks]; exact hnew.own, by rw [htasks, hpool]; exact hnew.made,
        by rw [htasks, hpool]; exact hnew.holds⟩
  | work c task b handler hc hrun hawaits hafter =>
      rw [hafter]
      exact joined_work L (env c) s c task b handler hc (hbalanced task (List.mem_of_getElem? hc))
        hrun hawaits hs
  | call c task hc hstarted hfresh htasks _ hpool =>
      exact joined_call s t c task hc hstarted hfresh htasks (by rw [hpool]) hs
  | giveBack c task k hc hremoved hk htasks _ hpool =>
      refine joined_pool s t _ htasks hpool (fun other hother hkeeps j conn hj hholding => ?_) hs
      -- The call that moves is not theirs: its task is out of the loop.
      have hne : k ≠ j := by
        rintro rfl
        rcases List.getElem?_of_mem hother with ⟨d, hd⟩
        have hcd := ListModify.index_unique Task.call k s.tasks c d task other hs.own hc hd hk hj
        rw [← hcd, hc, Option.some.injEq] at hd
        simp only [← hd, keeps, serves, wastes, hremoved, Bool.or_self, Bool.false_eq_true]
          at hkeeps
      simp only [ConnectionPool.step] at hpool
      split at hpool
      · rw [Option.some.injEq] at hpool
        rw [← hpool, ConnectionPool.State.setCall, List.getElem?_modify_ne _ _ hne]
        exact hholding
      · simp only [reduceCtorEq] at hpool
  | inside b hinternal htasks _ hpool =>
      exact joined_pool s t b htasks hpool
        (fun _ _ _ k conn _ hholding => holding_inside _ _ b k conn hinternal hholding hpool) hs

theorem reaches_balanced (L : Layout ν) (env : Nat → Environment) (pool : ConnectionPool.State)
    (s : State ν) (h : (machine L env).Reaches (initial ν pool) s) :
    ∀ task ∈ s.tasks, Handler.Balanced task.handler := by
  intro task htask
  refine Handler.reaches_balanced L env s.handlers (reaches_parts L env _ s h).1 task.handler ?_
  exact List.mem_map_of_mem htask

theorem reaches_joined (L : Layout ν) (env : Nat → Environment) (pool : ConnectionPool.State)
    (s : State ν) (h : (machine L env).Reaches (initial ν pool) s) : Joined s := by
  refine Machine.invariant_of h (reaches_balanced L env pool) ?_
    (fun t a u hbalanced ht _ hstep => joined_step L env t u a hbalanced ht hstep)
  exact ⟨List.nodup_nil, fun _ htask => absurd htask List.not_mem_nil,
    fun _ htask => absurd htask List.not_mem_nil⟩

/-! ### The bound -/

theorem served_add_wasted (s : State ν) :
    served s + wasted s = (s.tasks.filter fun task => keeps task.handler).length := by
  rw [← List.countP_eq_length_filter]
  unfold served wasted
  induction s.tasks with
  | nil => rfl
  | cons task rest ih =>
      -- No phase is both.
      have hone : (if keeps task.handler = true then 1 else 0) =
          (if serves task.handler = true then 1 else 0) +
            if wastes task.handler = true then 1 else 0 := by
        unfold keeps serves wastes
        cases task.handler.phase <;> simp only [Bool.false_or, Bool.or_false, Bool.false_eq_true,
          if_false, if_true, Nat.zero_add, Nat.add_zero]
      rw [List.countP_cons, List.countP_cons, List.countP_cons, hone]
      omega

/-- The connections that are served and those that were when an exception ended
    their tasks take up a place of the pool each. -/
theorem served_wasted_le (s : State ν) (hs : Joined s) :
    served s + wasted s ≤ (s.pool.calls.map Phase.place).sum := by
  have hall : ∀ task ∈ s.tasks.filter (fun task => keeps task.handler),
      task ∈ s.tasks ∧ keeps task.handler = true :=
    fun task htask => List.mem_filter.mp htask
  have hlen := (List.filterMap_length_eq_length (f := Task.call)
    (l := s.tasks.filter fun task => keeps task.handler)).mpr (fun task htask => by
      rcases hs.holds task (hall task htask).1 (hall task htask).2 with ⟨k, _, hk, _⟩
      rw [hk]
      rfl)
  rw [served_add_wasted, ← hlen]
  -- Their calls are different ones, and each of them takes up a place.
  refine ListModify.length_le_sum Phase.place s.pool.calls _
    (hs.own.sublist (List.filter_sublist.filterMap Task.call)) (fun k hk => ?_)
  rcases List.mem_filterMap.mp hk with ⟨task, htask, hcall⟩
  rcases hs.holds task (hall task htask).1 (hall task htask).2 with ⟨j, conn, hj, hholding⟩
  rw [hcall, Option.some.injEq] at hj
  rw [hj]
  exact ⟨_, hholding, Nat.le_refl 1⟩

/-- No two connections have one database connection, and none has an idle one. -/
theorem has_unique (n : Nat) (s : State ν) (hs : Joined s) (hkept : ConnectionPool.Kept n s.pool)
    (c conn : Nat) (hc : Has s c conn) :
    conn ∉ s.pool.connectionQueue ∧ ∀ d, Has s d conn → d = c := by
  rcases hc with ⟨task, k, htask, hk, hholding⟩
  rcases List.nodup_append.mp hkept.nodup with ⟨_, huse, hdisjoint⟩
  refine ⟨fun hidle => ?_, fun d hd => ?_⟩
  · refine hdisjoint conn hidle conn ?_ rfl
    exact List.mem_filterMap.mpr ⟨_, List.mem_of_getElem? hholding, rfl⟩
  · rcases hd with ⟨other, j, hother, hj, hholding'⟩
    -- One call has it, and the call belongs to one task.
    have hjk := ListModify.index_unique Phase.connection conn s.pool.calls j k _ _ huse hholding'
      hholding rfl rfl
    rw [hjk] at hj
    exact ListModify.index_unique Task.call k s.tasks d c other task hs.own hother htask hj hk

/-- All places together are no more than the pool has. -/
theorem places_bound (L : Layout ν) (env : Nat → Environment) (poolSize : Int)
    (connects : Nat → Nat → ConnectionPool.Connect) (pool : ConnectionPool.State) (s : State ν)
    (h0 : ConnectionPool.construct poolSize connects = some pool)
    (h : (machine L env).Reaches (initial ν pool) s) :
    served s + wasted s + s.pool.connectionQueue.length + s.pool.dropped ≤ poolSize.toNat := by
  have hplaces := (ConnectionPool.reaches_kept poolSize connects pool s.pool h0
    (reaches_parts L env _ s h).2).places
  have hle := served_wasted_le s (reaches_joined L env pool s h)
  omega

/-- In every reachable state of a server with a pool of any size, whatever its
    clients send, whatever the handlers throw and whatever the database does:
    the connections that are served, the tasks that an exception has ended while
    they were, the idle database connections and the dropped ones are together
    no more than the size of the pool. Every connection that is served has a
    database connection of its own, which no other connection has and which is
    not idle. -/
theorem served_bounded (L : Layout ν) (env : Nat → Environment) (poolSize : Int)
    (connects : Nat → Nat → ConnectionPool.Connect) (pool : ConnectionPool.State) (s : State ν)
    (h0 : ConnectionPool.construct poolSize connects = some pool)
    (h : (machine L env).Reaches (initial ν pool) s) :
    served s + wasted s + s.pool.connectionQueue.length + s.pool.dropped ≤ poolSize.toNat ∧
      ∀ c task, s.tasks[c]? = some task → serves task.handler = true →
        ∃ conn, Has s c conn ∧ conn ∉ s.pool.connectionQueue ∧ ∀ d, Has s d conn → d = c := by
  have hjoined := reaches_joined L env pool s h
  have hkept := ConnectionPool.reaches_kept poolSize connects pool s.pool h0
    (reaches_parts L env _ s h).2
  refine ⟨places_bound L env poolSize connects pool s h0 h, fun c task htask hserves => ?_⟩
  rcases hjoined.holds task (List.mem_of_getElem? htask)
    (by rw [keeps, hserves, Bool.true_or]) with ⟨k, conn, hk, hholding⟩
  have hhas : Has s c conn := ⟨task, k, htask, hk, hholding⟩
  exact ⟨conn, hhas, has_unique _ s hjoined hkept c conn hhas⟩

/-- The pool of one connection, made. -/
def onePool : ConnectionPool.State :=
  { connectionQueue := [0], mutex := none, calls := [], nextConnection := 1, dropped := 0,
    validated := [], handedOut := [] }

/-- Connection `c` is accepted, and its task calls `getConnection`. -/
def arrives {L : Layout ν} (c : Nat) : List (Act L) :=
  [.accept true, .task c .enqueue, .task c .start, .getConnection c]

/-- Call `k` gets a connection at once. -/
def obtains {L : Layout ν} (c k : Nat) : List (Act L) :=
  [.pool (.lock k), .pool (.pass k), .pool (.validate k .valid), .pool (.handOut k),
    .gotConnection c]

/-- Call `k` finds the queue empty three times. -/
def refused {L : Layout ν} (c k : Nat) : List (Act L) :=
  [.pool (.lock k), .pool (.pass k), .pool (.lock k), .pool (.pass k), .pool (.lock k),
    .pool (.pass k), .gotConnection c]

/-- A pool of one connection, with one client. -/
theorem served_bounded_one :
    ∃ s : State UInt32, (machine packedLayout (fun _ => allSucceed)).Reaches
        (initial UInt32 onePool) s ∧
      served s = 1 ∧ Has s 0 0 ∧ 0 ∉ s.pool.connectionQueue ∧ ∀ d, Has s d 0 → d = 0 := by
  have hrun := Machine.reaches_of_execute (M := machine packedLayout (fun _ => allSucceed))
    (arrives 0 ++ obtains 0 0) (initial UInt32 onePool) _ rfl
  rcases (served_bounded packedLayout (fun _ => allSucceed) 1 (fun _ _ => .connected) onePool _
    rfl hrun).2 0 _ rfl rfl with ⟨conn, ⟨task, k, htask, hk, hholding⟩, hidle, hunique⟩
  cases htask
  cases hk
  cases hholding
  exact ⟨_, hrun, rfl, ⟨_, 0, rfl, rfl, rfl⟩, hidle, hunique⟩

/-! ### What never comes back -/

/-- A task that has ended with an exception takes no step. -/
theorem not_wastes_before (L : Layout ν) (env : Environment) (k k' : Connection ν)
    (a : TaskAct L) (h : taskStep L env k a = some k') : wastes k = false := by
  cases hphase : k.phase <;> simp only [wastes, hphase]
  -- A failed one is left.
  simp only [taskStep, hphase, reduceCtorEq] at h

theorem wasted_step (L : Layout ν) (env : Nat → Environment) (s t : State ν) (a : Act L)
    (h : step L env s a = some t) : wasted s ≤ wasted t := by
  have hmodify : ∀ (c : Nat) (task task' : Task ν), s.tasks[c]? = some task →
      (wastes task.handler = true → wastes task'.handler = true) →
      t.tasks = s.tasks.modify c (fun _ => task') → wasted s ≤ wasted t := by
    intro c task task' hc hstays htasks
    -- One task changes, so the count changes by what that task contributes.
    have hcount := ListModify.countP_modify (fun task : Task ν => wastes task.handler)
      (fun _ => task') hc
    rw [← htasks] at hcount
    unfold wasted
    by_cases hwastes : wastes task.handler = true
    · simp only [hwastes, hstays hwastes, if_true] at hcount
      omega
    · simp only [hwastes, Bool.false_eq_true, if_false] at hcount
      omega
  -- Nothing takes a connection back from a task that has wasted it.
  cases moved_of_step L env s t a h with
  | stay htasks _ _ | giveBack _ _ _ _ _ _ htasks _ _ | inside _ _ htasks _ _ =>
      unfold wasted
      rw [htasks]
  | accept htasks _ _ =>
      unfold wasted
      rw [htasks, List.countP_append]
      exact Nat.le_add_right _ _
  | work c task b handler hc hrun _ hafter =>
      refine hmodify c task { task with handler := handler } hc (fun hwastes => ?_)
        (by rw [hafter]; rfl)
      rw [not_wastes_before L (env c) _ _ b hrun] at hwastes
      exact absurd hwastes Bool.false_ne_true
  | call c task hc _ _ htasks _ _ =>
      exact hmodify c task { task with call := some s.pool.calls.length } hc id htasks

theorem dropped_step (p q : ConnectionPool.State) (a : ConnectionPool.Act)
    (h : ConnectionPool.step p a = some q) : p.dropped ≤ q.dropped := by
  rcases ConnectionPool.step_cases p q a h with rfl | ⟨k, phase, phase', hmoved⟩
  · exact Nat.le_refl _
  · cases hmoved.effect <;> omega

theorem reaches_dropped (p q : ConnectionPool.State)
    (h : ConnectionPool.machine.Reaches p q) : p.dropped ≤ q.dropped :=
  Machine.invariant (I := fun q => p.dropped ≤ q.dropped) h (Nat.le_refl _)
    (fun t a u ht _ hstep => Nat.le_trans ht (dropped_step t u a hstep))

theorem reaches_wasted (L : Layout ν) (env : Nat → Environment) (s t : State ν)
    (h : (machine L env).Reaches s t) : wasted s ≤ wasted t :=
  Machine.invariant (I := fun t => wasted s ≤ wasted t) h (Nat.le_refl _)
    (fun t a u ht _ hstep => Nat.le_trans ht (wasted_step L env t u a hstep))

/-- The tasks that an exception has ended are counted as active. -/
theorem wasted_le_active (L : Layout ν) (env : Nat → Environment) (pool : ConnectionPool.State)
    (s : State ν) (h : (machine L env).Reaches (initial ν pool) s) :
    ((wasted s : Nat) : Int) ≤ s.activeConnections := by
  have hactive := Handler.reaches_active L env s.handlers (reaches_parts L env _ s h).1
  have hle : wasted s ≤ s.handlers.connections.countP (fun k => decide (k.phase ≠ .ended)) := by
    rw [State.handlers, List.countP_map]
    refine List.countP_mono_left (fun task _ hwastes => ?_)
    simp only [Function.comp_apply, decide_eq_true_eq]
    intro hended
    simp only [wastes, hended, Bool.false_eq_true] at hwastes
  have hsame : s.activeConnections = s.handlers.activeConnections := rfl
  omega

/-- As soon as the tasks that an exception has ended while they were served and
    the dropped database connections are as many as the pool has places, no
    connection is served any more, in any run from there: whoever connects is
    counted as active and gets nothing, the queue of idle database connections
    is empty for good, and the counter never gets below the number of those
    tasks. -/
theorem exhausted_forever (L : Layout ν) (env : Nat → Environment) (poolSize : Int)
    (connects : Nat → Nat → ConnectionPool.Connect) (pool : ConnectionPool.State) (s t : State ν)
    (h0 : ConnectionPool.construct poolSize connects = some pool)
    (h : (machine L env).Reaches (initial ν pool) s)
    (hall : poolSize.toNat ≤ wasted s + s.pool.dropped) (ht : (machine L env).Reaches s t) :
    served t = 0 ∧ t.pool.connectionQueue = [] ∧
      ((wasted s : Nat) : Int) ≤ t.activeConnections := by
  have hreach := Machine.reaches_trans h ht
  have hbound := places_bound L env poolSize connects pool t h0 hreach
  have hwasted := reaches_wasted L env s t ht
  have hdropped := reaches_dropped s.pool t.pool (reaches_parts L env s t ht).2
  have hactive := wasted_le_active L env pool t hreach
  refine ⟨by omega, List.length_eq_zero_iff.mp (by omega), by omega⟩

/-- A pool of one connection. The handler of the first client throws, and the
    second client is not served. -/
theorem exhausted_forever_one :
    ∃ s t : State UInt32,
      (machine packedLayout (fun _ => allSucceed)).Reaches (initial UInt32 onePool) s ∧
      (machine packedLayout (fun _ => allSucceed)).Reaches s t ∧
      wasted s = 1 ∧ t.tasks.length = 2 ∧ served t = 0 ∧ t.pool.connectionQueue = [] ∧
      1 ≤ t.activeConnections := by
  have hrun := Machine.reaches_of_execute (M := machine packedLayout (fun _ => allSucceed))
    (arrives 0 ++ obtains 0 0 ++ [.task 0 (.throws .goodbye)]) (initial UInt32 onePool) _ rfl
  refine ⟨_, _, hrun, Machine.reaches_of_execute (arrives 1 ++ refused 1 1) _ _ rfl, rfl, rfl, ?_⟩
  exact exhausted_forever packedLayout (fun _ => allSucceed) 1 (fun _ _ => .connected) onePool _ _
    rfl hrun (by decide) (Machine.reaches_of_execute (arrives 1 ++ refused 1 1) _ _ rfl)

end Serving

end EpollServer
