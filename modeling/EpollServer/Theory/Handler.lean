import EpollServer.Core.Handler
import EpollServer.Lib.ListModify
import EpollServer.Theory.Assembly.Buffer

/-!
# Releasing a Connection

When the task of a connection gives back, exactly once, everything it has
acquired.

The releases follow the loop one after the other, so a task that comes to its
end has passed all of them once (`Balanced`). Two things go wrong. An
exception ends the task before the releases that were still to come, whatever
it comes from: the docstring of `connectionHandler` speaks of RAII, but no
destructor does what stands behind the loop. And nothing behind the loop frees
the assembly buffer, so it must be gone when the loop is left.

`Spoiled` says that one of the two has happened. It never passes again
(`spoiled_turn`), a step brings it about exactly if it is outside the guard
`SafePass`, and a connection whose task has ended is released if and only if
it is not spoiled.

`activeConnections` counts the tasks that have not come to their end; a task
that ended with an exception is among them for ever.

## Main definitions

* `Released`: Everything acquired was given back, once.
* `Spoiled`: Something will not be.
* `SafePass`, `SafeFor`: The guard.
* `Turn`: What a step of a task can be.
* `Balanced`: The counters of a connection, by its phase.
* `unended`: The number of tasks that have not ended.

## Theorems

* `turn_of_taskStep`: What a step of a task can be.
* `balanced_turn`: The counters follow the phase.
* `spoiled_turn`: A step spoils a connection exactly if it is outside the
  guard.
* `connection_released_iff`: The exact conditions.
* `left_unreleased`: A connection without a database, and one that says
  goodbye in the middle of a transfer.
-/

namespace EpollServer

namespace Handler

open Push (Session Layout Environment Request handleRequest handleRequest_keeps
  handleRequest_rawDataPush packedLayout allSucceed onePointHeader zeroTransfer)

variable {ν : Type}

/-- The task has ended, one way or the other. -/
def Phase.hasEnded : Phase → Bool
  | .ended => true
  | .failed => true
  | _ => false

/-- The loop has been left. -/
def Phase.over : Phase → Bool
  | .leaving => true
  | .removed => true
  | .returned => true
  | .closed => true
  | .ended => true
  | _ => false

/-- Everything acquired was given back: the place in epoll, the descriptor and
    the share of the counter once, the database connection as often as it was
    leased, and that at most once, and the assembly buffer. -/
structure Released (k : Connection ν) : Prop where
  removed : k.removed = 1
  closed : k.closed = 1
  leased : k.leased ≤ 1
  returned : k.returned = k.leased
  freed : k.session.rawDataSetAssemblyBuffer = none
  decremented : k.decremented = 1

/-- An exception has ended the task, or the loop was left with a buffer. -/
def Spoiled (k : Connection ν) : Prop :=
  k.phase = .failed ∨ (k.phase.over = true ∧ k.session.rawDataSetAssemblyBuffer ≠ none)

/-- No exception ends the task, and the step does not leave the loop with a
    buffer. -/
def SafePass {L : Layout ν} (k : Connection ν) : TaskAct L → Prop
  | .getConnection obtained => obtained = true
  | .message request => request = .goodbye → k.session.rawDataSetAssemblyBuffer = none
  | .throws _ => False
  | .silence activity heartbeat =>
      (activity && heartbeat) = false → k.session.rawDataSetAssemblyBuffer = none
  | .returnConnection accepted => accepted = true
  | _ => True

/-- The guard for connection `c`. -/
def SafeFor {L : Layout ν} (c : Nat) (s : State ν) : Act L → Prop
  | .accept _ => True
  | .task d a => d = c → ∀ k, s.connections[c]? = some k → SafePass k a

instance decidableSafePass {L : Layout ν} (k : Connection ν) :
    (a : TaskAct L) → Decidable (SafePass k a)
  | .getConnection obtained => inferInstanceAs (Decidable (obtained = true))
  | .message request => match request with
    | .goodbye =>
        decidable_of_iff (k.session.rawDataSetAssemblyBuffer = none) ⟨fun h _ => h, fun h => h rfl⟩
    | .dataLogPush _ => isTrue fun h => by cases h
    | .deviceRegister _ => isTrue fun h => by cases h
    | .rawDataPush _ => isTrue fun h => by cases h
    | .rawDataRequired => isTrue fun h => by cases h
    | .other _ _ => isTrue fun h => by cases h
  | .throws _ => isFalse id
  | .silence activity heartbeat =>
      inferInstanceAs (Decidable (_ → k.session.rawDataSetAssemblyBuffer = none))
  | .returnConnection accepted => inferInstanceAs (Decidable (accepted = true))
  | .enqueue => isTrue trivial
  | .start => isTrue trivial
  | .foreign => isTrue trivial
  | .remove => isTrue trivial
  | .close => isTrue trivial
  | .decrement => isTrue trivial

instance decidableSafeFor {L : Layout ν} (c : Nat) (s : State ν) :
    (a : Act L) → Decidable (SafeFor c s a)
  | .accept _ => isTrue trivial
  | .task d a => inferInstanceAs (Decidable (d = c → ∀ k ∈ s.connections[c]?, SafePass k a))

/-- The number of tasks that have not ended. -/
def unended (s : State ν) : Nat := s.connections.countP (fun k => !k.phase.hasEnded)

/-! ### A step of a task -/

/-- What a step of a task can be. -/
inductive Turn (L : Layout ν) (env : Environment) (k : Connection ν) :
    TaskAct L → Connection ν → Prop where
  | enqueue (h : k.phase = .accepted) : Turn L env k .enqueue { k with phase := .queued }
  | start (h : k.phase = .queued) : Turn L env k .start { k with phase := .started }
  | getConnection (h : k.phase = .started) (obtained : Bool) :
      Turn L env k (.getConnection obtained) (getConnection obtained k)
  | message (h : k.phase = .serving) (request : Request L) (more : Bool) (session : Session ν)
      (run : handleRequest L env request k.session = .ok more session) :
      Turn L env k (.message request) ({ k with session := session }.loop more)
  | throws (h : k.phase = .serving) (request : Request L) : Turn L env k (.throws request) k.fail
  | silence (h : k.phase = .serving) (activity heartbeat : Bool) :
      Turn L env k (.silence activity heartbeat) (handleSilence activity heartbeat k)
  | foreign (h : k.phase = .serving) : Turn L env k .foreign k
  | remove (h : k.phase = .leaving) : Turn L env k .remove (removeFromEpoll k)
  | returnConnection (h : k.phase = .removed) (accepted : Bool) :
      Turn L env k (.returnConnection accepted) (returnConnection accepted k)
  | close (h : k.phase = .returned) : Turn L env k .close (close k)
  | decrement (h : k.phase = .closed) : Turn L env k .decrement (decrement k)

theorem turn_of_taskStep (L : Layout ν) (env : Environment) (k k' : Connection ν) (a : TaskAct L)
    (h : taskStep L env k a = some k') : Turn L env k a k' := by
  unfold taskStep at h
  split at h
  case h_4 request hphase =>
    unfold handleMessage at h
    split at h
    · rename_i more session hrun
      rw [Option.some.injEq] at h
      rw [← h]
      exact .message hphase request more session hrun
    · simp only [reduceCtorEq] at h
  case h_12 => simp only [reduceCtorEq] at h
  -- The other pieces cannot fail, and say what follows themselves.
  all_goals
    rename_i hphase
    rw [Option.some.injEq] at h
    rw [← h]
    constructor
    exact hphase

/-- A message leaves the loop if and only if it is a goodbye, and then nothing
    else happens. -/
theorem more_iff (L : Layout ν) (env : Environment) (request : Request L) (s t : Session ν)
    (more : Bool) (h : handleRequest L env request s = .ok more t) :
    (more = false ↔ request = .goodbye) ∧ (request = .goodbye → t = s) := by
  -- Only `goodbye` ends the loop.
  by_cases hbye : request = .goodbye
  · rw [hbye] at h
    have hgoodbye : handleRequest L env .goodbye s = .ok false s := rfl
    rw [hgoodbye, EStateM.Result.ok.injEq] at h
    exact ⟨iff_of_true h.1.symm hbye, fun _ => h.2.symm⟩
  · -- No other request ends the loop, a push no more than the rest.
    have hmore : more = true := by
      by_cases hpush : ∃ block, request = .rawDataPush block
      · rcases hpush with ⟨block, hpush⟩
        rw [hpush, handleRequest_rawDataPush] at h
        split at h
        · split at h
          · rw [EStateM.Result.ok.injEq] at h
            exact h.1.symm
          · simp only [reduceCtorEq] at h
        · rw [EStateM.Result.ok.injEq] at h
          exact h.1.symm
        · simp only [reduceCtorEq] at h
      · rw [not_exists] at hpush
        rcases handleRequest_keeps L env s request hpush with ⟨more', t', hrun, _, hopen⟩
        rw [hrun, EStateM.Result.ok.injEq] at h
        rw [← h.1]
        exact hopen hbye
    refine ⟨iff_of_false (fun hfalse => ?_) hbye, fun heq => absurd heq hbye⟩
    exact absurd (hfalse.symm.trans hmore) Bool.false_ne_true

/-! ### The counters -/

/-- Database connections leased, places in epoll given up, database connections
    returned, descriptors closed, and shares of the counter given up. -/
def Connection.counts (k : Connection ν) : List Nat :=
  [k.leased, k.removed, k.returned, k.closed, k.decremented]

/-- The counters of a connection, by its phase. After an exception it is left
    open how far the task has come, but not to its end. -/
def Balanced (k : Connection ν) : Prop :=
  match k.phase with
  | .accepted => k.counts = [0, 0, 0, 0, 0]
  | .queued => k.counts = [0, 0, 0, 0, 0]
  | .started => k.counts = [0, 0, 0, 0, 0]
  | .serving => k.counts = [1, 0, 0, 0, 0]
  | .leaving => k.counts = [1, 0, 0, 0, 0]
  | .removed => k.counts = [1, 1, 0, 0, 0]
  | .returned => k.counts = [1, 1, 1, 0, 0]
  | .closed => k.counts = [1, 1, 1, 1, 0]
  | .ended => k.counts = [1, 1, 1, 1, 1]
  | .failed => k.decremented = 0

/-- A task that fails has not been at its end. -/
theorem balanced_fail (k : Connection ν) (h : k.decremented = 0) : Balanced k.fail := h

theorem balanced_loop (k : Connection ν) (more : Bool) (hphase : k.phase = .serving)
    (h : k.counts = [1, 0, 0, 0, 0]) : Balanced (k.loop more) := by
  cases more with
  | true =>
      simp only [Connection.loop, if_true, Balanced, hphase]
      exact h
  | false => exact h

/-- The counters follow the phase. -/
theorem balanced_turn (L : Layout ν) (env : Environment) (k k' : Connection ν) (a : TaskAct L)
    (h : Turn L env k a k') (hk : Balanced k) : Balanced k' := by
  unfold Balanced at hk
  -- Each phase says which of the five counts a connection still owes.
  cases h with
  | enqueue hphase | start hphase =>
      rw [hphase] at hk
      exact hk
  | getConnection hphase obtained =>
      -- Without a connection from the pool nothing was taken, so nothing is owed either.
      rw [hphase] at hk
      simp only [Connection.counts, List.cons.injEq, and_true] at hk
      cases obtained with
      | true =>
          simp only [Balanced, getConnection, if_true, Connection.counts, List.cons.injEq, and_true]
          omega
      | false => exact balanced_fail k hk.2.2.2.2
  | message hphase request more session _ =>
      rw [hphase] at hk
      exact balanced_loop { k with session := session } more hphase hk
  | throws hphase request =>
      rw [hphase] at hk
      simp only [Connection.counts, List.cons.injEq, and_true] at hk
      exact balanced_fail k hk.2.2.2.2
  | silence hphase activity heartbeat =>
      rw [hphase] at hk
      exact balanced_loop k (activity && heartbeat) hphase hk
  -- An event of another client changes nothing here.
  | foreign hphase =>
      rw [hphase] at hk
      simp only [Balanced, hphase]
      exact hk
  | returnConnection hphase accepted =>
      rw [hphase] at hk
      simp only [Connection.counts, List.cons.injEq, and_true] at hk
      cases accepted with
      | true =>
          simp only [Balanced, returnConnection, if_true, Connection.counts, List.cons.injEq,
            and_true]
          omega
      | false => exact balanced_fail k hk.2.2.2.2
  -- Each of the closing steps pays one count back, in the source's order.
  | remove hphase | close hphase | decrement hphase =>
      rw [hphase] at hk
      simp only [Connection.counts, List.cons.injEq, and_true] at hk
      simp only [Balanced, removeFromEpoll, close, decrement, Connection.counts, List.cons.injEq,
        and_true]
      omega

/-- A connection whose task has ended is released exactly if it is not
    spoiled. -/
theorem released_of_not_spoiled (k : Connection ν) (hk : Balanced k)
    (hended : k.phase.hasEnded = true) : Released k ↔ ¬ Spoiled k := by
  cases hphase : k.phase <;> rw [hphase] at hended
  -- A failed task has not decremented the counter; of one that has come to its
  -- end, everything but the buffer is in its counters.
  case failed =>
    simp only [Balanced, hphase] at hk
    refine iff_of_false (fun hreleased => ?_) (not_not.mpr (Or.inl hphase))
    have hone := hreleased.decremented
    omega
  case ended =>
    simp only [Balanced, hphase, Connection.counts, List.cons.injEq, and_true] at hk
    rcases hk with ⟨hleased, hremoved, hreturned, hclosed, hdecremented⟩
    constructor
    · rintro hreleased (hfailed | ⟨_, hbuffer⟩)
      · rw [hphase] at hfailed
        simp only [reduceCtorEq] at hfailed
      · exact hbuffer hreleased.freed
    · intro hnot
      refine ⟨hremoved, hclosed, by omega, by omega, ?_, hdecremented⟩
      by_contra hbuffer
      exact hnot (Or.inr ⟨by rw [hphase]; rfl, hbuffer⟩)
  all_goals exact absurd hended Bool.false_ne_true

/-! ### What spoils a connection -/

theorem spoiled_loop (k : Connection ν) (more : Bool) (hphase : k.phase = .serving) :
    Spoiled (k.loop more) ↔ (more = false ∧ k.session.rawDataSetAssemblyBuffer ≠ none) := by
  cases more with
  | true =>
      refine iff_of_false ?_ (fun h => absurd h.1.symm Bool.false_ne_true)
      rintro (hfailed | ⟨hover, _⟩)
      · simp only [Connection.loop, if_true, hphase, reduceCtorEq] at hfailed
      · simp only [Connection.loop, if_true, hphase, Phase.over, Bool.false_eq_true] at hover
  | false =>
      constructor
      · rintro (hfailed | ⟨_, hbuffer⟩)
        · simp only [Connection.loop, Bool.false_eq_true, if_false, reduceCtorEq] at hfailed
        · exact ⟨rfl, hbuffer⟩
      · exact fun h => Or.inr ⟨rfl, h.2⟩

theorem not_spoiled_serving (k : Connection ν) (hphase : k.phase = .serving) : ¬ Spoiled k := by
  rintro (hfailed | ⟨hover, _⟩)
  · rw [hphase] at hfailed
    simp only [reduceCtorEq] at hfailed
  · rw [hphase] at hover
    exact absurd hover Bool.false_ne_true

/-- A step within the guard that keeps the session and does not leave the loop
    spoils nothing. -/
theorem spoiled_safe {L : Layout ν} (k k' : Connection ν) (a : TaskAct L) (p p' : Phase)
    (hp : k.phase = p) (hp' : k'.phase = p') (hsession : k'.session = k.session)
    (ha : SafePass k a) (hne : p ≠ .failed) (hne' : p' ≠ .failed) (hover : p'.over = p.over) :
    Spoiled k' ↔ Spoiled k ∨ ¬ SafePass k a := by
  have hsame : Spoiled k' ↔ Spoiled k := by
    unfold Spoiled
    rw [hp, hp', hsession, hover]
    simp only [hne, hne', false_or]
  rw [hsame]
  exact ⟨Or.inl, fun h => h.resolve_right (not_not.mpr ha)⟩

/-- A step spoils a connection exactly if it is outside the guard, and nothing
    makes it good again. -/
theorem spoiled_turn (L : Layout ν) (env : Environment) (k k' : Connection ν) (a : TaskAct L)
    (h : Turn L env k a k') : Spoiled k' ↔ Spoiled k ∨ ¬ SafePass k a := by
  cases h with
  | enqueue hphase | start hphase | remove hphase | close hphase | decrement hphase =>
      exact spoiled_safe k _ _ _ _ hphase rfl rfl trivial Phase.noConfusion Phase.noConfusion rfl
  | foreign hphase =>
      exact spoiled_safe k k _ _ _ hphase hphase rfl trivial Phase.noConfusion Phase.noConfusion
        rfl
  | getConnection hphase obtained =>
      cases obtained with
      | true =>
          exact spoiled_safe k _ _ _ _ hphase rfl rfl rfl Phase.noConfusion Phase.noConfusion rfl
      | false => exact iff_of_true (Or.inl rfl) (Or.inr Bool.false_ne_true)
  | returnConnection hphase accepted =>
      cases accepted with
      | true =>
          exact spoiled_safe k _ _ _ _ hphase rfl rfl rfl Phase.noConfusion Phase.noConfusion rfl
      | false => exact iff_of_true (Or.inl rfl) (Or.inr Bool.false_ne_true)
  | throws hphase request => exact iff_of_true (Or.inl rfl) (Or.inr not_false)
  | message hphase request more session hrun =>
      -- Only the goodbye leaves the loop, with the buffer as it was before.
      rcases more_iff L env request k.session session more hrun with ⟨hmore, hsame⟩
      rw [spoiled_loop { k with session := session } more hphase, hmore]
      simp only [not_spoiled_serving k hphase, false_or, SafePass, Classical.not_imp]
      exact and_congr_right fun hbye => by rw [hsame hbye]
  | silence hphase activity heartbeat =>
      rw [handleSilence, spoiled_loop k _ hphase]
      simp only [not_spoiled_serving k hphase, false_or, SafePass, Classical.not_imp, ne_eq]

theorem loop_ne_ended (k : Connection ν) (more : Bool) (hphase : k.phase = .serving) :
    (k.loop more).phase ≠ .ended := by
  cases more with
  | true => simp only [Connection.loop, if_true, hphase, ne_eq, reduceCtorEq, not_false_eq_true]
  | false => exact fun h => Phase.noConfusion h

/-- Only the decrement brings a task to its end. -/
theorem ended_iff (L : Layout ν) (env : Environment) (k k' : Connection ν) (a : TaskAct L)
    (h : Turn L env k a k') : k'.phase = .ended ↔ a = .decrement := by
  cases h with
  | enqueue | start | throws | remove | close =>
      simp only [Connection.fail, removeFromEpoll, close, reduceCtorEq]
  | getConnection _ obtained =>
      cases obtained <;>
        simp only [getConnection, Connection.fail, Bool.false_eq_true, if_true, if_false,
          reduceCtorEq]
  | returnConnection _ accepted =>
      cases accepted <;>
        simp only [returnConnection, Connection.fail, Bool.false_eq_true, if_true, if_false,
          reduceCtorEq]
  | message hphase request more session _ =>
      simp only [loop_ne_ended { k with session := session } more hphase, reduceCtorEq]
  | silence hphase activity heartbeat =>
      simp only [handleSilence, loop_ne_ended k _ hphase, reduceCtorEq]
  | foreign hphase => simp only [hphase, reduceCtorEq]
  | decrement => simp only [decrement]

/-- A task that has ended takes no step. -/
theorem not_ended_before (L : Layout ν) (env : Environment) (k k' : Connection ν)
    (a : TaskAct L) (h : Turn L env k a k') : k.phase ≠ .ended := by
  intro hended
  cases h with
  | enqueue hphase | start hphase | getConnection hphase | message hphase | throws hphase
  | silence hphase | foreign hphase | remove hphase | returnConnection hphase | close hphase
  | decrement hphase => exact Phase.noConfusion (hphase.symm.trans hended)

/-! ### Runs -/

/-- What a step does: nothing, one connection more, or a step of one task. -/
theorem step_cases (L : Layout ν) (env : Nat → Environment) (s t : State ν) (a : Act L)
    (h : step L env s a = some t) :
    (a = .accept false ∧ t = s) ∨
      (a = .accept true ∧ t.connections = s.connections ++ [Connection.opened ν] ∧
        t.activeConnections = s.activeConnections + 1) ∨
      ∃ c b k k', a = .task c b ∧ s.connections[c]? = some k ∧ Turn L (env c) k b k' ∧
        t.connections = s.connections.modify c (fun _ => k') ∧
        t.activeConnections = s.activeConnections - if k'.phase = .ended then 1 else 0 := by
  -- The main thread adds a connection; a step of a task changes one connection.
  cases a with
  | accept registered =>
      simp only [step, Option.some.injEq] at h
      rw [← h]
      cases registered with
      | true => exact Or.inr (Or.inl ⟨rfl, rfl, rfl⟩)
      | false => exact Or.inl ⟨rfl, rfl⟩
  | task c b =>
      simp only [step] at h
      cases hk : s.connections[c]? with
      | none => simp only [hk, reduceCtorEq] at h
      | some k =>
          simp only [hk, Option.map_eq_some_iff] at h
          rcases h with ⟨k', hstep, rfl⟩
          have hturn := turn_of_taskStep L (env c) k k' b hstep
          refine Or.inr (Or.inr ⟨c, b, k, k', rfl, hk, hturn, rfl, ?_⟩)
          have hended := ended_iff L (env c) k k' b hturn
          cases b with
          | decrement => simp only [hended.mpr rfl, if_true]
          | _ => simp only [hended, reduceCtorEq, if_false, Int.sub_zero]

/-- Every connection is balanced. -/
theorem reaches_balanced (L : Layout ν) (env : Nat → Environment) (s : State ν)
    (h : (machine L env).Reaches (initial ν) s) : ∀ k ∈ s.connections, Balanced k := by
  refine Machine.invariant (I := fun s => ∀ k ∈ s.connections, Balanced k) h
    (fun k hk => absurd hk List.not_mem_nil) (fun t a u ht _ hstep => ?_)
  rcases step_cases L env t u a hstep with ⟨_, rfl⟩ | ⟨_, hconns, _⟩ |
    ⟨c, b, k, k', _, hk, hturn, hconns, _⟩
  · exact ht
  · intro k hk
    rw [hconns] at hk
    rcases List.mem_append.mp hk with hold | hnew
    · exact ht k hold
    · rw [List.mem_singleton.mp hnew]
      rfl
  · intro k'' hk''
    rw [hconns] at hk''
    rcases ListModify.mem_of_mem_modify hk hk'' with rfl | hold
    · exact balanced_turn L (env c) k _ b hturn (ht k (List.mem_of_getElem? hk))
    · exact ht k'' hold

/-- The counter is the number of tasks that have not come to their end. -/
theorem reaches_active (L : Layout ν) (env : Nat → Environment) (s : State ν)
    (h : (machine L env).Reaches (initial ν) s) :
    s.activeConnections =
      ((s.connections.countP (fun k => decide (k.phase ≠ .ended)) : Nat) : Int) := by
  refine Machine.invariant (I := fun s => s.activeConnections =
    ((s.connections.countP (fun k => decide (k.phase ≠ .ended)) : Nat) : Int)) h rfl
    (fun t a u ht _ hstep => ?_)
  rcases step_cases L env t u a hstep with ⟨_, rfl⟩ | ⟨_, hconns, hactive⟩ |
    ⟨c, b, k, k', _, hk, hturn, hconns, hactive⟩
  · exact ht
  · rw [hactive, hconns, List.countP_append, ht]
    rfl
  · have hcount := ListModify.countP_modify (fun k => decide (k.phase ≠ .ended)) (fun _ => k') hk
    rw [← hconns] at hcount
    have hbefore := not_ended_before L (env c) k k' b hturn
    rw [hactive, ht]
    -- The task was counted before the step, and is after it unless this was the decrement.
    by_cases hended : k'.phase = .ended
    · simp only [hbefore, hended, ne_eq, not_true_eq_false, decide_false, Bool.false_eq_true,
        not_false_eq_true, decide_true, if_true, if_false] at hcount ⊢
      omega
    · simp only [hbefore, hended, ne_eq, not_false_eq_true, decide_true, if_true, if_false]
        at hcount ⊢
      omega

/-- A connection after a step, if it was there before. -/
theorem connection_step (L : Layout ν) (env : Nat → Environment) (s t : State ν) (a : Act L)
    (c : Nat) (k : Connection ν) (hk : s.connections[c]? = some k) (h : step L env s a = some t) :
    ∃ k', t.connections[c]? = some k' ∧
      ((k' = k ∧ ∀ b, a ≠ .task c b) ∨ ∃ b, a = .task c b ∧ Turn L (env c) k b k') := by
  rcases step_cases L env s t a h with ⟨rfl, rfl⟩ | ⟨rfl, hconns, _⟩ |
    ⟨d, b, j, j', rfl, hj, hturn, hconns, _⟩
  · exact ⟨k, hk, Or.inl ⟨rfl, fun b hb => by simp only [reduceCtorEq] at hb⟩⟩
  · refine ⟨k, ?_, Or.inl ⟨rfl, fun b hb => by simp only [reduceCtorEq] at hb⟩⟩
    rw [hconns, List.getElem?_append_left (List.getElem?_eq_some_iff.mp hk).1]
    exact hk
  · by_cases hd : d = c
    · subst hd
      rw [hj, Option.some.injEq] at hk
      rw [← hk]
      refine ⟨j', ?_, Or.inr ⟨b, rfl, hturn⟩⟩
      rw [hconns, List.getElem?_modify_eq, hj, Option.map_eq_map, Option.map_some]
    · refine ⟨k, ?_, Or.inl ⟨rfl, fun b' hb => hd (Act.task.inj hb).1⟩⟩
      rw [hconns, List.getElem?_modify_ne _ _ hd]
      exact hk

/-- A connection after a step was there before, or is new. -/
theorem connection_before (L : Layout ν) (env : Nat → Environment) (s t : State ν) (a : Act L)
    (c : Nat) (k' : Connection ν) (hk' : t.connections[c]? = some k')
    (h : step L env s a = some t) :
    (∃ k, s.connections[c]? = some k) ∨ k' = Connection.opened ν := by
  cases hk : s.connections[c]? with
  | some k => exact Or.inl ⟨k, rfl⟩
  | none =>
      -- A connection that was not there before has just been accepted.
      right
      rcases step_cases L env s t a h with ⟨_, rfl⟩ | ⟨_, hconns, _⟩ |
        ⟨d, b, j, j', _, hj, _, hconns, _⟩
      · rw [hk] at hk'
        simp only [reduceCtorEq] at hk'
      · have hlen := List.getElem?_eq_none_iff.mp hk
        rw [hconns, List.getElem?_append_right hlen] at hk'
        exact List.mem_singleton.mp (List.mem_of_getElem? hk')
      · by_cases hd : d = c
        · rw [hd, hk] at hj
          simp only [reduceCtorEq] at hj
        · rw [hconns, List.getElem?_modify_ne _ _ hd, hk] at hk'
          simp only [reduceCtorEq] at hk'

theorem not_spoiled_opened : ¬ Spoiled (Connection.opened ν) := by
  rintro (hfailed | ⟨hover, _⟩)
  · exact Phase.noConfusion hfailed
  · exact absurd hover Bool.false_ne_true

/-- A guarded run does not spoil the connection. -/
theorem safe_not_spoiled (L : Layout ν) (env : Nat → Environment) (c : Nat) (s : State ν)
    (h : (machine L env).ReachesBy (SafeFor c) (initial ν) s) :
    ∀ k, s.connections[c]? = some k → ¬ Spoiled k := by
  refine Machine.invariant (I := fun s => ∀ k, s.connections[c]? = some k → ¬ Spoiled k) h
    (fun k hk => ?_) (fun t a u ht ha hstep k' hk' => ?_)
  · simp only [initial, List.getElem?_nil, reduceCtorEq] at hk
  · rcases connection_before L env t u a c k' hk' hstep with ⟨k, hk⟩ | rfl
    · rcases connection_step L env t u a c k hk hstep with
        ⟨k'', hk'', ⟨rfl, _⟩ | ⟨b, rfl, hturn⟩⟩
      · rw [hk'', Option.some.injEq] at hk'
        rw [← hk']
        exact ht _ hk
      · rw [hk'', Option.some.injEq] at hk'
        rw [← hk', spoiled_turn L (env c) k k'' b hturn]
        exact not_or.mpr ⟨ht k hk, not_not.mpr (ha rfl k hk)⟩
    · exact not_spoiled_opened

/-- A spoiled connection stays spoiled. -/
theorem spoiled_stays (L : Layout ν) (env : Nat → Environment) (c : Nat) (s t : State ν)
    (hs : ∃ k, s.connections[c]? = some k ∧ Spoiled k) (h : (machine L env).Reaches s t) :
    ∃ k, t.connections[c]? = some k ∧ Spoiled k := by
  refine Machine.invariant (I := fun s => ∃ k, s.connections[c]? = some k ∧ Spoiled k) h hs
    (fun u a v hu _ hstep => ?_)
  rcases hu with ⟨k, hk, hspoiled⟩
  rcases connection_step L env u v a c k hk hstep with ⟨k', hk', ⟨rfl, _⟩ | ⟨b, _, hturn⟩⟩
  · exact ⟨k', hk', hspoiled⟩
  · exact ⟨k', hk', (spoiled_turn L (env c) k k' b hturn).mpr (Or.inl hspoiled)⟩

/-- A step outside the guard spoils the connection. -/
theorem unsafe_spoils (L : Layout ν) (env : Nat → Environment) (c : Nat) (s t : State ν)
    (a : Act L) (ha : ¬ SafeFor c s a) (h : step L env s a = some t) :
    ∃ k, t.connections[c]? = some k ∧ Spoiled k := by
  cases a with
  | accept registered => exact absurd trivial ha
  | task d b =>
      simp only [SafeFor, Classical.not_imp, not_forall] at ha
      rcases ha with ⟨rfl, k, hk, hunsafe⟩
      rcases connection_step L env s t (.task d b) d k hk h with
        ⟨k', hk', ⟨_, hnot⟩ | ⟨b', hb, hturn⟩⟩
      · exact absurd rfl (hnot b)
      · rw [← (Act.task.inj hb).2] at hturn
        exact ⟨k', hk', (spoiled_turn L (env d) k k' b hturn).mpr (Or.inr hunsafe)⟩

/-- The tasks that have not come to their end are those that have not ended and
    those that have failed. -/
theorem countP_ended (l : List (Connection ν)) :
    l.countP (fun k => decide (k.phase ≠ .ended)) =
      l.countP (fun k => !k.phase.hasEnded) + l.countP (fun k => decide (k.phase = .failed)) := by
  induction l with
  | nil => rfl
  | cons k ks ih =>
      have hone : (if decide (k.phase ≠ .ended) = true then 1 else 0) =
          (if (!k.phase.hasEnded) = true then 1 else 0) +
            if decide (k.phase = .failed) = true then 1 else 0 := by
        cases k.phase <;> rfl
      rw [List.countP_cons, List.countP_cons, List.countP_cons, ih]
      omega

/-- A connection whose task has ended is released if and only if every step of
    the task was within the guard: no exception, and no buffer when the loop is
    left. The counter is the number of tasks that have not ended if and only if
    none has ended with an exception. -/
theorem connection_released_iff (L : Layout ν) (env : Nat → Environment) (c : Nat) :
    (∀ s, (machine L env).ReachesBy (SafeFor c) (initial ν) s →
        ∀ k, s.connections[c]? = some k → k.phase.hasEnded = true → Released k) ∧
      (∀ s a t, (machine L env).Reaches (initial ν) s → step L env s a = some t →
        ¬ SafeFor c s a → ∀ u, (machine L env).Reaches t u →
        ∀ k, u.connections[c]? = some k → k.phase.hasEnded = true → ¬ Released k) ∧
      (∀ s, (machine L env).Reaches (initial ν) s →
        (s.activeConnections = (unended s : Int) ↔ ∀ k ∈ s.connections, k.phase ≠ .failed)) := by
  refine ⟨fun s hs k hk hended => ?_, fun s a t hs hstep ha u hu k hk hended => ?_,
    fun s hs => ?_⟩
  · -- Guarded runs.
    have hbalanced := reaches_balanced L env s (Machine.reaches_of_reachesBy hs) k
      (List.mem_of_getElem? hk)
    exact (released_of_not_spoiled k hbalanced hended).mpr (safe_not_spoiled L env c s hs k hk)
  · -- After a step outside the guard.
    have hreach := Machine.reaches_trans (Machine.reaches_step hs hstep) hu
    have hbalanced := reaches_balanced L env u hreach k (List.mem_of_getElem? hk)
    rw [released_of_not_spoiled k hbalanced hended, not_not]
    rcases spoiled_stays L env c t u (unsafe_spoils L env c s t a ha hstep) hu with
      ⟨k', hk', hspoiled⟩
    rw [hk, Option.some.injEq] at hk'
    rw [hk']
    exact hspoiled
  · -- The counter.
    have hactive := reaches_active L env s hs
    have hsum := countP_ended s.connections
    have hzero := List.countP_eq_zero (p := fun k : Connection ν => decide (k.phase = .failed))
      (l := s.connections)
    simp only [decide_eq_true_eq] at hzero
    rw [← hzero]
    unfold unended
    omega

/-- Three clients are accepted and two of them get a database connection. Client
    2 begins a transfer. Client 0 sends a whole one and says goodbye. -/
def threeClients : List (Act packedLayout) :=
  [.accept true, .accept true, .accept true, .task 0 .enqueue, .task 1 .enqueue, .task 2 .enqueue,
    .task 2 .start, .task 0 .start, .task 1 .start, .task 2 (.getConnection true),
    .task 0 (.getConnection true), .task 2 (.message (.rawDataPush onePointHeader)),
    .task 0 (.message (.rawDataPush zeroTransfer)), .task 0 (.message .goodbye),
    .task 0 .remove, .task 0 (.returnConnection true), .task 0 .close, .task 0 .decrement]

/-- Of three clients the first is released. The database pool throws for the
    second, who is never released, and from then on the counter is too high. -/
theorem connection_released_iff_three :
    ∃ s t, (machine packedLayout (fun _ => allSucceed)).ReachesBy (SafeFor 0)
        (initial UInt32) s ∧
      (∃ k, s.connections[0]? = some k ∧ k.phase = .ended ∧ Released k) ∧
      s.activeConnections = (unended s : Int) ∧
      step packedLayout (fun _ => allSucceed) s (.task 1 (.getConnection false)) = some t ∧
      (∀ u, (machine packedLayout (fun _ => allSucceed)).Reaches t u →
        ∀ k, u.connections[1]? = some k → k.phase.hasEnded = true → ¬ Released k) ∧
      t.activeConnections ≠ (unended t : Int) := by
  -- The run is evaluated once, up to the failed `getConnection` of the second client.
  have hrun : ((machine packedLayout (fun _ => allSucceed)).executeBy
      (fun s a => decide (SafeFor 0 s a)) (initial UInt32) threeClients).map (fun s =>
        decide ((s.connections.map Connection.phase) = [.ended, .started, .serving] ∧
          (step packedLayout (fun _ => allSucceed) s (.task 1 (.getConnection false))).map
            (fun t => t.connections.map Connection.phase) = some [.ended, .failed, .serving])) =
      some true := by decide +kernel
  rcases Machine.reachesBy_of_check _ (fun s a => of_decide_eq_true) threeClients _ hrun with
    ⟨s, hs, hcheck⟩
  rcases of_decide_eq_true hcheck with ⟨hphases, hfails⟩
  rcases Option.map_eq_some_iff.mp hfails with ⟨t, ht, hphases'⟩
  have hstep : (machine packedLayout (fun _ => allSucceed)).step s
      (.task 1 (.getConnection false)) = some t := ht
  have hreach := Machine.reaches_of_reachesBy hs
  have hphase : ∀ c, (s.connections[c]?).map Connection.phase =
      ([.ended, .started, .serving] : List Phase)[c]? := fun c => by
    rw [← hphases, List.getElem?_map]
  rcases Option.map_eq_some_iff.mp (hphase 0) with ⟨k, hk, hended⟩
  rcases Option.map_eq_some_iff.mp (hphase 1) with ⟨l, hl, hstarted⟩
  have hzero := connection_released_iff packedLayout (fun _ => allSucceed) 0
  have hone := connection_released_iff packedLayout (fun _ => allSucceed) 1
  refine ⟨s, t, hs, ⟨k, hk, hended, hzero.1 s hs k hk (by rw [hended]; rfl)⟩,
    (hzero.2.2 s hreach).mpr fun k hk hfailed => ?_, ht,
    hone.2.1 s _ t hreach ht (fun hsafe => Bool.false_ne_true (hsafe rfl l hl)), fun hactive => ?_⟩
  · -- No task has failed yet.
    have hmem := List.mem_map_of_mem (f := Connection.phase) hk
    rw [hphases, hfailed] at hmem
    exact absurd hmem (by decide)
  · -- The second has.
    have hnone := (hzero.2.2 t (Machine.reaches_step hreach hstep)).mp hactive
    have hmem : Phase.failed ∈ t.connections.map Connection.phase := by
      rw [hphases']
      decide
    rcases List.mem_map.mp hmem with ⟨k, hk, hfailed⟩
    exact hnone k hk hfailed

/-- The database pool throws: the task ends, the descriptor stays open and in
    epoll, and the counter stays at 1. And a client that says goodbye after the
    first block of a transfer: the task comes to its end, and the buffer is
    still there. -/
theorem left_unreleased :
    (∃ s k, (machine packedLayout (fun _ => allSucceed)).Reaches (initial UInt32) s ∧
      s.connections[0]? = some k ∧ k.phase.hasEnded = true ∧ k.removed = 0 ∧ k.closed = 0 ∧
      s.activeConnections = 1 ∧ unended s = 0) ∧
    ∃ s k, (machine packedLayout (fun _ => allSucceed)).Reaches (initial UInt32) s ∧
      s.connections[0]? = some k ∧ k.phase = .ended ∧
      k.session.rawDataSetAssemblyBuffer ≠ none := by
  constructor
  · refine ⟨_, _, Machine.reaches_of_execute
      [.accept true, .task 0 .enqueue, .task 0 .start, .task 0 (.getConnection false)] _ _ rfl,
      rfl, rfl, rfl, rfl, rfl, rfl⟩
  · refine ⟨_, _, Machine.reaches_of_execute
      [.accept true, .task 0 .enqueue, .task 0 .start, .task 0 (.getConnection true),
        .task 0 (.message (.rawDataPush onePointHeader)), .task 0 (.message .goodbye),
        .task 0 .remove, .task 0 (.returnConnection true), .task 0 .close, .task 0 .decrement]
      _ _ rfl, rfl, rfl, ?_⟩
    exact fun hnone => Option.some_ne_none _ hnone

end Handler

end EpollServer
