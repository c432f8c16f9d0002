import EpollServer.Core.Whole
import EpollServer.Theory.Growth
import EpollServer.Theory.Serving

/-!
# Every Client at its Place

The threads and the connections of one server agree.

A step of the server is a step of each view or none, so a run is a run of each
(`reaches_threads`, `reaches_serving`), and what was shown of either holds of
the server. Neither holds up the other: whatever the main thread or a worker
could do next by itself it can do here (`unhindered`).

Where a connection is, the threads know, and how far it is, the connections.
`Placed` says how the two go together, one line for each place, and every step
keeps it because it moves one connection from one place to the next. That no
two workers run one task is the conservation of tasks, which holds of the
server's pool like of any other.

## Main definitions

* `Goes`: The task of one connection goes on, and no other.
* `Makes`: What a step of the server is for its connections.
* `Went`: What a step of the server is.
* `Suits`: The phases of a connection whose task a worker runs.
* `Placed`: The phase of a connection is that of its place.
* `State.inHand`, `Place`: The places.

## Theorems

* `turn_of_piece`, `goes_piece`: A piece of `connectionHandler` is about its own
  connection.
* `reaches_threads`, `reaches_serving`: A run of the server in either view.
* `went_of_step`: What a step is.
* `runs_unique`: No two workers run one task.
* `placed_step`: Every step keeps the places.
* `unhindered`: The views do not hold up each other.
* `clients_placed`: Every client is at one place, and in the phase of it.
-/

namespace EpollServer

namespace Whole

open Handler (TaskAct taskStep Phase)
open Push (Layout Environment packedLayout allSucceed)
open Accepting (Did Open)
open ThreadPool (Task)

variable {ν : Type}

/-! ### The connections in a step -/

theorem lt_of_phase (s : Serving.State ν) (c : Nat) (p : Phase) (h : phase s c = some p) :
    c < s.tasks.length := by
  simp only [phase, Option.map_eq_some_iff] at h
  rcases h with ⟨task, htask, _⟩
  exact (List.getElem?_eq_some_iff.mp htask).1

/-- A new connection is nothing to the others. -/
theorem phase_append (s t : Serving.State ν) (task : Serving.Task ν)
    (htasks : t.tasks = s.tasks ++ [task]) (c : Nat) (p : Phase) (h : phase s c = some p) :
    phase t c = some p := by
  rw [← h]
  simp only [phase, htasks, List.getElem?_append_left (lt_of_phase s c p h)]

/-- The task of connection `c` goes from phase `p` to `q`, and no other. -/
structure Goes (s t : Serving.State ν) (c : Nat) (p q : Phase) : Prop where
  before : phase s c = some p
  after : phase t c = some q
  others : ∀ d, d ≠ c → phase t d = phase s d
  length : t.tasks.length = s.tasks.length
  active : t.activeConnections = s.activeConnections - if q = .ended then 1 else 0

theorem goes_handle (L : Layout ν) (env : Environment) (s t : Serving.State ν) (c : Nat)
    (task : Serving.Task ν) (a : TaskAct L) (hc : s.tasks[c]? = some task)
    (h : Serving.handle L env s c task a = some t) :
    ∃ handler, Handler.Turn L env task.handler a handler ∧
      Goes s t c task.handler.phase handler.phase := by
  simp only [Serving.handle, Option.map_eq_some_iff] at h
  rcases h with ⟨handler, hrun, rfl⟩
  have hturn := Handler.turn_of_taskStep L env _ _ a hrun
  refine ⟨handler, hturn, ?_, ?_, fun d hd => ?_, ?_, ?_⟩
  · rw [phase, hc, Option.map_some]
  · simp only [phase, Serving.State.handled, Serving.State.setTask, List.getElem?_modify_eq, hc,
      Option.map_eq_map, Option.map_some]
  · simp only [phase, Serving.State.handled, Serving.State.setTask,
      List.getElem?_modify_ne _ _ (Ne.symm hd)]
  · exact List.length_modify _ _ _
  · -- Only the last piece of a task takes it off the counter.
    have hended := Handler.ended_iff L env task.handler handler a hturn
    cases a with
    | decrement => simp only [Serving.State.handled, hended.mpr rfl, if_true]
    | _ => simp only [Serving.State.handled, hended, reduceCtorEq, if_false, Int.sub_zero,
        Serving.State.setTask]

/-- A call of the database pool leaves every task where it is. -/
theorem goes_call (s t : Serving.State ν) (c : Nat) (task : Serving.Task ν)
    (call : Option Nat) (hc : s.tasks[c]? = some task) (hended : task.handler.phase ≠ .ended)
    (htasks : t.tasks = s.tasks.modify c (fun _ => { task with call := call }))
    (hactive : t.activeConnections = s.activeConnections) :
    Goes s t c task.handler.phase task.handler.phase := by
  refine ⟨?_, ?_, fun d hd => ?_, ?_, ?_⟩
  · rw [phase, hc, Option.map_some]
  · simp only [phase, htasks, List.getElem?_modify_eq, hc, Option.map_eq_map, Option.map_some]
  · simp only [phase, htasks, List.getElem?_modify_ne _ _ (Ne.symm hd)]
  · rw [htasks, List.length_modify]
  · rw [if_neg hended, Int.sub_zero]
    exact hactive

/-- The task is in `connectionHandler`. -/
def inside : Phase → Bool
  | .started => true
  | .serving => true
  | .leaving => true
  | .removed => true
  | .returned => true
  | .closed => true
  | _ => false

theorem goes_task (L : Layout ν) (env : Nat → Environment) (s t : Serving.State ν) (c : Nat)
    (a : TaskAct L) (h : Serving.step L env s (.task c a) = some t) :
    ∃ (k k' : Handler.Connection ν), Handler.Turn L (env c) k a k' ∧
      Goes s t c k.phase k'.phase := by
  simp only [Serving.step] at h
  split at h
  · simp only [reduceCtorEq] at h
  · rename_i task hc
    split at h
    · rcases goes_handle L (env c) s t c task a hc h with ⟨handler, hturn, hgoes⟩
      exact ⟨_, handler, hturn, hgoes⟩
    · simp only [reduceCtorEq] at h

theorem goes_enqueue (L : Layout ν) (env : Nat → Environment) (s t : Serving.State ν) (c : Nat)
    (h : Serving.step L env s (.task c .enqueue) = some t) : Goes s t c .accepted .queued := by
  rcases goes_task L env s t c _ h with ⟨k, _, hturn, hgoes⟩
  cases hturn with
  | enqueue hphase =>
      rw [hphase] at hgoes
      exact hgoes

theorem goes_start (L : Layout ν) (env : Nat → Environment) (s t : Serving.State ν) (c : Nat)
    (h : Serving.step L env s (.task c .start) = some t) : Goes s t c .queued .started := by
  rcases goes_task L env s t c _ h with ⟨k, _, hturn, hgoes⟩
  cases hturn with
  | start hphase =>
      rw [hphase] at hgoes
      exact hgoes

theorem goes_decrement (L : Layout ν) (env : Nat → Environment) (s t : Serving.State ν) (c : Nat)
    (h : Serving.step L env s (.task c .decrement) = some t) : Goes s t c .closed .ended := by
  rcases goes_task L env s t c _ h with ⟨k, _, hturn, hgoes⟩
  cases hturn with
  | decrement hphase =>
      rw [hphase] at hgoes
      exact hgoes

theorem inside_loop (k : Handler.Connection ν) (more : Bool) (h : k.phase = .serving) :
    inside (k.loop more).phase = true := by
  cases more with
  | true => simp only [Handler.Connection.loop, if_true, h, inside]
  | false => rfl

/-- In `connectionHandler` a task stays in it, or fails. -/
theorem inside_turn (L : Layout ν) (env : Environment) (k k' : Handler.Connection ν)
    (a : TaskAct L) (ha : (Piece.task a).isHandler = true) (h : Handler.Turn L env k a k') :
    inside k.phase = true ∧ (inside k'.phase = true ∨ k'.phase = .failed) := by
  cases h with
  -- These three are not pieces of `connectionHandler`.
  | enqueue | start | decrement => exact absurd ha Bool.false_ne_true
  | getConnection hphase obtained =>
      rw [hphase]
      -- A pool without a connection ends the task with an exception.
      cases obtained with
      | true => exact ⟨rfl, Or.inl rfl⟩
      | false => exact ⟨rfl, Or.inr rfl⟩
  | message hphase request more session _ =>
      -- A goodbye leads behind the loop, any other message back into it.
      exact ⟨by rw [hphase]; rfl, Or.inl (inside_loop { k with session := session } more hphase)⟩
  | silence hphase activity heartbeat =>
      exact ⟨by rw [hphase]; rfl, Or.inl (inside_loop k (activity && heartbeat) hphase)⟩
  | throws hphase =>
      rw [hphase]
      exact ⟨rfl, Or.inr rfl⟩
  | foreign hphase =>
      rw [hphase]
      exact ⟨rfl, Or.inl rfl⟩
  | remove hphase | close hphase =>
      rw [hphase]
      exact ⟨rfl, Or.inl rfl⟩
  | returnConnection hphase accepted =>
      rw [hphase]
      -- The driver may throw when the connection is given back.
      cases accepted with
      | true => exact ⟨rfl, Or.inl rfl⟩
      | false => exact ⟨rfl, Or.inr rfl⟩

/-- `epoll_wait` has returned an event of the connection itself. -/
def isEvent {L : Layout ν} : TaskAct L → Bool
  | .message _ => true
  | .throws _ => true
  | .silence _ _ => true
  | _ => false

/-- A piece of `connectionHandler` is a turn of its own task, or a call of the
    database pool, which leaves the task where it is. -/
theorem turn_of_piece (L : Layout ν) (env : Nat → Environment) (s t : Serving.State ν) (c : Nat)
    (piece : Piece L) (hpiece : piece.isHandler = true)
    (h : Serving.step L env s (piece.of c) = some t) :
    (∃ (a : TaskAct L) (k k' : Handler.Connection ν), (Piece.task a).isHandler = true ∧
      (isEvent a = true → piece = .task a) ∧ Handler.Turn L (env c) k a k' ∧
      Goes s t c k.phase k'.phase) ∨ ∃ p, inside p = true ∧ Goes s t c p p := by
  cases piece with
  | task a =>
      rcases goes_task L env s t c a h with ⟨k, k', hturn, hgoes⟩
      exact Or.inl ⟨a, k, k', hpiece, fun _ => rfl, hturn, hgoes⟩
  | getConnection =>
      -- A call begins, and the task stays where it is.
      simp only [Piece.of, Serving.step] at h
      split at h
      · simp only [reduceCtorEq] at h
      · rename_i task hc
        split at h
        · rename_i hphase
          simp only [ConnectionPool.step, Option.map_some, Option.some.injEq] at h
          refine Or.inr ⟨_, ?_, goes_call s t c task (some s.pool.calls.length) hc ?_
            (by rw [← h]; rfl) (by rw [← h]; rfl)⟩ <;> rw [hphase.1]
          · rfl
          · exact Phase.noConfusion
        · simp only [reduceCtorEq] at h
  | gotConnection =>
      -- It goes on as its call has ended.
      simp only [Piece.of, Serving.step] at h
      split at h
      · simp only [reduceCtorEq] at h
      · rename_i task hc
        split at h
        · rcases goes_handle L (env c) s t c task _ hc h with ⟨k', hturn, hgoes⟩
          exact Or.inl ⟨.getConnection true, _, k', rfl, fun he => absurd he Bool.false_ne_true,
            hturn, hgoes⟩
        · rcases goes_handle L (env c) s t c task _ hc h with ⟨k', hturn, hgoes⟩
          exact Or.inl ⟨.getConnection false, _, k', rfl, fun he => absurd he Bool.false_ne_true,
            hturn, hgoes⟩
        · simp only [reduceCtorEq] at h
  | returnConnection =>
      -- The call goes to the pool, and the task waits for it.
      simp only [Piece.of, Serving.step] at h
      split at h
      · simp only [reduceCtorEq] at h
      · rename_i task hc
        split at h
        · rename_i hphase
          split at h
          · simp only [reduceCtorEq] at h
          · rename_i k hk
            rw [Option.map_eq_some_iff] at h
            rcases h with ⟨pool, _, rfl⟩
            refine Or.inr ⟨_, ?_, goes_call s _ c task task.call hc ?_ ?_ rfl⟩
            · rw [hphase]
              rfl
            · rw [hphase]
              exact Phase.noConfusion
            · exact (ListModify.modify_self hc).symm
        · simp only [reduceCtorEq] at h
  | gaveConnection =>
      -- Done or thrown, the call is over, and the task goes on.
      simp only [Piece.of, Serving.step] at h
      split at h
      · simp only [reduceCtorEq] at h
      · rename_i task hc
        split at h
        · simp only [reduceCtorEq] at h
        · split at h
          · rcases goes_handle L (env c) s t c task _ hc h with ⟨k', hturn, hgoes⟩
            exact Or.inl ⟨.returnConnection _, _, k', rfl, fun he => absurd he Bool.false_ne_true,
              hturn, hgoes⟩
          · simp only [reduceCtorEq] at h

/-- A piece of `connectionHandler` is about its own connection. -/
theorem goes_piece (L : Layout ν) (env : Nat → Environment) (s t : Serving.State ν) (c : Nat)
    (piece : Piece L) (hpiece : piece.isHandler = true)
    (h : Serving.step L env s (piece.of c) = some t) :
    ∃ p q, Goes s t c p q ∧ inside p = true ∧ (inside q = true ∨ q = .failed) := by
  rcases turn_of_piece L env s t c piece hpiece h with ⟨a, k, k', ha, _, hturn, hgoes⟩ |
    ⟨p, hp, hgoes⟩
  · exact ⟨_, _, hgoes, inside_turn L (env c) k k' a ha hturn⟩
  · exact ⟨p, p, hgoes, hp, Or.inl hp⟩

/-! ### The two views -/

/-- What a step of the server is for its connections, if it is anything. -/
def Makes {L : Layout ν} (s : State ν) : Act L → Serving.Act L → Prop
  | .accept registered, b => b = .accept registered
  | .proceed, b => ∃ c, b = .task c .enqueue
  | .handler i piece, b =>
      ∃ c, s.threads.runs i = some c ∧ piece.isHandler = true ∧ b = piece.of c
  | .leave _, b => ∃ c, b = .task c .decrement
  | .work _, b => ∃ c, b = .task c .start
  | .database a, b => b = .pool a
  | _, _ => False

/-- A step of the server is a step of its threads or none, and of its
    connections or none. -/
theorem parts_of_step (L : Layout ν) (env : Nat → Environment) (s t : State ν) (a : Act L)
    (h : step L env s a = some t) :
    (t.threads = s.threads ∨ ∃ b, Accepting.step s.threads b = some t.threads) ∧
      (t.serving = s.serving ∨
        ∃ b, Makes s a b ∧ Serving.step L env s.serving b = some t.serving) := by
  cases a with
  | accept registered =>
      -- Both parts know the new connection by the same number.
      simp only [step, accept, Option.bind_eq_some_iff, Option.map_eq_some_iff] at h
      rcases h with ⟨threads, hthreads, serving, hserving, rfl⟩
      exact ⟨Or.inr ⟨.accept _ registered, hthreads⟩, Or.inr ⟨_, rfl, hserving⟩⟩
  | proceed =>
      simp only [step, proceed, Option.bind_eq_some_iff] at h
      rcases h with ⟨threads, hthreads, h⟩
      -- Behind `enqueue` the task is queued, and before it only the threads move.
      split at h
      · simp only [Option.map_eq_some_iff] at h
        rcases h with ⟨serving, hserving, rfl⟩
        exact ⟨Or.inr ⟨.proceed, hthreads⟩, Or.inr ⟨_, ⟨_, rfl⟩, hserving⟩⟩
      · rw [← Option.some.inj h]
        exact ⟨Or.inr ⟨.proceed, hthreads⟩, Or.inl rfl⟩
  | handler i piece =>
      simp only [step, handler] at h
      split at h
      · simp only [reduceCtorEq] at h
      · rename_i c hruns
        split at h
        · rename_i hguard
          simp only [Bool.and_eq_true] at hguard
          simp only [Option.bind_eq_some_iff] at h
          rcases h with ⟨serving, hserving, h⟩
          have hmakes : Makes s (.handler i piece) (piece.of c) := ⟨c, hruns, hguard.2, rfl⟩
          -- An exception of the handler is one of the worker that runs it.
          split at h
          · simp only [Option.map_eq_some_iff] at h
            rcases h with ⟨threads, hthreads, rfl⟩
            exact ⟨Or.inr ⟨.fail i, hthreads⟩, Or.inr ⟨_, hmakes, hserving⟩⟩
          · rw [← Option.some.inj h]
            exact ⟨Or.inl rfl, Or.inr ⟨_, hmakes, hserving⟩⟩
        · simp only [reduceCtorEq] at h
  | leave i =>
      simp only [step, leave] at h
      split at h
      · simp only [reduceCtorEq] at h
      · simp only [Option.bind_eq_some_iff, Option.map_eq_some_iff] at h
        -- The counter and the phase change in one step.
        rcases h with ⟨threads, hthreads, serving, hserving, rfl⟩
        exact ⟨Or.inr ⟨.leave i, hthreads⟩, Or.inr ⟨_, ⟨_, rfl⟩, hserving⟩⟩
  | work i =>
      simp only [step, work, Option.bind_eq_some_iff] at h
      rcases h with ⟨threads, hthreads, h⟩
      -- A worker that takes a task begins it, and another one does nothing to it.
      split at h
      · simp only [Option.map_eq_some_iff] at h
        rcases h with ⟨serving, hserving, rfl⟩
        exact ⟨Or.inr ⟨.work i, hthreads⟩, Or.inr ⟨_, ⟨_, rfl⟩, hserving⟩⟩
      · rw [← Option.some.inj h]
        exact ⟨Or.inr ⟨.work i, hthreads⟩, Or.inl rfl⟩
  | proceedTask i =>
      simp only [step, Option.map_eq_some_iff] at h
      rcases h with ⟨threads, hthreads, rfl⟩
      exact ⟨Or.inr ⟨.proceedTask i, hthreads⟩, Or.inl rfl⟩
  | notifyOne i | wake i =>
      simp only [step, Option.map_eq_some_iff] at h
      rcases h with ⟨threads, hthreads, rfl⟩
      exact ⟨Or.inr ⟨_, hthreads⟩, Or.inl rfl⟩
  | database b =>
      simp only [step, Option.map_eq_some_iff] at h
      rcases h with ⟨serving, hserving, rfl⟩
      exact ⟨Or.inl rfl, Or.inr ⟨_, rfl, hserving⟩⟩

/-- A run of the server is a run of its threads. -/
theorem reaches_threads (L : Layout ν) (env : Nat → Environment) (s t : State ν)
    (h : (machine L env).Reaches s t) : Accepting.machine.Reaches s.threads t.threads := by
  refine Machine.reaches_image State.threads (fun u a v hstep => ?_) h
  rcases (parts_of_step L env u v a hstep).1 with hsame | ⟨b, hb⟩
  · rw [hsame]
    exact Machine.reaches_refl _
  · exact Machine.reaches_step (Machine.reaches_refl _) hb

/-- And a run of its connections. -/
theorem reaches_serving (L : Layout ν) (env : Nat → Environment) (s t : State ν)
    (h : (machine L env).Reaches s t) :
    (Serving.machine L env).Reaches s.serving t.serving := by
  refine Machine.reaches_image State.serving (fun u a v hstep => ?_) h
  rcases (parts_of_step L env u v a hstep).2 with hsame | ⟨b, _, hb⟩
  · rw [hsame]
    exact Machine.reaches_refl _
  · exact Machine.reaches_step (Machine.reaches_refl _) hb

theorem reaches_open (L : Layout ν) (env : Nat → Environment) (pool : ConnectionPool.State)
    (s : State ν) (h : (machine L env).Reaches (initial ν pool) s) : Open s.threads.pool :=
  Accepting.reaches_open s.threads (reaches_threads L env _ s h)

theorem reaches_conserved (L : Layout ν) (env : Nat → Environment) (pool : ConnectionPool.State)
    (s : State ν) (h : (machine L env).Reaches (initial ν pool) s) :
    ThreadPool.Conserved s.threads.pool :=
  ThreadPool.reachable_conserved 10 _
    (Accepting.reaches_pool _ _ (reaches_threads L env _ s h))

/-! ### Steps -/

/-- What a step of the server is, for a pool that is not stopped. -/
inductive Went (L : Layout ν) (env : Nat → Environment) (s t : State ν) : Prop where
  | close (after : t = s)
  | accept (waiting : s.threads.main = .waiting)
      (threads : t.threads = { s.threads with
        activeConnections := s.threads.activeConnections + 1
        main := .adding s.serving.tasks.length .called })
      (tasks : t.serving.tasks =
        s.serving.tasks ++ [{ handler := .opened ν, call := none }])
      (active : t.serving.activeConnections = s.serving.activeConnections + 1)
  | enqueue (c : Nat) (main : s.threads.main = .adding c .returned)
      (threads : t.threads = { s.threads with
        main := .waiting, pool := Accepting.queuedBehind c s.threads.pool })
      (goes : Goes s.serving t.serving c .accepted .queued)
  | main (c : Nat) (p p' : ThreadPool.Adjust) (pool : ThreadPool.Pool Nat)
      (main : s.threads.main = .adding c p) (still : ThreadPool.Still s.threads.pool pool)
      (threads : t.threads = { s.threads with main := .adding c p', pool := pool })
      (serving : t.serving = s.serving)
  | handler (i c : Nat) (p q : Phase) (runs : s.threads.runs i = some c)
      (handles : s.threads.tasks i = .handling) (threads : t.threads = s.threads)
      (goes : Goes s.serving t.serving c p q) (stays : inside q = true)
  | fail (i c : Nat) (p : Phase) (runs : s.threads.runs i = some c)
      (handles : s.threads.tasks i = .handling)
      (threads : t.threads = { s.threads with
        tasks := Function.update s.threads.tasks i .failed })
      (goes : Goes s.serving t.serving c p .failed)
  | leave (i c : Nat) (runs : s.threads.runs i = some c)
      (handles : s.threads.tasks i = .handling)
      (threads : t.threads = { s.threads with
        activeConnections := s.threads.activeConnections - 1
        tasks := Function.update s.threads.tasks i (.leaving .called) })
      (goes : Goes s.serving t.serving c .closed .ended)
  | adjustTask (i c : Nat) (p p' : ThreadPool.Adjust) (pool : ThreadPool.Pool Nat)
      (runs : s.threads.runs i = some c) (task : s.threads.tasks i = .leaving p)
      (still : ThreadPool.Still s.threads.pool pool)
      (threads : t.threads = { s.threads with
        tasks := Function.update s.threads.tasks i (.leaving p'), pool := pool })
      (serving : t.serving = s.serving)
  | finish (i c : Nat) (runs : s.threads.runs i = some c)
      (ended : s.threads.tasks i = .leaving .returned ∨ s.threads.tasks i = .failed)
      (threads : t.threads = { s.threads with
        pool := ThreadPool.finishTask i (.user c) s.threads.pool
        tasks := Function.update s.threads.tasks i .handling })
      (serving : t.serving = s.serving)
  | begin (i c : Nat) (pool : ThreadPool.Pool Nat)
      (front : s.threads.pool.tasks = .user c :: pool.tasks)
      (records : pool.accepted = s.threads.pool.accepted ∧
        pool.finished = s.threads.pool.finished)
      (holds : ∀ j task, pool.holds j task →
        (j ≠ i ∧ s.threads.pool.holds j task) ∨ (j = i ∧ task = .user c))
      (threads : t.threads = { s.threads with
        pool := pool, tasks := Function.update s.threads.tasks i .handling })
      (goes : Goes s.serving t.serving c .queued .started)
  | idle (i : Nat) (pool : ThreadPool.Pool Nat) (still : ThreadPool.Still s.threads.pool pool)
      (free : s.threads.runs i = none)
      (threads : t.threads = { s.threads with
        pool := pool, tasks := Function.update s.threads.tasks i .handling })
      (serving : t.serving = s.serving)
  | pool (pool : ThreadPool.Pool Nat) (still : ThreadPool.Still s.threads.pool pool)
      (threads : t.threads = { s.threads with pool := pool }) (serving : t.serving = s.serving)
  | database (threads : t.threads = s.threads)
      (phases : ∀ c, phase t.serving c = phase s.serving c)
      (length : t.serving.tasks.length = s.serving.tasks.length)
      (active : t.serving.activeConnections = s.serving.activeConnections)

theorem runs_eq_none (s : Accepting.State) (i : Nat)
    (h : ∀ c, ¬ s.pool.holds i (.user c)) : s.runs i = none := by
  cases hruns : s.runs i with
  | none => rfl
  | some c => exact absurd ((Accepting.runs_eq_some_iff s i c).mp hruns) (h c)

theorem went_of_accept (L : Layout ν) (env : Nat → Environment) (s t : State ν)
    (registered : Bool) (h : accept L env registered s = some t) : Went L env s t := by
  simp only [accept, Option.bind_eq_some_iff, Option.map_eq_some_iff] at h
  rcases h with ⟨threads, hthreads, serving, hserving, rfl⟩
  simp only [Accepting.accept] at hthreads
  split at hthreads
  · rename_i hmain
    -- What cannot be registered is closed, and leaves no trace.
    cases registered with
    | true =>
        simp only [Serving.step, if_true, Option.some.injEq] at hthreads hserving
        rw [← hthreads, ← hserving]
        exact .accept hmain rfl rfl rfl
    | false =>
        simp only [Serving.step, Bool.false_eq_true, if_false, Option.some.injEq]
          at hthreads hserving
        rw [← hthreads, ← hserving]
        exact .close rfl
  · simp only [reduceCtorEq] at hthreads

theorem went_of_proceed (L : Layout ν) (env : Nat → Environment) (s t : State ν)
    (hopen : Open s.threads.pool) (h : proceed L env s = some t) : Went L env s t := by
  simp only [proceed, Option.bind_eq_some_iff] at h
  rcases h with ⟨threads, hthreads, h⟩
  -- Only the last piece of `handleNewConnection` is seen by the connections.
  cases Accepting.did_of_proceed s.threads threads hopen.stop hthreads with
  | adjust c p p' pool hmain _ hstill hafter =>
      simp only [hmain, hafter, Option.some.injEq] at h
      rw [← h]
      exact .main c p p' pool hmain hstill rfl rfl
  | relock c pool hmain hstill _ hafter =>
      simp only [hmain, hafter, Option.some.injEq] at h
      rw [← h]
      exact .main c .returned .stuck pool hmain hstill rfl rfl
  | enqueue c hmain hafter =>
      simp only [hmain, hafter, Option.map_eq_some_iff] at h
      rcases h with ⟨serving, hserving, rfl⟩
      exact .enqueue c hmain rfl (goes_enqueue L env _ _ c hserving)
  | pool _ hwakes => exact absurd hwakes Bool.false_ne_true

theorem went_of_handler (L : Layout ν) (env : Nat → Environment) (s t : State ν) (i : Nat)
    (piece : Piece L) (h : handler L env i piece s = some t) : Went L env s t := by
  simp only [handler] at h
  split at h
  · simp only [reduceCtorEq] at h
  · rename_i c hruns
    split at h
    · rename_i hguard
      rw [Bool.and_eq_true] at hguard
      have hhandling := ((Accepting.handles_iff s.threads i).mp hguard.1).2
      simp only [Option.bind_eq_some_iff] at h
      rcases h with ⟨serving, hserving, h⟩
      rcases goes_piece L env _ _ c piece hguard.2 hserving with ⟨p, q, hgoes, _, hq⟩
      -- A handler that has thrown takes its worker out of the task.
      split at h
      · rename_i hfailed
        simp only [Accepting.fail, hguard.1, if_true, Option.map_some, Option.some.injEq] at h
        rw [hgoes.after, Option.some.injEq] at hfailed
        rw [hfailed] at hgoes
        rw [← h]
        exact .fail i c p hruns hhandling rfl hgoes
      · rename_i hfailed
        -- It did not throw, so it is still inside.
        rcases hq with hinside | hq
        · rw [← Option.some.inj h]
          exact .handler i c p q hruns hhandling rfl hgoes hinside
        · exact absurd (hgoes.after.trans (congrArg some hq)) hfailed
    · simp only [reduceCtorEq] at h

theorem went_of_leave (L : Layout ν) (env : Nat → Environment) (s t : State ν) (i : Nat)
    (h : leave L env i s = some t) : Went L env s t := by
  simp only [leave] at h
  split at h
  · simp only [reduceCtorEq] at h
  · rename_i c hruns
    simp only [Option.bind_eq_some_iff, Option.map_eq_some_iff] at h
    rcases h with ⟨threads, hthreads, serving, hserving, rfl⟩
    simp only [Accepting.leave] at hthreads
    -- Only a task that is being handled can be left.
    split at hthreads
    · rename_i hguard
      rw [← Option.some.inj hthreads]
      exact .leave i c hruns ((Accepting.handles_iff s.threads i).mp hguard).2 rfl
        (goes_decrement L env _ _ c hserving)
    · simp only [reduceCtorEq] at hthreads

theorem went_of_work (L : Layout ν) (env : Nat → Environment) (s t : State ν) (i : Nat)
    (hopen : Open s.threads.pool) (h : work L env i s = some t) : Went L env s t := by
  simp only [work, Option.bind_eq_some_iff] at h
  rcases h with ⟨threads, hthreads, h⟩
  cases Accepting.did_of_step s.threads threads (.work i) hopen.stop hthreads with
  -- The steps of a worker are not those that wake one.
  | pool _ hwakes => exact absurd hwakes Bool.false_ne_true
  | work _ pool hfinished hworks _ hafter =>
      cases hworks with
      | still hstill hidle =>
          have hnone : threads.runs i = none := by
            refine runs_eq_none threads i fun c hc => ?_
            rw [hafter] at hc
            exact hidle _ (hstill.holds i _ hc)
          have hnone' := runs_eq_none s.threads i fun c => hidle (.user c)
          simp only [hnone, Option.some.injEq] at h
          rw [← h]
          exact .idle i pool hstill hnone' hafter rfl
      | finish task hholds hpool =>
          -- The running pool holds no task that ends a worker.
          cases task with
          | terminate => exact absurd hholds (hopen.held i)
          | user c =>
              have hruns := (Accepting.runs_eq_some_iff s.threads i c).mpr hholds
              have hnone : threads.runs i = none := by
                refine runs_eq_none threads i fun d hd => ?_
                rw [hafter, hpool] at hd
                exact (ThreadPool.holds_finish i _ _ i _ hd).1 rfl
              simp only [hnone, Option.some.injEq] at h
              simp only [Accepting.State.finished, hruns, decide_eq_true_eq] at hfinished
              rw [← h]
              exact .finish i c hruns hfinished (by rw [hafter, hpool]) rfl
      | dequeue task w hfree hw htop hfront hpool =>
          have hmem : task ∈ s.threads.pool.tasks := by
            rw [hfront]
            exact List.mem_cons_self
          -- Nor is there one in its queue.
          cases task with
          | terminate => exact absurd rfl (hopen.queued _ hmem)
          | user c =>
              have hruns : threads.runs i = some c := by
                refine (Accepting.runs_eq_some_iff threads i c).mpr ?_
                refine ⟨{ w with position := .running (.user c) }, ?_, rfl⟩
                rw [hafter, hpool]
                simp only [ThreadPool.Pool.setPosition, List.getElem?_modify_eq, hw,
                  Option.map_eq_map, Option.map_some]
              simp only [hruns, Option.map_eq_some_iff] at h
              rcases h with ⟨serving, hserving, rfl⟩
              refine .begin i c pool hfront ?_ ?_ hafter (goes_start L env _ _ c hserving)
              · rw [hpool]
                exact ⟨rfl, rfl⟩
              · exact fun j task => ThreadPool.holds_dequeue i _ pool _ (by rw [hpool]) j task

theorem went_of_step (L : Layout ν) (env : Nat → Environment) (s t : State ν) (a : Act L)
    (hopen : Open s.threads.pool) (h : step L env s a = some t) : Went L env s t := by
  -- Each action of the server moves one part: the threads, a handler, or the database pool.
  cases a with
  | accept registered => exact went_of_accept L env s t registered h
  | proceed => exact went_of_proceed L env s t hopen h
  | handler i piece => exact went_of_handler L env s t i piece h
  | leave i => exact went_of_leave L env s t i h
  | work i => exact went_of_work L env s t i hopen h
  | proceedTask i =>
      simp only [step, Option.map_eq_some_iff] at h
      rcases h with ⟨threads, hthreads, rfl⟩
      cases Accepting.did_of_step s.threads threads (.proceedTask i) hopen.stop hthreads with
      | pool _ hwakes => exact absurd hwakes Bool.false_ne_true
      | adjustTask _ c p p' pool hruns htask _ hstill hafter =>
          exact .adjustTask i c p p' pool hruns htask hstill hafter rfl
  | notifyOne i | wake i =>
      simp only [step, Option.map_eq_some_iff] at h
      rcases h with ⟨threads, hthreads, rfl⟩
      cases Accepting.did_of_step s.threads threads _ hopen.stop hthreads with
      | pool _ _ pool hstill _ hafter => exact .pool pool hstill hafter rfl
  | database b =>
      simp only [step, Option.map_eq_some_iff, Serving.step] at h
      rcases h with ⟨serving, hserving, rfl⟩
      split at hserving
      · rw [Option.map_eq_some_iff] at hserving
        rcases hserving with ⟨pool, _, rfl⟩
        exact .database rfl (fun _ => rfl) rfl rfl
      · simp only [reduceCtorEq] at hserving

/-! ### Places -/

/-- The phases of a connection whose task a worker runs. -/
def Suits : Accepting.TaskPhase → Phase → Prop
  | .handling, p => inside p = true
  | .leaving _, p => p = .ended
  | .failed, p => p = .failed

/-- A connection that a worker has is neither in hand nor queued. -/
theorem suits_begun (task : Accepting.TaskPhase) (p : Phase) (h : Suits task p) :
    p ≠ .accepted ∧ p ≠ .queued := by
  constructor <;>
    rintro rfl <;>
    cases task <;>
    simp only [Suits, inside, reduceCtorEq, Bool.false_eq_true] at h

theorem suits_self (tasks : Nat → Accepting.TaskPhase) (i : Nat) (phase : Accepting.TaskPhase)
    (p : Phase) (h : Suits phase p) : Suits (Function.update tasks i phase i) p := by
  rw [Function.update_self]
  exact h

theorem suits_other (tasks : Nat → Accepting.TaskPhase) (i j : Nat)
    (phase : Accepting.TaskPhase) (p : Phase) (hij : j ≠ i) (h : Suits (tasks j) p) :
    Suits (Function.update tasks i phase j) p := by
  rw [Function.update_of_ne hij]
  exact h

/-- Where a connection is, its phase says. -/
structure Placed (s : State ν) : Prop where
  accepted : s.threads.pool.accepted =
    (List.range (s.serving.tasks.length - s.threads.main.pending)).map Task.user
  main : ∀ c p, s.threads.main = .adding c p →
    c + 1 = s.serving.tasks.length ∧ phase s.serving c = some .accepted
  queued : ∀ c, Task.user c ∈ s.threads.pool.tasks → phase s.serving c = some .queued
  holds : ∀ i c, s.threads.runs i = some c →
    ∃ p, phase s.serving c = some p ∧ Suits (s.threads.tasks i) p
  finished : ∀ c, Task.user c ∈ s.threads.pool.finished →
    ∃ p, phase s.serving c = some p ∧ p.hasEnded = true

theorem accepted_nodup (s : State ν) (hs : Placed s) : s.threads.pool.accepted.Nodup := by
  rw [hs.accepted]
  exact List.nodup_range.map (fun _ _ h => Task.user.inj h)

theorem mem_held (s : Accepting.State) (i c : Nat) (h : s.runs i = some c) :
    Task.user c ∈ s.pool.held := by
  rcases (Accepting.runs_eq_some_iff s i c).mp h with ⟨w, hw, hp⟩
  exact List.mem_filterMap.mpr ⟨w, List.mem_of_getElem? hw,
    (ThreadPool.task?_eq_some_iff _ _).mpr hp⟩

/-- No two workers run one task. -/
theorem runs_unique (s : State ν) (hs : Placed s)
    (hconserved : ThreadPool.Conserved s.threads.pool) (i j c : Nat)
    (hi : s.threads.runs i = some c) (hj : s.threads.runs j = some c) : i = j := by
  have hholdsi := (Accepting.runs_eq_some_iff s.threads i c).mp hi
  have hholdsj := (Accepting.runs_eq_some_iff s.threads j c).mp hj
  have hdequeued := hconserved.held.mem_iff.mpr
    (List.mem_append_right _ (mem_held s.threads i c hi))
  -- A task that was taken is with one worker, or over and with none.
  rcases ThreadPool.exactly_one_place _ hconserved (accepted_nodup s hs) _ hdequeued with
    ⟨_, hnone⟩ | ⟨_, hunique⟩
  · rcases hholdsi with ⟨w, hw, hp⟩
    exact absurd hp (hnone w (List.mem_of_getElem? hw))
  · exact hunique.unique hholdsi hholdsj

/-- A step of the task of `c` is nothing to a connection in another phase. -/
theorem others_of_goes (s t : Serving.State ν) (c d : Nat) (p q r : Phase)
    (h : Goes s t c p q) (hd : phase s d = some r) (hne : r ≠ p) : phase t d = some r := by
  rw [h.others d, hd]
  rintro rfl
  rw [h.before, Option.some.injEq] at hd
  exact hne hd.symm

theorem placed_initial (pool : ConnectionPool.State) : Placed (initial ν pool) := by
  refine ⟨rfl, fun _ _ hp => Accepting.MainPhase.noConfusion hp,
    fun c hc => absurd hc List.not_mem_nil, fun i c hruns => ?_,
    fun c hc => absurd hc List.not_mem_nil⟩
  rcases (Accepting.runs_eq_some_iff _ i c).mp hruns with ⟨w, hw, hp⟩
  rw [List.eq_of_mem_replicate (List.mem_of_getElem? hw)] at hp
  simp only [ThreadPool.Worker.spawned, reduceCtorEq] at hp

theorem placed_accept (s t : State ν) (hmain : s.threads.main = .waiting)
    (hthreads : t.threads = { s.threads with
      activeConnections := s.threads.activeConnections + 1
      main := .adding s.serving.tasks.length .called })
    (htasks : t.serving.tasks = s.serving.tasks ++ [{ handler := .opened ν, call := none }])
    (hs : Placed s) : Placed t := by
  -- Whoever was there before keeps its place.
  have hold := phase_append s.serving t.serving _ htasks
  have haccepted := hs.accepted
  rw [hmain, Accepting.MainPhase.pending, Nat.sub_zero] at haccepted
  refine ⟨?_, fun c p hp => ?_, fun c hc => ?_, fun i c hruns => ?_, fun c hc => ?_⟩
  · rw [hthreads, htasks, List.length_append, List.length_singleton]
    exact haccepted
  · -- The new connection is the last one, and in the hands of the main thread.
    rw [hthreads, Accepting.MainPhase.adding.injEq] at hp
    rw [← hp.1, htasks]
    refine ⟨by rw [List.length_append, List.length_singleton], ?_⟩
    simp only [phase, htasks, List.getElem?_append_right (Nat.le_refl _), Nat.sub_self,
      List.getElem?_cons_zero, Option.map_some, Handler.Connection.opened]
  · rw [hthreads] at hc
    exact hold c _ (hs.queued c hc)
  · rw [hthreads] at hruns
    rcases hs.holds i c hruns with ⟨p, hp, hsuits⟩
    exact ⟨p, hold c p hp, by rw [hthreads]; exact hsuits⟩
  · rw [hthreads] at hc
    rcases hs.finished c hc with ⟨p, hp, hended⟩
    exact ⟨p, hold c p hp, hended⟩

theorem placed_enqueue (s t : State ν) (c : Nat) (hmain : s.threads.main = .adding c .returned)
    (hthreads : t.threads = { s.threads with
      main := .waiting, pool := Accepting.queuedBehind c s.threads.pool })
    (hgoes : Goes s.serving t.serving c .accepted .queued) (hs : Placed s) : Placed t := by
  have hlast := (hs.main c _ hmain).1
  have haccepted := hs.accepted
  rw [hmain, Accepting.MainPhase.pending, ← hlast, Nat.add_sub_cancel] at haccepted
  refine ⟨?_, fun d p hp => ?_, fun d hd => ?_, fun i d hruns => ?_, fun d hd => ?_⟩
  · -- The connection in hand was the last one of all, and is the last one accepted now.
    rw [hthreads, hgoes.length, ← hlast]
    simp only [Accepting.queuedBehind, haccepted, Accepting.MainPhase.pending, Nat.sub_zero,
      List.range_succ, List.map_append, List.map_cons, List.map_nil]
  · rw [hthreads] at hp
    simp only [reduceCtorEq] at hp
  · -- The queue is as it was, with the connection in hand at its end.
    rw [hthreads] at hd
    rcases List.mem_append.mp hd with hold | hnew
    · exact others_of_goes _ _ c d _ _ _ hgoes (hs.queued d hold) Phase.noConfusion
    · rw [Task.user.inj (List.mem_singleton.mp hnew)]
      exact hgoes.after
  · have hruns' : s.threads.runs i = some d := by
      rw [hthreads] at hruns
      exact hruns
    rcases hs.holds i d hruns' with ⟨p, hp, hsuits⟩
    exact ⟨p, others_of_goes _ _ c d _ _ _ hgoes hp (suits_begun _ p hsuits).1,
      by rw [hthreads]; exact hsuits⟩
  · -- What has ended is not the connection in hand, which was accepted only.
    rw [hthreads] at hd
    rcases hs.finished d hd with ⟨p, hp, hended⟩
    refine ⟨p, others_of_goes _ _ c d _ _ _ hgoes hp ?_, hended⟩
    rintro rfl
    exact absurd hended Bool.false_ne_true

/-- No task moves, and no connection. -/
theorem placed_still (s t : State ν) (hs : Placed s)
    (hphases : ∀ c, phase t.serving c = phase s.serving c)
    (hlength : t.serving.tasks.length = s.serving.tasks.length)
    (hstill : ThreadPool.Still s.threads.pool t.threads.pool)
    (hpending : t.threads.main.pending = s.threads.main.pending)
    (hmain : ∀ c p, t.threads.main = .adding c p → ∃ p', s.threads.main = .adding c p')
    (htasks : ∀ i c p, s.threads.runs i = some c → Suits (s.threads.tasks i) p →
      Suits (t.threads.tasks i) p) : Placed t := by
  refine ⟨?_, fun c p hp => ?_, fun c hc => ?_, fun i c hruns => ?_, fun c hc => ?_⟩
  · rw [hstill.accepted, hlength, hpending]
    exact hs.accepted
  · -- The main thread may go on with the connection in hand, and with no other.
    rcases hmain c p hp with ⟨p', hp'⟩
    rw [hphases, hlength]
    exact hs.main c p' hp'
  · rw [hphases]
    exact hs.queued c (hstill.tasks ▸ hc)
  · have hruns' := Accepting.runs_still s.threads t.threads hstill i c hruns
    rcases hs.holds i c hruns' with ⟨p, hp, hsuits⟩
    exact ⟨p, (hphases c).trans hp, htasks i c p hruns' hsuits⟩
  · rw [hphases]
    exact hs.finished c (hstill.finished ▸ hc)

/-- What a worker moves that is in a `connectionHandler` is a task in it. -/
theorem inside_of_goes (s : State ν) (t : Serving.State ν) (i c : Nat) (p q : Phase)
    (hs : Placed s) (hruns : s.threads.runs i = some c)
    (hhandling : s.threads.tasks i = .handling) (hgoes : Goes s.serving t c p q) :
    inside p = true := by
  rcases hs.holds i c hruns with ⟨r, hr, hsuits⟩
  rw [hgoes.before, Option.some.injEq] at hr
  rw [hhandling, ← hr] at hsuits
  exact hsuits

/-- The task of worker `i` moves in its `connectionHandler`, or out of it. -/
theorem placed_task (s t : State ν) (i c : Nat) (p q : Phase) (hs : Placed s)
    (hconserved : ThreadPool.Conserved s.threads.pool) (hruns : s.threads.runs i = some c)
    (hhandling : s.threads.tasks i = .handling) (hgoes : Goes s.serving t.serving c p q)
    (hpool : t.threads.pool = s.threads.pool) (hmain : t.threads.main = s.threads.main)
    (htasks : ∀ j, j ≠ i → t.threads.tasks j = s.threads.tasks j)
    (hsuits : Suits (t.threads.tasks i) q) : Placed t := by
  -- The connection of the worker is inside `connectionHandler`, so it is in no other place.
  have hinside := inside_of_goes s t.serving i c p q hs hruns hhandling hgoes
  have hruns_eq : ∀ j, t.threads.runs j = s.threads.runs j := by
    intro j
    unfold Accepting.State.runs
    rw [hpool]
  refine ⟨?_, fun d a hd => ?_, fun d hd => ?_, fun j d hd => ?_, fun d hd => ?_⟩
  · rw [hpool, hgoes.length, hmain]
    exact hs.accepted
  · -- The connection in hand is not inside.
    rw [hmain] at hd
    rcases hs.main d a hd with ⟨hlast, hphase⟩
    refine ⟨by rw [hgoes.length]; exact hlast, others_of_goes _ _ c d _ _ _ hgoes hphase ?_⟩
    rintro rfl
    exact absurd hinside Bool.false_ne_true
  · -- Nor is one in the queue.
    rw [hpool] at hd
    refine others_of_goes _ _ c d _ _ _ hgoes (hs.queued d hd) ?_
    rintro rfl
    exact absurd hinside Bool.false_ne_true
  · rw [hruns_eq] at hd
    by_cases hij : j = i
    · rw [hij, hruns, Option.some.injEq] at hd
      rw [← hd, hij]
      exact ⟨q, hgoes.after, hsuits⟩
    · -- Another worker has another connection.
      rcases hs.holds j d hd with ⟨r, hr, hsuits'⟩
      refine ⟨r, ?_, by rw [htasks j hij]; exact hsuits'⟩
      rw [hgoes.others d, hr]
      rintro rfl
      exact hij (runs_unique s hs hconserved j i d hd hruns)
  · -- Nor is one that has ended.
    rw [hpool] at hd
    rcases hs.finished d hd with ⟨r, hr, hended⟩
    refine ⟨r, others_of_goes _ _ c d _ _ _ hgoes hr ?_, hended⟩
    rintro rfl
    cases r <;> simp only [inside, Phase.hasEnded, Bool.false_eq_true] at hinside hended

/-- The task of worker `i` is over. -/
theorem placed_finish (s t : State ν) (i c : Nat) (hs : Placed s)
    (hruns : s.threads.runs i = some c)
    (hended : s.threads.tasks i = .leaving .returned ∨ s.threads.tasks i = .failed)
    (hthreads : t.threads = { s.threads with
      pool := ThreadPool.finishTask i (.user c) s.threads.pool
      tasks := Function.update s.threads.tasks i .handling })
    (hserving : t.serving = s.serving) : Placed t := by
  refine ⟨?_, fun d p hp => ?_, fun d hd => ?_, fun j d hd => ?_, fun d hd => ?_⟩
  · rw [hthreads, hserving]
    exact hs.accepted
  · rw [hthreads] at hp
    rw [hserving]
    exact hs.main d p hp
  · rw [hthreads] at hd
    rw [hserving]
    exact hs.queued d hd
  · -- The other workers hold what they held.
    have hholds := (Accepting.runs_eq_some_iff t.threads j d).mp hd
    rw [hthreads] at hholds
    rcases ThreadPool.holds_finish i _ _ j _ hholds with ⟨hij, hold⟩
    rcases hs.holds j d ((Accepting.runs_eq_some_iff s.threads j d).mpr hold) with
      ⟨p, hp, hsuits⟩
    refine ⟨p, by rw [hserving]; exact hp, ?_⟩
    rw [hthreads]
    exact suits_other _ i j _ p hij hsuits
  · rw [hthreads] at hd
    rw [hserving]
    -- The task of this one joins those that are finished.
    rcases List.mem_append.mp hd with hold | hnew
    · exact hs.finished d hold
    · rw [Task.user.inj (List.mem_singleton.mp hnew)]
      rcases hs.holds i c hruns with ⟨p, hp, hsuits⟩
      refine ⟨p, hp, ?_⟩
      rcases hended with hleft | hfailed
      · rw [hleft] at hsuits
        rw [hsuits]
        rfl
      · rw [hfailed] at hsuits
        rw [hsuits]
        rfl

/-- Worker `i` takes the first task of the queue. -/
theorem placed_begin (s t : State ν) (i c : Nat) (pool : ThreadPool.Pool Nat) (hs : Placed s)
    (hconserved : ThreadPool.Conserved s.threads.pool)
    (hfront : s.threads.pool.tasks = .user c :: pool.tasks)
    (hrecords : pool.accepted = s.threads.pool.accepted ∧
      pool.finished = s.threads.pool.finished)
    (hholds : ∀ j task, pool.holds j task →
      (j ≠ i ∧ s.threads.pool.holds j task) ∨ (j = i ∧ task = .user c))
    (hthreads : t.threads = { s.threads with
      pool := pool, tasks := Function.update s.threads.tasks i .handling })
    (hgoes : Goes s.serving t.serving c .queued .started) : Placed t := by
  refine ⟨?_, fun d p hp => ?_, fun d hd => ?_, fun j d hd => ?_, fun d hd => ?_⟩
  · rw [hthreads, hgoes.length]
    exact hrecords.1.trans hs.accepted
  · rw [hthreads] at hp
    rcases hs.main d p hp with ⟨hlast, hphase⟩
    exact ⟨by rw [hgoes.length]; exact hlast,
      others_of_goes _ _ c d _ _ _ hgoes hphase Phase.noConfusion⟩
  · rw [hthreads] at hd
    rw [hgoes.others d, hs.queued d (by rw [hfront]; exact List.mem_cons_of_mem _ hd)]
    -- The queue holds no task twice.
    rintro rfl
    have hnodup := accepted_nodup s hs
    rw [hconserved.fifo, hfront] at hnodup
    exact (List.nodup_cons.mp (List.nodup_append.mp hnodup).2.1).1 hd
  · have hheld := (Accepting.runs_eq_some_iff t.threads j d).mp hd
    rw [hthreads] at hheld
    rcases hholds j _ hheld with ⟨hij, hold⟩ | ⟨hij, hnew⟩
    · rcases hs.holds j d ((Accepting.runs_eq_some_iff s.threads j d).mpr hold) with
        ⟨p, hp, hsuits⟩
      refine ⟨p, others_of_goes _ _ c d _ _ _ hgoes hp (suits_begun _ p hsuits).2, ?_⟩
      rw [hthreads]
      exact suits_other _ i j _ p hij hsuits
    · rw [Task.user.inj hnew, hij, hthreads]
      exact ⟨_, hgoes.after, suits_self _ i _ _ rfl⟩
  · rw [hthreads] at hd
    rcases hs.finished d (hrecords.2 ▸ hd) with ⟨p, hp, hended⟩
    refine ⟨p, others_of_goes _ _ c d _ _ _ hgoes hp ?_, hended⟩
    rintro rfl
    exact absurd hended Bool.false_ne_true

theorem placed_step (L : Layout ν) (env : Nat → Environment) (s t : State ν) (hs : Placed s)
    (hconserved : ThreadPool.Conserved s.threads.pool) (h : Went L env s t) : Placed t := by
  cases h with
  | close hafter =>
      rw [hafter]
      exact hs
  | accept hmain hthreads htasks _ => exact placed_accept s t hmain hthreads htasks hs
  | enqueue c hmain hthreads hgoes => exact placed_enqueue s t c hmain hthreads hgoes hs
  -- The main thread adjusts the pool, and no connection moves.
  | main c p p' pool hmain hstill hthreads hserving =>
      refine placed_still s t hs (fun _ => by rw [hserving]) (by rw [hserving])
        (by rw [hthreads]; exact hstill) (by rw [hthreads, hmain]; rfl) (fun d a hd => ?_)
        (fun _ _ _ _ hsuits => by rw [hthreads]; exact hsuits)
      rw [hthreads, Accepting.MainPhase.adding.injEq] at hd
      exact ⟨p, by rw [hmain, hd.1]⟩
  | handler i c p q hruns hhandling hthreads hgoes hstays =>
      exact placed_task s t i c p q hs hconserved hruns hhandling hgoes (by rw [hthreads])
        (by rw [hthreads]) (fun _ _ => by rw [hthreads]) (by rw [hthreads, hhandling]; exact hstays)
  | fail i c p hruns hhandling hthreads hgoes =>
      exact placed_task s t i c p _ hs hconserved hruns hhandling hgoes (by rw [hthreads])
        (by rw [hthreads]) (fun j hij => by rw [hthreads]; exact Function.update_of_ne hij _ _)
        (by rw [hthreads]; exact suits_self _ i _ _ rfl)
  | leave i c hruns hhandling hthreads hgoes =>
      exact placed_task s t i c _ _ hs hconserved hruns hhandling hgoes (by rw [hthreads])
        (by rw [hthreads]) (fun j hij => by rw [hthreads]; exact Function.update_of_ne hij _ _)
        (by rw [hthreads]; exact suits_self _ i _ _ rfl)
  | adjustTask i c p p' pool hruns htask hstill hthreads hserving =>
      refine placed_still s t hs (fun _ => by rw [hserving]) (by rw [hserving])
        (by rw [hthreads]; exact hstill) (by rw [hthreads]) (fun d a hd => ?_)
        (fun j d r _ hsuits => ?_)
      · rw [hthreads] at hd
        exact ⟨a, hd⟩
      · rw [hthreads]
        -- The worker is behind its task, and stays there.
        by_cases hij : j = i
        · rw [hij, htask] at hsuits
          rw [hij]
          exact suits_self _ i _ r hsuits
        · exact suits_other _ i j _ r hij hsuits
  | finish i c hruns hended hthreads hserving =>
      exact placed_finish s t i c hs hruns hended hthreads hserving
  | begin i c pool hfront hrecords hholds hthreads hgoes =>
      exact placed_begin s t i c pool hs hconserved hfront hrecords hholds hthreads hgoes
  | idle i pool hstill hfree hthreads hserving =>
      refine placed_still s t hs (fun _ => by rw [hserving]) (by rw [hserving])
        (by rw [hthreads]; exact hstill) (by rw [hthreads]) (fun d a hd => ?_)
        (fun j d r hruns hsuits => ?_)
      · rw [hthreads] at hd
        exact ⟨a, hd⟩
      · -- A worker that goes on without a task had none.
        have hij : j ≠ i := by
          rintro rfl
          rw [hfree] at hruns
          simp only [reduceCtorEq] at hruns
        rw [hthreads]
        exact suits_other _ i j _ r hij hsuits
  | pool pool hstill hthreads hserving =>
      refine placed_still s t hs (fun _ => by rw [hserving]) (by rw [hserving])
        (by rw [hthreads]; exact hstill) (by rw [hthreads]) (fun d a hd => ?_)
        (fun _ _ _ _ hsuits => by rw [hthreads]; exact hsuits)
      rw [hthreads] at hd
      exact ⟨a, hd⟩
  | database hthreads hphases hlength _ =>
      -- The database pool moves no connection at all.
      refine placed_still s t hs hphases hlength
        (by rw [hthreads]; exact ThreadPool.still_refl _) (by rw [hthreads]) (fun d a hd => ?_)
        (fun _ _ _ _ hsuits => by rw [hthreads]; exact hsuits)
      rw [hthreads] at hd
      exact ⟨a, hd⟩

theorem reaches_placed (L : Layout ν) (env : Nat → Environment) (pool : ConnectionPool.State)
    (s : State ν) (h : (machine L env).Reaches (initial ν pool) s) : Placed s := by
  refine Machine.invariant_of (K := fun t : State ν => Open t.threads.pool ∧
    ThreadPool.Conserved t.threads.pool) h (fun t ht => ⟨?_, ?_⟩) (placed_initial pool)
    (fun t a u hknown ht _ hstep =>
      placed_step L env t u ht hknown.2 (went_of_step L env t u a hknown.1 hstep))
  · exact reaches_open L env pool t ht
  · exact reaches_conserved L env pool t ht

/-! ### Neither view holds up the other -/

/-- A step of a thread that is not about what its connection does. -/
def isThreads : Accepting.Act → Bool
  | .accept _ _ => false
  | .leave _ => false
  | .fail _ => false
  | _ => true

theorem enqueue_exists (L : Layout ν) (env : Nat → Environment) (s : Serving.State ν) (c : Nat)
    (h : phase s c = some .accepted) : ∃ t, Serving.step L env s (.task c .enqueue) = some t := by
  simp only [phase, Option.map_eq_some_iff] at h
  rcases h with ⟨task, htask, hphase⟩
  simp only [Serving.step, htask, Serving.isLocal, if_true, Serving.handle, taskStep, hphase,
    Option.map_some, Option.some.injEq, exists_eq']

theorem start_exists (L : Layout ν) (env : Nat → Environment) (s : Serving.State ν) (c : Nat)
    (h : phase s c = some .queued) : ∃ t, Serving.step L env s (.task c .start) = some t := by
  simp only [phase, Option.map_eq_some_iff] at h
  rcases h with ⟨task, htask, hphase⟩
  simp only [Serving.step, htask, Serving.isLocal, if_true, Serving.handle, taskStep, hphase,
    Option.map_some, Option.some.injEq, exists_eq']

theorem proceed_exists (L : Layout ν) (env : Nat → Environment) (s : State ν)
    (u : Accepting.State) (hopen : Open s.threads.pool) (hs : Placed s)
    (h : Accepting.proceed s.threads = some u) :
    ∃ t, proceed L env s = some t ∧ t.threads = u := by
  simp only [proceed, h, Option.bind_some]
  cases Accepting.did_of_proceed s.threads u hopen.stop h with
  | pool _ hwakes => exact absurd hwakes Bool.false_ne_true
  | adjust _ _ _ _ hmain _ _ hafter | relock _ _ hmain _ _ hafter =>
      simp only [hmain, hafter, Option.some.injEq, exists_eq_left']
  | enqueue c hmain hafter =>
      rcases enqueue_exists L env s.serving c (hs.main c _ hmain).2 with ⟨v, hv⟩
      simp only [hmain, hafter, hv, Option.map_some, Option.some.injEq, exists_eq_left']

theorem work_exists (L : Layout ν) (env : Nat → Environment) (s : State ν) (i : Nat)
    (u : Accepting.State) (hopen : Open s.threads.pool) (hs : Placed s)
    (h : Accepting.work i s.threads = some u) :
    ∃ t, work L env i s = some t ∧ t.threads = u := by
  simp only [work, h, Option.bind_some]
  cases hruns : u.runs i with
  | none => exact ⟨_, rfl, rfl⟩
  | some c =>
      -- The worker runs a task only if it has just taken it.
      have hholds := (Accepting.runs_eq_some_iff u i c).mp hruns
      have hqueued : phase s.serving c = some .queued := by
        cases Accepting.did_of_step s.threads u (.work i) hopen.stop h with
        | pool _ hwakes => exact absurd hwakes Bool.false_ne_true
        | work _ pool _ hworks _ hafter =>
            rw [hafter] at hholds
            cases hworks with
            | still hstill hidle => exact absurd (hstill.holds i _ hholds) (hidle _)
            | finish task _ hpool =>
                rw [hpool] at hholds
                exact absurd rfl (ThreadPool.holds_finish i _ _ i _ hholds).1
            | dequeue task w _ _ _ hfront hpool =>
                rcases ThreadPool.holds_dequeue i _ pool task (by rw [hpool]) i _ hholds with
                  ⟨hne, _⟩ | ⟨_, htask⟩
                · exact absurd rfl hne
                · refine hs.queued c ?_
                  rw [hfront, htask]
                  exact List.mem_cons_self
      rcases start_exists L env s.serving c hqueued with ⟨v, hv⟩
      simp only [hv, Option.map_some, Option.some.injEq, exists_eq_left']

/-- In every reachable state: what the main thread or a worker can do next by
    itself, the server can do, and what a connection can do next whose
    `connectionHandler` a worker runs. -/
theorem unhindered (L : Layout ν) (env : Nat → Environment) (pool : ConnectionPool.State)
    (s : State ν) (h : (machine L env).Reaches (initial ν pool) s) :
    (∀ a u, isThreads a = true → Accepting.step s.threads a = some u →
      ∃ b t, step L env s b = some t ∧ t.threads = u) ∧
    (∀ i c piece v, s.threads.runs i = some c → s.threads.tasks i = .handling →
      Piece.isHandler piece = true → Serving.step L env s.serving (piece.of c) = some v →
      ∃ t, step L env s (.handler i piece) = some t ∧ t.serving = v) := by
  have hopen := reaches_open L env pool s h
  have hs := reaches_placed L env pool s h
  refine ⟨fun a u ha hu => ?_, fun i c piece v hruns hhandling hpiece hv => ?_⟩
  · cases a with
    | accept | leave | fail => exact absurd ha Bool.false_ne_true
    | proceed =>
        rcases proceed_exists L env s u hopen hs hu with ⟨t, ht, hthreads⟩
        exact ⟨.proceed, t, ht, hthreads⟩
    | work i =>
        rcases work_exists L env s i u hopen hs hu with ⟨t, ht, hthreads⟩
        exact ⟨.work i, t, ht, hthreads⟩
    | proceedTask i =>
        refine ⟨.proceedTask i, { s with threads := u }, ?_, rfl⟩
        simp only [step, show Accepting.proceedTask i s.threads = some u from hu, Option.map_some]
    | notifyOne i =>
        exact ⟨.notifyOne i, { s with threads := u }, by simp only [step, hu, Option.map_some], rfl⟩
    | wake i =>
        exact ⟨.wake i, { s with threads := u }, by simp only [step, hu, Option.map_some], rfl⟩
  · have hhandles : s.threads.handles i = true :=
      (Accepting.handles_iff s.threads i).mpr
        ⟨⟨c, (Accepting.runs_eq_some_iff s.threads i c).mp hruns⟩, hhandling⟩
    -- An exception ends the task in the threads as well.
    by_cases hfailed : phase v c = some .failed
    · refine ⟨{ threads := { s.threads with
        tasks := Function.update s.threads.tasks i .failed }, serving := v }, ?_, rfl⟩
      simp only [step, handler, hruns, hhandles, hpiece, Bool.and_self, if_true, hv,
        Option.bind_some, hfailed, Accepting.fail, Option.map_some]
    · refine ⟨{ s with serving := v }, ?_, rfl⟩
      simp only [step, handler, hruns, hhandles, hpiece, Bool.and_self, if_true, hv,
        Option.bind_some, if_neg hfailed]

/-! ### The two counters -/

/-- A connection whose task has not ended is counted. -/
theorem active_pos (L : Layout ν) (env : Nat → Environment) (pool : ConnectionPool.State)
    (s : State ν) (h : (machine L env).Reaches (initial ν pool) s) (c : Nat) (p : Phase)
    (hp : phase s.serving c = some p) (hended : p ≠ .ended) : 0 < s.serving.activeConnections := by
  have hactive := Handler.reaches_active L env s.serving.handlers
    (Serving.reaches_parts L env _ s.serving (reaches_serving L env _ s h)).1
  simp only [phase, Option.map_eq_some_iff] at hp
  rcases hp with ⟨task, htask, hp⟩
  -- The counter is the number of the tasks that have not ended.
  have hpos : 0 < s.serving.handlers.connections.countP fun k => decide (k.phase ≠ .ended) := by
    refine List.countP_pos_iff.mpr ⟨task.handler, ?_, ?_⟩
    · exact List.mem_map_of_mem (List.mem_of_getElem? htask)
    · rw [decide_eq_true_eq, hp]
      exact hended
  have hsame : s.serving.handlers.activeConnections = s.serving.activeConnections := rfl
  omega

theorem active_step (L : Layout ν) (env : Nat → Environment) (s t : State ν)
    (hpos : ∀ c p, phase s.serving c = some p → p ≠ .ended → 0 < s.serving.activeConnections)
    (hs : (s.threads.activeConnections : Int) = s.serving.activeConnections)
    (h : Went L env s t) :
    (t.threads.activeConnections : Int) = t.serving.activeConnections := by
  cases h with
  | close hafter =>
      rw [hafter]
      exact hs
  | accept _ hthreads _ hactive =>
      rw [hthreads, hactive, ← hs]
      exact Int.natCast_add _ _
  | enqueue _ _ hthreads hgoes | begin _ _ _ _ _ _ hthreads hgoes =>
      rw [hthreads, hgoes.active, if_neg Phase.noConfusion, Int.sub_zero]
      exact hs
  | fail _ _ _ _ _ hthreads hgoes =>
      rw [hthreads, hgoes.active, if_neg Phase.noConfusion, Int.sub_zero]
      exact hs
  | handler _ _ _ q _ _ hthreads hgoes hstays =>
      have hne : q ≠ .ended := by
        rintro rfl
        exact absurd hstays Bool.false_ne_true
      rw [hthreads, hgoes.active, if_neg hne, Int.sub_zero]
      exact hs
  | leave _ c _ _ hthreads hgoes =>
      -- The count of the threads is a natural number, and does not get below zero here.
      have hcount := hpos c _ hgoes.before Phase.noConfusion
      have hactive := hgoes.active
      rw [if_pos rfl] at hactive
      rw [hthreads, hactive]
      show ((s.threads.activeConnections - 1 : Nat) : Int) = _
      omega
  | main _ _ _ _ _ _ hthreads hserving | adjustTask _ _ _ _ _ _ _ _ hthreads hserving
  | finish _ _ _ _ hthreads hserving | idle _ _ _ _ hthreads hserving
  | pool _ _ hthreads hserving =>
      rw [hthreads, hserving]
      exact hs
  | database hthreads _ _ hactive =>
      rw [hthreads, hactive]
      exact hs

/-- The threads and the connections count the same. -/
theorem reaches_active (L : Layout ν) (env : Nat → Environment) (pool : ConnectionPool.State)
    (s : State ν) (h : (machine L env).Reaches (initial ν pool) s) :
    (s.threads.activeConnections : Int) = s.serving.activeConnections := by
  refine Machine.invariant_of
    (I := fun t : State ν => (t.threads.activeConnections : Int) = t.serving.activeConnections)
    (K := fun t : State ν => Open t.threads.pool ∧
      ∀ c p, phase t.serving c = some p → p ≠ .ended → 0 < t.serving.activeConnections) h
    (fun t ht => ⟨?_, ?_⟩) rfl
    (fun t a u hknown ht _ hstep =>
      active_step L env t u hknown.2 ht (went_of_step L env t u a hknown.1 hstep))
  · exact reaches_open L env pool t ht
  · exact active_pos L env pool t ht

/-! ### The places of all clients -/

/-- The connection the main thread has in hand. -/
def State.inHand (s : State ν) : List (ThreadPool.Task Nat) :=
  match s.threads.main with
  | .waiting => []
  | .adding c _ => [.user c]

/-- Where a connection in a phase is. -/
inductive Place (s : State ν) (c : Nat) : Phase → Prop where
  | main (p : ThreadPool.Adjust) (h : s.threads.main = .adding c p) : Place s c .accepted
  | queue (h : Task.user c ∈ s.threads.pool.tasks) : Place s c .queued
  | worker (i : Nat) (p : Phase) (h : s.threads.runs i = some c)
      (suits : Suits (s.threads.tasks i) p) : Place s c p
  | past (p : Phase) (h : Task.user c ∈ s.threads.pool.finished) (ended : p.hasEnded = true) :
      Place s c p

/-- All places together hold every connection once. -/
theorem places_perm (s : State ν) (hs : Placed s)
    (hconserved : ThreadPool.Conserved s.threads.pool) :
    (s.inHand ++ s.threads.pool.tasks ++ s.threads.pool.held ++ s.threads.pool.finished).Perm
      ((List.range s.serving.tasks.length).map Task.user) := by
  have hqueued : (s.threads.pool.tasks ++ s.threads.pool.held ++ s.threads.pool.finished).Perm
      s.threads.pool.accepted := by
    rw [hconserved.fifo, List.append_assoc]
    refine List.Perm.trans (List.Perm.append_left _ ?_) List.perm_append_comm
    exact List.perm_append_comm.trans hconserved.held.symm
  -- What was queued, and the one that is in hand before it is.
  rw [List.append_assoc, List.append_assoc, ← List.append_assoc s.threads.pool.tasks]
  refine (List.Perm.append_left _ hqueued).trans ?_
  rw [hs.accepted]
  unfold State.inHand
  cases hmain : s.threads.main with
  | waiting => exact List.Perm.refl _
  | adding c p =>
      -- The last connection of all is the one in hand.
      have hlast := (hs.main c p hmain).1
      rw [Accepting.MainPhase.pending, ← hlast, Nat.add_sub_cancel, List.range_succ,
        List.map_append]
      exact List.perm_append_comm

/-- And the phase of a connection is that of its place. -/
theorem place_of_phase (s : State ν) (hs : Placed s)
    (hconserved : ThreadPool.Conserved s.threads.pool) (c : Nat) (p : Phase)
    (hp : phase s.serving c = some p) : Place s c p := by
  have hc := lt_of_phase s.serving c p hp
  have hmem := (places_perm s hs hconserved).mem_iff.mpr
    (List.mem_map_of_mem (f := Task.user) (List.mem_range.mpr hc))
  -- The connection is in exactly one of four places.
  rcases List.mem_append.mp hmem with hmem | hfinished
  · rcases List.mem_append.mp hmem with hmem | hheld
    · rcases List.mem_append.mp hmem with hhand | hqueued
      · unfold State.inHand at hhand
        -- It is in the hands of the main thread.
        cases hmain : s.threads.main with
        | waiting =>
            rw [hmain] at hhand
            exact absurd hhand List.not_mem_nil
        | adding d a =>
            rw [hmain] at hhand
            have hcd := Task.user.inj (List.mem_singleton.mp hhand)
            rw [← hcd] at hmain
            rw [(hs.main c a hmain).2, Option.some.injEq] at hp
            rw [← hp]
            exact .main a hmain
      · rw [hs.queued c hqueued, Option.some.injEq] at hp
        rw [← hp]
        exact .queue hqueued
    · -- A worker holds it.
      rcases List.mem_filterMap.mp hheld with ⟨w, hw, htask⟩
      rcases List.getElem?_of_mem hw with ⟨i, hi⟩
      have hruns := (Accepting.runs_eq_some_iff s.threads i c).mpr
        ⟨w, hi, (ThreadPool.task?_eq_some_iff _ _).mp htask⟩
      rcases hs.holds i c hruns with ⟨q, hq, hsuits⟩
      rw [hp, Option.some.injEq] at hq
      exact .worker i p hruns (by rw [hq]; exact hsuits)
  · rcases hs.finished c hfinished with ⟨q, hq, hended⟩
    rw [hp, Option.some.injEq] at hq
    exact .past p hfinished (by rw [hq]; exact hended)

/-- In every reachable state every client the server has registered is at
    exactly one place: in the hands of the main thread, in the queue, with one
    worker, or past its task. They have been queued and taken in the order in
    which they came, each is in the phase of its place, and both counts of the
    active connections agree. -/
theorem clients_placed (L : Layout ν) (env : Nat → Environment) (pool : ConnectionPool.State)
    (s : State ν) (h : (machine L env).Reaches (initial ν pool) s) :
    (s.inHand ++ s.threads.pool.tasks ++ s.threads.pool.held ++ s.threads.pool.finished).Perm
        ((List.range s.serving.tasks.length).map Task.user) ∧
      s.threads.pool.dequeued ++ s.threads.pool.tasks ++ s.inHand =
        (List.range s.serving.tasks.length).map Task.user ∧
      (∀ c p, phase s.serving c = some p → Place s c p) ∧
      (s.threads.activeConnections : Int) = s.serving.activeConnections := by
  have hs := reaches_placed L env pool s h
  have hconserved := reaches_conserved L env pool s h
  refine ⟨places_perm s hs hconserved, ?_, place_of_phase s hs hconserved,
    reaches_active L env pool s h⟩
  rw [← hconserved.fifo, hs.accepted]
  unfold State.inHand
  -- A connection in hand is the last one, and not yet accepted by the pool.
  cases hmain : s.threads.main with
  | waiting => exact List.append_nil _
  | adding c p =>
      rw [Accepting.MainPhase.pending, ← (hs.main c p hmain).1, Nat.add_sub_cancel,
        List.range_succ, List.map_append]
      rfl

/-- A client that a worker has in its handler, and one in the queue. -/
def twoClients {L : Layout ν} : List (Act L) :=
  [.accept true, .proceed, .proceed, .proceed, .proceed, .work 0,
    .accept true, .proceed, .proceed, .proceed, .proceed]

/-- Two clients: one is with a worker, and the other in the queue. -/
theorem clients_placed_two :
    ∃ s : State UInt32, (machine packedLayout (fun _ => allSucceed)).Reaches
        (initial UInt32 Serving.onePool) s ∧
      s.threads.pool.tasks = [.user 1] ∧ s.threads.runs 0 = some 0 ∧
      (s.inHand ++ s.threads.pool.tasks ++ s.threads.pool.held ++ s.threads.pool.finished).Perm
        ((List.range 2).map Task.user) := by
  have hrun := Machine.reaches_of_execute (M := machine packedLayout (fun _ => allSucceed))
    twoClients (initial UInt32 Serving.onePool) _ rfl
  exact ⟨_, hrun, rfl, rfl, (clients_placed packedLayout (fun _ => allSucceed) _ _ hrun).1⟩

end Whole

end EpollServer
