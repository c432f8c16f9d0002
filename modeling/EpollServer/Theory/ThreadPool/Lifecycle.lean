import EpollServer.Core.Server
import EpollServer.Lib.ListModify
import EpollServer.Theory.ThreadPool.Steps

/-!
# Joining Every Thread Once

When destruction joins each worker exactly once.

Of the whole pool only two things matter here: which threads are joinable,
and where the calls of `shutdown` stand. `Handles` is the pool seen that way,
and `Handles.Move` lists what can happen to it; `handles_of_move` says that
every transition of the pool is one of these. The rest of the module argues
about handles only.

The first call of `shutdown` that finds workers joins the first of them, and
any later call throws at it. So the call of `~ThreadPool`, the last one, must
be the first to find any (`Tidy`), and an earlier one spoils the life
(`Spoiled`). `~Server` makes an earlier call itself: its body calls `stop`,
and a server's pool has workers from the start.

## Main definitions

* `JoinedOnce`: No thread was joined twice and none is left to join.
* `JoinSafe`: The guard of the lives in which only `~ThreadPool` joins.
* `Handles`: The joinable threads and the calls of `shutdown`.
* `Handles.Move`: What can happen to them.
* `Tidy`: The invariant of the safe lives.
* `Spoiled`: A worker was joined before `~ThreadPool` came to it.

## Theorems

* `handles_of_move`: The pool moves as its handles do.
* `step_tidy`: A safe step keeps a life tidy.
* `spoiled_of_unsafe`: The first unsafe step spoils it.
* `step_spoiled`: A spoiled life stays spoiled.
* `joined_once_iff`: The exact condition.
* `server_joins_twice`: The destruction of a server that was never started.
-/

namespace EpollServer

namespace ThreadPool

variable {α : Type}

/-- No `join` threw, which is what it does for a thread joined before, and
    every thread was joined. -/
def JoinedOnce (s : Pool α) : Prop :=
  .threw ∉ s.shutdowns ∧ ∀ w ∈ s.workers, w.joinable = false

instance (s : Pool α) : Decidable (JoinedOnce s) := inferInstanceAs (Decidable (_ ∧ _))

/-- Only the call of `shutdown` in `~ThreadPool` goes on in its join loop
    while there are workers. -/
def JoinSafe (l : Life α) (a : LifeAct α) : Prop :=
  ∀ k, a = .pool (.join k) → l.phase = .member k ∨ l.pool.workers = []

/-! ### Handles -/

/-- The pool as `join` sees it. -/
structure Handles where
  joinable : List Bool
  calls : List ShutdownCall

/-- The part of a pool that `join` sees. -/
def Pool.handles (s : Pool α) : Handles :=
  { joinable := s.workers.map Worker.joinable, calls := s.shutdowns }

/-- What can happen to the handles. The index is the call of `shutdown` that
    goes on in its join loop. -/
inductive Handles.Move : Option Nat → Handles → Handles → Prop where
  | idle (h : Handles) : Move none h h
  | grow (h : Handles) (n : Nat) :
      Move none h { h with joinable := h.joinable ++ List.replicate n true }
  | call (h : Handles) : Move none h { h with calls := h.calls ++ [.notifying] }
  | notify (h : Handles) (k : Nat) :
      h.calls[k]? = some .notifying →
      Move none h { h with calls := h.calls.set k (.joining 0) }
  | finish (h : Handles) (k next : Nat) :
      h.calls[k]? = some (.joining next) → h.joinable.length ≤ next →
      Move (some k) h { h with calls := h.calls.set k .returned }
  | join (h : Handles) (k next : Nat) :
      h.calls[k]? = some (.joining next) → h.joinable[next]? = some true →
      Move (some k) h
        { joinable := h.joinable.set next false, calls := h.calls.set k (.joining (next + 1)) }
  | throw (h : Handles) (k next : Nat) :
      h.calls[k]? = some (.joining next) → h.joinable[next]? = some false →
      Move (some k) h { h with calls := h.calls.set k .threw }

theorem map_joinable_modify (l : List (Worker α)) (i : Nat) (p : Position α) :
    (l.modify i (fun w => { w with position := p })).map Worker.joinable =
      l.map Worker.joinable := by
  apply List.ext_getElem?
  intro j
  simp only [List.getElem?_map, List.getElem?_modify]
  by_cases hij : i = j
  · simp only [hij, if_true, Option.map_eq_map, Option.map_map, Function.comp_def]
  · simp only [hij, if_false, Option.map_eq_map, id_eq, Option.map_id_fun']

theorem map_joinable_wakePause (l : List (Worker α)) :
    (l.map Worker.wakePause).map Worker.joinable = l.map Worker.joinable := by
  rw [List.map_map]
  refine List.map_congr_left (fun w _ => ?_)
  cases w with
  | mk position joinable => cases position <;> rfl

theorem map_joinable_wakeCondition (l : List (Worker α)) :
    (l.map Worker.wakeCondition).map Worker.joinable = l.map Worker.joinable := by
  rw [List.map_map]
  refine List.map_congr_left (fun w _ => ?_)
  cases w with
  | mk position joinable => cases position <;> rfl

theorem map_joinable_join (l : List (Worker α)) (i : Nat) :
    (l.modify i (fun w => { w with joinable := false })).map Worker.joinable =
      (l.map Worker.joinable).set i false := by
  apply List.ext_getElem?
  intro j
  simp only [List.getElem?_map, List.getElem?_modify, List.getElem?_set, List.length_map]
  by_cases hij : i = j
  · by_cases hlt : j < l.length
    · simp only [hij, if_true, hlt, Option.map_eq_map, List.getElem?_eq_getElem hlt,
        Option.map_some]
    · simp only [hij, if_true, hlt, if_false, Option.map_eq_map,
        List.getElem?_eq_none (Nat.le_of_not_lt hlt), Option.map_none]
  · simp only [hij, if_false, Option.map_eq_map, id_eq, Option.map_id_fun']

/-- A transition that leaves the joinable threads and the calls alone. -/
theorem move_of_handles_eq (s s' : Pool α)
    (hj : s'.workers.map Worker.joinable = s.workers.map Worker.joinable)
    (hc : s'.shutdowns = s.shutdowns) : Handles.Move none s.handles s'.handles := by
  have heq : s'.handles = s.handles := by simp only [Pool.handles, hj, hc]
  rw [heq]
  exact Handles.Move.idle s.handles

/-- The pool moves as its handles do. -/
theorem handles_of_move (s s' : Pool α) (a : Act α) (h : Move s a s') :
    Handles.Move a.joiner s.handles s'.handles := by
  -- A step of the pool touches the handles only where a worker is made or joined.
  cases h with
  | relock _ self _ ha =>
      rw [ha]
      exact move_of_handles_eq s _ rfl rfl
  | refuse | enqueue | pause | resume | waitForCompletion | query | shrink | recheck
    | wakeCompletion | notifyNobody => exact move_of_handles_eq s _ rfl rfl
  | shutdown => exact Handles.Move.call s.handles
  | grow self newSize =>
      have hmove := Handles.Move.grow s.handles (newSize - s.workers.length)
      simp only [Pool.handles, List.map_append, List.map_replicate, Worker.spawned] at hmove ⊢
      exact hmove
  | sleepCondition i | exit i | sleepPause i | dequeue i | sleepAgain i | unpause i | finish i
    | retire i | notifyOne i | wakeCondition i | wakePause i =>
      exact move_of_handles_eq s _ (map_joinable_modify s.workers i _) rfl
  | retireLast i =>
      exact move_of_handles_eq s _
        ((map_joinable_wakePause _).trans (map_joinable_modify s.workers i _)) rfl
  | notifyResume => exact move_of_handles_eq s _ (map_joinable_wakePause s.workers) rfl
  | notifyShutdown k hk =>
      have hmove := Handles.Move.notify s.handles k hk
      simp only [Pool.handles, Pool.notifyAllCondition, map_joinable_wakeCondition] at hmove ⊢
      exact hmove
  | joinReturn k next hk hle =>
      refine Handles.Move.finish s.handles k next hk ?_
      rw [Pool.handles, List.length_map]
      exact hle
  | join k next w hk hw hj =>
      have hmove := Handles.Move.join s.handles k next hk
        (by rw [Pool.handles, List.getElem?_map, hw, Option.map_some, hj])
      simp only [Pool.handles, map_joinable_join] at hmove ⊢
      exact hmove
  | joinThrow k next w hk hw hj =>
      exact Handles.Move.throw s.handles k next hk
        (by rw [Pool.handles, List.getElem?_map, hw, Option.map_some, hj])

/-! ### What the owner does -/

/-- The handles after the critical section of `shutdown`. -/
def Handles.shutdown (h : Handles) : Handles := { h with calls := h.calls ++ [.notifying] }

/-- What a step in the life of a pool does to the handles and to the phase. -/
inductive Handles.LifeMove : Owner → LifeAct α → Handles → Phase → Handles → Phase → Prop where
  | pool (owner : Owner) (a : Act α) (h h' : Handles) (p : Phase) :
      Handles.Move a.joiner h h' → LifeMove owner (.pool a) h p h' p
  /-- The main thread, `start`, and a `stop` that is at its join. -/
  | idle (owner : Owner) (a : LifeAct α) (h : Handles) (p : Phase) : LifeMove owner a h p h p
  | stopJoined (owner : Owner) (i : Nat) (h : Handles) (p : Phase) :
      LifeMove owner (.stopJoined i) h p h.shutdown p
  | destroyServer (self : Thread) (h : Handles) :
      LifeMove .server (.destroy self) h .alive h (.stopping self)
  | destroyPool (self : Thread) (h : Handles) :
      LifeMove .pool (.destroy self) h .alive h.shutdown (.member h.calls.length)
  | destroyJoined (owner : Owner) (self : Thread) (h : Handles) :
      LifeMove owner .destroyJoined h (.stopping self) h.shutdown (.body h.calls.length)
  | destroyMember (owner : Owner) (self : Thread) (h : Handles) (k : Nat) :
      h.calls[k]? = some .returned →
      LifeMove owner (.destroyMember self) h (.body k) h.shutdown (.member h.calls.length)

theorem shutdownPool_some (self : Thread) (l l' : Life α) (h : shutdownPool self l = some l') :
    l'.pool.handles = l.pool.handles.shutdown ∧ l'.phase = l.phase ∧ l'.owner = l.owner := by
  simp only [shutdownPool] at h
  split at h
  · rename_i t hs
    rw [Option.some.injEq] at h
    rw [← h, (shutdown_ok self l.pool t hs).2]
    exact ⟨rfl, rfl, rfl⟩
  · simp only [reduceCtorEq] at h

/-- The join of `mainThread` touches neither the pool nor the phase. -/
theorem joinMainThread_some (l l' : Life α) (h : joinMainThread l = some l') :
    l'.pool = l.pool ∧ l'.phase = l.phase ∧ l'.owner = l.owner := by
  unfold joinMainThread at h
  split at h
  · rw [Option.some.injEq] at h
    rw [← h]
    exact ⟨rfl, rfl, rfl⟩
  · rw [Option.some.injEq] at h
    rw [← h]
    exact ⟨rfl, rfl, rfl⟩
  · simp only [reduceCtorEq] at h
  · simp only [reduceCtorEq] at h

/-- Nor does the main thread. -/
theorem mainThread_some (l l' : Life α) (h : runLoop l = some l' ∨ epollEvent l = some l') :
    l'.pool = l.pool ∧ l'.phase = l.phase ∧ l'.owner = l.owner := by
  unfold runLoop epollEvent at h
  rcases h with h | h
  · split at h
    · rw [Option.some.injEq] at h
      rw [← h]
      exact ⟨rfl, rfl, rfl⟩
    · simp only [reduceCtorEq] at h
  · split at h
    · rw [Option.some.injEq] at h
      rw [← h]
      exact ⟨rfl, rfl, rfl⟩
    · simp only [reduceCtorEq] at h

/-- A life moves as its handles do, and only before its end. -/
theorem lifeMove_of_step (l l' : Life α) (a : LifeAct α) (h : l.step a = some l') :
    l.ended = false ∧ l'.owner = l.owner ∧
      Handles.LifeMove l.owner a l.pool.handles l.phase l'.pool.handles l'.phase := by
  -- The main thread's own steps leave the handles of the workers.
  have hidle : l'.pool = l.pool ∧ l'.phase = l.phase ∧ l'.owner = l.owner → l'.owner = l.owner ∧
      Handles.LifeMove l.owner a l.pool.handles l.phase l'.pool.handles l'.phase := by
    rintro ⟨hpool, hphase, howner⟩
    rw [hpool, hphase]
    exact ⟨howner, Handles.LifeMove.idle _ a _ _⟩
  simp only [Life.step] at h
  split at h
  · simp only [reduceCtorEq] at h
  · rename_i hend
    refine ⟨Bool.eq_false_iff.mpr hend, ?_⟩
    cases a with
    | pool a =>
        rcases Option.map_eq_some_iff.mp h with ⟨p, hp, rfl⟩
        exact ⟨rfl, Handles.LifeMove.pool _ a _ _ _
          (handles_of_move l.pool p a (move_of_step l.pool p a hp))⟩
    | start =>
        simp only [start] at h
        split at h
        · split at h
          · rw [Option.some.injEq] at h
            rw [← h]
            exact ⟨rfl, Handles.LifeMove.idle _ _ _ _⟩
          · simp only [reduceCtorEq] at h
        · simp only [reduceCtorEq] at h
    | runLoop => exact hidle (mainThread_some l l' (Or.inl h))
    | epollEvent => exact hidle (mainThread_some l l' (Or.inr h))
    | stop self =>
        simp only [stop] at h
        split at h
        · rw [Option.some.injEq] at h
          rw [← h]
          exact ⟨rfl, Handles.LifeMove.idle _ _ _ _⟩
        · simp only [reduceCtorEq] at h
    | stopJoined i =>
        simp only [stopJoined] at h
        split at h
        · rename_i self _
          rcases Option.bind_eq_some_iff.mp h with ⟨m, hm, hshut⟩
          rcases joinMainThread_some l m hm with ⟨hpool, hphase, howner⟩
          rcases shutdownPool_some self _ l' hshut with ⟨hh, hp, ho⟩
          refine ⟨ho.trans howner, ?_⟩
          rw [hh, hp]
          simp only [hpool, hphase]
          exact Handles.LifeMove.stopJoined _ i _ _
        · simp only [reduceCtorEq] at h
    | destroy self =>
        simp only [destroy] at h
        split at h
        · rename_i halive
          split at h
          · rename_i howner
            rw [Option.some.injEq] at h
            rw [← h, halive, howner]
            exact ⟨howner.symm ▸ rfl, Handles.LifeMove.destroyServer self _⟩
          · rename_i howner
            rcases Option.map_eq_some_iff.mp h with ⟨m, hm, rfl⟩
            rcases shutdownPool_some self _ m hm with ⟨hh, _, ho⟩
            refine ⟨ho, ?_⟩
            rw [halive, howner]
            simp only [hh]
            exact Handles.LifeMove.destroyPool self l.pool.handles
        · simp only [reduceCtorEq] at h
    | destroyJoined =>
        simp only [destroyJoined] at h
        split at h
        · rename_i self hstopping
          rcases Option.bind_eq_some_iff.mp h with ⟨m, hm, hshut⟩
          rcases joinMainThread_some l m hm with ⟨hpool, _, howner⟩
          rcases Option.map_eq_some_iff.mp hshut with ⟨m', hm', rfl⟩
          rcases shutdownPool_some self _ m' hm' with ⟨hh, _, ho⟩
          refine ⟨ho.trans howner, ?_⟩
          rw [hstopping]
          simp only [hh, hpool]
          exact Handles.LifeMove.destroyJoined _ self l.pool.handles
        · simp only [reduceCtorEq] at h
    | destroyMember self =>
        simp only [destroyMember] at h
        split at h
        · rename_i k hbody
          split at h
          · rename_i hk
            rcases Option.map_eq_some_iff.mp h with ⟨m, hm, rfl⟩
            rcases shutdownPool_some self _ m hm with ⟨hh, _, ho⟩
            refine ⟨ho, ?_⟩
            rw [hbody]
            simp only [hh]
            exact Handles.LifeMove.destroyMember _ self l.pool.handles k hk
          · simp only [reduceCtorEq] at h
        · simp only [reduceCtorEq] at h

/-! ### Lives in which only `~ThreadPool` joins -/

/-- The last call of `shutdown`, if it has been made. -/
def Handles.last (h : Handles) : Phase → Option ShutdownCall
  | .member k => h.calls[k]?
  | _ => none

/-- The first `n` threads are joined, and no others. -/
def JoinedUpTo (joinable : List Bool) (n : Nat) : Prop :=
  n ≤ joinable.length ∧ ∀ i b, joinable[i]? = some b → (b = true ↔ n ≤ i)

/-- The joined threads are those a call has joined. -/
def JoinedBy (joinable : List Bool) : Option ShutdownCall → Prop
  | some (.joining n) => JoinedUpTo joinable n
  | some .returned => JoinedUpTo joinable joinable.length
  | _ => JoinedUpTo joinable 0

/-- All joins so far are those of the last call, and none threw. -/
structure Tidy (h : Handles) (p : Phase) : Prop where
  threw : .threw ∉ h.calls
  joined : JoinedBy h.joinable (h.last p)
  others : ∀ k n, p ≠ .member k → h.calls[k]? = some (.joining n) → n = 0
  member : ∀ k, p = .member k → k < h.calls.length

theorem joinedUpTo_grow (js : List Bool) (n m : Nat) (h : JoinedUpTo js n) :
    JoinedUpTo (js ++ List.replicate m true) n := by
  refine ⟨?_, fun i b hb => ?_⟩
  · rw [List.length_append]
    exact Nat.le_add_right_of_le h.1
  · by_cases hi : i < js.length
    · rw [List.getElem?_append_left hi] at hb
      exact h.2 i b hb
    · rw [List.getElem?_append_right (Nat.le_of_not_lt hi)] at hb
      rw [List.eq_of_mem_replicate (List.mem_of_getElem? hb)]
      exact iff_of_true rfl (h.1.trans (Nat.le_of_not_lt hi))

theorem joinedUpTo_join (js : List Bool) (n : Nat) (h : JoinedUpTo js n)
    (hn : js[n]? = some true) : JoinedUpTo (js.set n false) (n + 1) := by
  have hlt := (List.getElem?_eq_some_iff.mp hn).1
  refine ⟨by rw [List.length_set]; exact hlt, fun i b hb => ?_⟩
  by_cases hi : n = i
  · -- The thread joined just now.
    rw [← hi, List.getElem?_set_self hlt, Option.some.injEq] at hb
    rw [← hb, ← hi]
    exact iff_of_false Bool.false_ne_true (Nat.not_succ_le_self n)
  · rw [List.getElem?_set_ne hi] at hb
    rw [h.2 i b hb]
    omega

theorem joinedUpTo_length (js : List Bool) (n : Nat) (h : JoinedUpTo js n)
    (hle : js.length ≤ n) : JoinedUpTo js js.length := by
  rw [Nat.le_antisymm hle h.1]
  exact h

theorem joinedBy_grow (js : List Bool) (m : Nat) (c : Option ShutdownCall)
    (hc : c ≠ some .returned) (h : JoinedBy js c) :
    JoinedBy (js ++ List.replicate m true) c := by
  cases c with
  | none => exact joinedUpTo_grow js 0 m h
  | some c =>
      cases c with
      | notifying => exact joinedUpTo_grow js 0 m h
      | joining n => exact joinedUpTo_grow js n m h
      | returned => exact absurd rfl hc
      | threw => exact joinedUpTo_grow js 0 m h

theorem last_set_self (h : Handles) (k : Nat) (c d : ShutdownCall) (js : List Bool)
    (hk : h.calls[k]? = some d) :
    Handles.last { joinable := js, calls := h.calls.set k c } (.member k) = some c := by
  simp only [Handles.last]
  exact List.getElem?_set_self (List.getElem?_eq_some_iff.mp hk).1

theorem last_set_ne (h : Handles) (k : Nat) (c : ShutdownCall) (js : List Bool) (p : Phase)
    (hp : p ≠ .member k) :
    Handles.last { joinable := js, calls := h.calls.set k c } p = h.last p := by
  cases p with
  | alive | stopping | body => rfl
  | member j =>
      simp only [Handles.last]
      exact List.getElem?_set_ne (fun hjk => hp (by rw [hjk]))

/-- One call moves on without throwing, and what it has joined fits. -/
theorem set_tidy (h : Handles) (k : Nat) (c d : ShutdownCall) (js : List Bool) (p : Phase)
    (ht : Tidy h p) (hk : h.calls[k]? = some d) (hc : c ≠ .threw)
    (hself : p = .member k → JoinedBy js (some c))
    (hother : p ≠ .member k → JoinedBy js (h.last p) ∧ ∀ n, c = .joining n → n = 0) :
    Tidy { joinable := js, calls := h.calls.set k c } p := by
  refine ⟨fun hmem => ?_, ?_, fun j n hj hn => ?_, fun j hj => ?_⟩
  · rcases List.mem_or_eq_of_mem_set hmem with hold | hnew
    · exact ht.threw hold
    · exact hc hnew.symm
  -- What is joined depends on whether the call that moves is the last one.
  · by_cases hp : p = .member k
    · rw [hp, last_set_self h k c d js hk]
      exact hself hp
    · rw [last_set_ne h k c js p hp]
      exact (hother hp).1
  · by_cases hjk : j = k
    · rw [hjk] at hj hn
      rw [List.getElem?_set_self (List.getElem?_eq_some_iff.mp hk).1, Option.some.injEq] at hn
      exact (hother hj).2 n hn
    · rw [List.getElem?_set_ne (fun he => hjk he.symm)] at hn
      exact ht.others j n hj hn
  · rw [List.length_set]
    exact ht.member j hj

theorem shutdown_calls (h : Handles) (k : Nat) (c : ShutdownCall) (hc : c ≠ .notifying)
    (hk : h.shutdown.calls[k]? = some c) : h.calls[k]? = some c := by
  simp only [Handles.shutdown] at hk
  rcases Nat.lt_trichotomy k h.calls.length with hlt | heq | hgt
  · rw [List.getElem?_append_left hlt] at hk
    exact hk
  · rw [heq, List.getElem?_concat_length, Option.some.injEq] at hk
    exact absurd hk.symm hc
  · rw [List.getElem?_eq_none (by rw [List.length_append, List.length_singleton]; omega)] at hk
    exact absurd hk (by simp only [reduceCtorEq, not_false_eq_true])

theorem not_threw_shutdown (h : Handles) (ht : .threw ∉ h.calls) : .threw ∉ h.shutdown.calls := by
  intro hmem
  rcases List.mem_append.mp hmem with hold | hnew
  · exact ht hold
  · simp only [List.mem_singleton, reduceCtorEq] at hnew

/-- A call that is not the last one, once it is made. -/
theorem shutdown_tidy (h : Handles) (p : Phase) (ht : Tidy h p) : Tidy h.shutdown p := by
  -- The new call is put behind the others, so the last one stays where it is.
  have hlt : ∀ k, p = .member k → h.shutdown.last p = h.last p := by
    intro k hk
    rw [hk]
    exact List.getElem?_append_left (ht.member k hk)
  refine ⟨not_threw_shutdown h ht.threw, ?_,
    fun k n hk hn => ht.others k n hk (shutdown_calls h k _ nofun hn), fun k hk => ?_⟩
  · have hj := ht.joined
    cases p with
    | alive | stopping | body => exact hj
    | member k =>
        rw [hlt k rfl]
        exact hj
  · have hk' := ht.member k hk
    simp only [Handles.shutdown, List.length_append, List.length_singleton]
    omega

/-- Before the member is destroyed there is no last call. -/
theorem last_none (h : Handles) (p : Phase) (hp : ∀ k, p ≠ .member k) : h.last p = none := by
  cases p with
  | alive | stopping | body => rfl
  | member k => exact absurd rfl (hp k)

/-- The last call, once it is made. -/
theorem last_tidy (h : Handles) (p : Phase) (ht : Tidy h p) (hp : ∀ k, p ≠ .member k) :
    Tidy h.shutdown (.member h.calls.length) := by
  have hj := ht.joined
  rw [last_none h p hp] at hj
  refine ⟨not_threw_shutdown h ht.threw, ?_,
    fun k n _ hn => ht.others k n (hp k) (shutdown_calls h k _ nofun hn), fun k hk => ?_⟩
  · have hlast : h.shutdown.last (.member h.calls.length) = some .notifying :=
      List.getElem?_concat_length
    rw [hlast]
    exact hj
  · rw [Phase.member.injEq] at hk
    simp only [Handles.shutdown, List.length_append, List.length_singleton]
    omega

/-- A phase without a last call is as good as another. -/
theorem phase_tidy (h : Handles) (p q : Phase) (ht : Tidy h p) (hp : ∀ k, p ≠ .member k)
    (hq : ∀ k, q ≠ .member k) : Tidy h q := by
  refine ⟨ht.threw, ?_, fun k n _ hn => ht.others k n (hp k) hn, fun k hk => absurd hk (hq k)⟩
  have hj := ht.joined
  rw [last_none h p hp] at hj
  rw [last_none h q hq]
  exact hj

/-- A safe transition of the handles, before the last call has returned. -/
theorem move_tidy (h h' : Handles) (o : Option Nat) (p : Phase) (hm : Handles.Move o h h')
    (ht : Tidy h p) (hsafe : ∀ k, o = some k → p = .member k ∨ h.joinable = [])
    (hlast : h.last p ≠ some .returned) : Tidy h' p := by
  have hjoined : ∀ k c, p = .member k → h.calls[k]? = some c → JoinedBy h.joinable (some c) := by
    intro k c hp hk
    have hj := ht.joined
    rw [hp, Handles.last, hk] at hj
    exact hj
  cases hm with
  | idle => exact ht
  | grow _ n => exact ⟨ht.threw, joinedBy_grow _ n _ hlast ht.joined, ht.others, ht.member⟩
  | call => exact shutdown_tidy h p ht
  | notify _ k hk =>
      exact set_tidy h k _ _ _ p ht hk nofun (fun hp => hjoined k .notifying hp hk)
        (fun _ => ⟨ht.joined, fun n hn => by rw [ShutdownCall.joining.injEq] at hn; exact hn.symm⟩)
  | finish _ k next hk hle =>
      exact set_tidy h k _ _ _ p ht hk nofun
        (fun hp => joinedUpTo_length _ next (hjoined k _ hp hk) hle)
        (fun _ => ⟨ht.joined, nofun⟩)
  | join _ k next hk hj =>
      -- A call that joins is the last one: for the others there is nobody.
      have hp : p = .member k := by
        rcases hsafe k rfl with hp | hnil
        · exact hp
        · rw [hnil] at hj
          exact absurd hj (by simp only [List.getElem?_nil, reduceCtorEq, not_false_eq_true])
      exact set_tidy h k _ _ _ p ht hk nofun
        (fun _ => joinedUpTo_join _ next (hjoined k _ hp hk) hj) (fun hne => absurd hp hne)
  | throw _ k next hk hj =>
      rcases hsafe k rfl with hp | hnil
      · -- The last call has not come to a thread that is joined.
        have hfalse := ((hjoined k _ hp hk).2 next false hj).mpr (Nat.le_refl next)
        exact absurd hfalse Bool.false_ne_true
      · rw [hnil] at hj
        exact absurd hj (by simp only [List.getElem?_nil, reduceCtorEq, not_false_eq_true])

/-- The state of a life whose last call has returned is final. -/
theorem last_ne_returned (l : Life α) (h : l.ended = false) :
    l.pool.handles.last l.phase ≠ some .returned := by
  intro hlast
  cases hp : l.phase with
  | alive | stopping | body =>
      rw [hp] at hlast
      simp only [Handles.last, reduceCtorEq] at hlast
  | member k =>
      rw [hp] at hlast
      simp only [Handles.last, Pool.handles] at hlast
      simp only [Life.ended, hp, hlast, beq_self_eq_true, Bool.or_true, Bool.true_eq_false] at h

/-- A safe step keeps a life tidy. -/
theorem step_tidy (l l' : Life α) (a : LifeAct α) (ht : Tidy l.pool.handles l.phase)
    (ha : JoinSafe l a) (h : l.step a = some l') : Tidy l'.pool.handles l'.phase := by
  rcases lifeMove_of_step l l' a h with ⟨hend, _, hmove⟩
  have hlast := last_ne_returned l hend
  -- The indices of the move have to be variables before it can be taken apart.
  generalize hh : l.pool.handles = hl at hmove ht hlast
  generalize hp : l.phase = p at hmove ht hlast
  generalize l'.pool.handles = hl' at hmove
  generalize l'.phase = p' at hmove
  generalize l.owner = owner at hmove
  cases hmove with
  | pool _ b _ _ _ hm =>
      refine move_tidy hl hl' b.joiner p hm ht (fun k hk => ?_) hlast
      cases b with
      | join j =>
          rcases ha j rfl with hphase | hnil
          · simp only [Act.joiner, Option.some.injEq] at hk
            exact Or.inl (by rw [← hp, hphase, hk])
          · refine Or.inr ?_
            rw [← hh, Pool.handles, hnil]
            rfl
      | _ => simp only [Act.joiner, reduceCtorEq] at hk
  | idle => exact ht
  | stopJoined => exact shutdown_tidy hl p ht
  | destroyServer => exact phase_tidy _ _ _ ht nofun nofun
  | destroyJoined => exact phase_tidy _ _ _ (shutdown_tidy hl _ ht) nofun nofun
  | destroyPool self _ => exact last_tidy hl _ ht nofun
  | destroyMember _ self _ k hk => exact last_tidy hl _ ht nofun

theorem construct_tidy (owner : Owner) (threads : Nat) :
    Tidy (construct α owner threads).pool.handles (construct α owner threads).phase := by
  refine ⟨List.not_mem_nil, ⟨Nat.zero_le _, fun i b hb => iff_of_true ?_ (Nat.zero_le i)⟩,
    fun k n _ hn => ?_, nofun⟩
  · have hmem := List.mem_of_getElem? hb
    simp only [construct, create, Pool.handles, List.map_replicate] at hmem
    exact List.eq_of_mem_replicate hmem
  · simp only [construct, create, Pool.handles, List.getElem?_nil, reduceCtorEq] at hn

theorem reachesBy_tidy (owner : Owner) (threads : Nat) (l : Life α)
    (h : (lifeMachine α).ReachesBy JoinSafe (construct α owner threads) l) :
    Tidy l.pool.handles l.phase :=
  Machine.invariant (I := fun l : Life α => Tidy l.pool.handles l.phase) h
    (construct_tidy owner threads) (fun t a u ht ha hstep => step_tidy t u a ht ha hstep)

/-- A tidy life ends with every thread joined once. -/
theorem joinedOnce_of_tidy (l : Life α) (ht : Tidy l.pool.handles l.phase)
    (hend : l.ended = true) : JoinedOnce l.pool := by
  -- A call that threw would show among the shutdowns.
  have hno : ∀ k : Nat, l.pool.shutdowns[k]? ≠ some ShutdownCall.threw :=
    fun k hk => ht.threw (List.mem_of_getElem? hk)
  refine ⟨ht.threw, fun w hw => ?_⟩
  cases hp : l.phase with
  | alive | stopping => simp only [Life.ended, hp, Bool.false_eq_true] at hend
  | body k => simp only [Life.ended, hp, beq_iff_eq] at hend; exact absurd hend (hno k)
  | member k =>
      simp only [Life.ended, hp, Bool.or_eq_true, beq_iff_eq] at hend
      have hret := hend.resolve_left (hno k)
      have hj := ht.joined
      rw [hp, Handles.last, Pool.handles, hret] at hj
      rcases List.getElem?_of_mem (List.mem_map_of_mem (f := Worker.joinable) hw) with ⟨i, hi⟩
      have hlt := (List.getElem?_eq_some_iff.mp hi).1
      cases hb : w.joinable with
      | false => rfl
      | true =>
          rw [hb] at hi
          exact absurd ((hj.2 i true hi).mp rfl) (Nat.not_le_of_lt hlt)

/-! ### Lives in which another call joins -/

/-- A `join` threw, or the first worker is joined and the last call has still
    to come to it. -/
def Spoiled (h : Handles) (p : Phase) : Prop :=
  .threw ∈ h.calls ∨ (h.joinable[0]? = some false ∧ ∀ k, p = .member k →
    h.calls[k]? = some .notifying ∨ h.calls[k]? = some (.joining 0))

/-- In a tidy life, a call that is not the last and goes on in its join loop
    over some worker spoils it. -/
theorem spoiled_of_move (h h' : Handles) (k : Nat) (p : Phase) (ht : Tidy h p)
    (hm : Handles.Move (some k) h h') (hp : p ≠ .member k) (hne : h.joinable ≠ []) :
    Spoiled h' p := by
  cases hm with
  | finish _ _ next hk hle =>
      -- A call that is not the last is at the first worker, and there is one.
      rw [ht.others k next hp hk] at hle
      exact absurd (List.length_eq_zero_iff.mp (Nat.le_zero.mp hle)) hne
  | join _ _ next hk hj =>
      have hzero := ht.others k next hp hk
      rw [hzero] at hj
      refine Or.inr ⟨?_, fun j hj' => ?_⟩
      · rw [hzero]
        exact List.getElem?_set_self (List.getElem?_eq_some_iff.mp hj).1
      · -- The last call has joined no one, or the first worker would not be joinable.
        have hjk : k ≠ j := fun he => hp (by rw [hj', he])
        have hlt := ht.member j hj'
        have hjoined := ht.joined
        rw [hj', Handles.last, List.getElem?_eq_getElem hlt] at hjoined
        rw [List.getElem?_set_ne hjk, List.getElem?_eq_getElem hlt]
        cases hc : h.calls[j] with
        | notifying => exact Or.inl rfl
        | joining n =>
            rw [hc] at hjoined
            have hn := (hjoined.2 0 true hj).mp rfl
            rw [Nat.le_zero.mp hn]
            exact Or.inr rfl
        | returned =>
            rw [hc] at hjoined
            have hn := (hjoined.2 0 true hj).mp rfl
            exact absurd (List.length_eq_zero_iff.mp (Nat.le_zero.mp hn)) hne
        | threw => exact absurd (by rw [← hc]; exact List.getElem_mem hlt) ht.threw
  | throw _ _ next hk hj =>
      exact Or.inl (List.mem_set (List.getElem?_eq_some_iff.mp hk).1 _)

theorem next_zero {c : Option ShutdownCall} {next : Nat} (h : c = some (.joining next))
    (hc : c = some .notifying ∨ c = some (.joining 0)) : next = 0 := by
  rcases hc with hc | hc
  · rw [h] at hc
    simp only [Option.some.injEq, reduceCtorEq] at hc
  · rw [h, Option.some.injEq, ShutdownCall.joining.injEq] at hc
    exact hc

/-- Every transition of the handles keeps a life spoiled. -/
theorem move_spoiled (h h' : Handles) (o : Option Nat) (p : Phase) (hm : Handles.Move o h h')
    (hs : Spoiled h p) : Spoiled h' p := by
  -- The first worker is joined, and a call that still waits at it stays behind it.
  cases hm with
  | idle => exact hs
  | grow _ n =>
      rcases hs with hthrew | ⟨hfirst, hlast⟩
      · exact Or.inl hthrew
      · refine Or.inr ⟨?_, hlast⟩
        rw [List.getElem?_append_left (List.getElem?_eq_some_iff.mp hfirst).1]
        exact hfirst
  | call =>
      rcases hs with hthrew | ⟨hfirst, hlast⟩
      · exact Or.inl (List.mem_append_left _ hthrew)
      · refine Or.inr ⟨hfirst, fun k hp => ?_⟩
        rcases hlast k hp with hk | hk <;>
          rw [List.getElem?_append_left (List.getElem?_eq_some_iff.mp hk).1, hk]
        · exact Or.inl rfl
        · exact Or.inr rfl
  | notify _ k hk =>
      rcases hs with hthrew | ⟨hfirst, hlast⟩
      · exact Or.inl (ListModify.mem_set_of_ne hk hthrew nofun)
      · refine Or.inr ⟨hfirst, fun j hp => ?_⟩
        by_cases hjk : k = j
        · rw [← hjk]
          exact Or.inr (List.getElem?_set_self (List.getElem?_eq_some_iff.mp hk).1)
        · rw [List.getElem?_set_ne hjk]
          exact hlast j hp
  | finish _ k next hk hle =>
      rcases hs with hthrew | ⟨hfirst, hlast⟩
      · exact Or.inl (ListModify.mem_set_of_ne hk hthrew nofun)
      · refine Or.inr ⟨hfirst, fun j hp => ?_⟩
        by_cases hjk : k = j
        · -- The last call is at the first worker, so it cannot return.
          have hlt := (List.getElem?_eq_some_iff.mp hfirst).1
          have hzero := next_zero hk (by rw [hjk]; exact hlast j hp)
          omega
        · rw [List.getElem?_set_ne hjk]
          exact hlast j hp
  | join _ k next hk hj =>
      rcases hs with hthrew | ⟨hfirst, hlast⟩
      · exact Or.inl (ListModify.mem_set_of_ne hk hthrew nofun)
      · have hne : next ≠ 0 := by
          intro hzero
          rw [hzero, hfirst] at hj
          simp only [Option.some.injEq, Bool.false_eq_true] at hj
        refine Or.inr ⟨by rw [List.getElem?_set_ne hne]; exact hfirst, fun j hp => ?_⟩
        by_cases hjk : k = j
        · -- The last call is at the first worker, which is not joinable.
          exact absurd (next_zero hk (by rw [hjk]; exact hlast j hp)) hne
        · rw [List.getElem?_set_ne hjk]
          exact hlast j hp
  | throw _ k next hk => exact Or.inl (List.mem_set (List.getElem?_eq_some_iff.mp hk).1 _)

/-- So does a call of `shutdown`, be it the last one. -/
theorem shutdown_spoiled (h : Handles) (p q : Phase) (hs : Spoiled h p)
    (hq : ∀ k, q = .member k → k = h.calls.length) : Spoiled h.shutdown q := by
  rcases hs with hthrew | ⟨hfirst, _⟩
  · exact Or.inl (List.mem_append_left _ hthrew)
  · refine Or.inr ⟨hfirst, fun k hk => Or.inl ?_⟩
    rw [hq k hk]
    exact List.getElem?_concat_length

theorem step_spoiled (l l' : Life α) (a : LifeAct α) (hs : Spoiled l.pool.handles l.phase)
    (h : l.step a = some l') : Spoiled l'.pool.handles l'.phase := by
  rcases lifeMove_of_step l l' a h with ⟨_, _, hmove⟩
  generalize l.pool.handles = hl at hmove hs
  generalize l.phase = p at hmove hs
  generalize l'.pool.handles = hl' at hmove
  generalize l'.phase = p' at hmove
  generalize l.owner = owner at hmove
  cases hmove with
  | pool _ b _ _ _ hm => exact move_spoiled hl hl' b.joiner p hm hs
  | idle => exact hs
  | stopJoined => exact move_spoiled hl _ none p (Handles.Move.call hl) hs
  | destroyServer => exact hs.imp_right (fun hfirst => ⟨hfirst.1, nofun⟩)
  | destroyJoined => exact shutdown_spoiled hl _ _ hs nofun
  | destroyPool self _ =>
      exact shutdown_spoiled hl _ _ hs (fun k hk => (Phase.member.inj hk).symm)
  | destroyMember _ self _ k hk =>
      exact shutdown_spoiled hl _ _ hs (fun k hk => (Phase.member.inj hk).symm)

/-- The first unsafe step spoils the life. -/
theorem spoiled_of_unsafe (l l' : Life α) (a : LifeAct α) (ht : Tidy l.pool.handles l.phase)
    (ha : ¬ JoinSafe l a) (h : l.step a = some l') : Spoiled l'.pool.handles l'.phase := by
  simp only [JoinSafe, not_forall, not_or] at ha
  rcases ha with ⟨k, rfl, hp, hne⟩
  simp only [Life.step] at h
  split at h
  · simp only [reduceCtorEq] at h
  · rcases Option.map_eq_some_iff.mp h with ⟨p, hstep, rfl⟩
    refine spoiled_of_move l.pool.handles p.handles k l.phase ht
      (handles_of_move l.pool p (.join k) (move_of_step l.pool p (.join k) hstep)) hp ?_
    exact fun hnil => hne (List.map_eq_nil_iff.mp hnil)

/-- A spoiled life ends with a `join` that threw. -/
theorem not_joinedOnce_of_spoiled (l : Life α) (hs : Spoiled l.pool.handles l.phase)
    (hend : l.ended = true) : ¬ JoinedOnce l.pool := by
  rintro ⟨hthrew, _⟩
  have hno : ∀ k : Nat, l.pool.shutdowns[k]? ≠ some ShutdownCall.threw :=
    fun k hk => hthrew (List.mem_of_getElem? hk)
  rcases hs.resolve_left hthrew with ⟨_, hlast⟩
  cases hp : l.phase with
  | alive | stopping => simp only [Life.ended, hp, Bool.false_eq_true] at hend
  | body k => simp only [Life.ended, hp, beq_iff_eq] at hend; exact absurd hend (hno k)
  | member k =>
      simp only [Life.ended, hp, Bool.or_eq_true, beq_iff_eq] at hend
      have hret := hend.resolve_left (hno k)
      rcases hlast k hp with hk | hk
      · exact absurd (hret.symm.trans hk) nofun
      · exact absurd (hret.symm.trans hk) nofun

/-! ### Servers -/

/-- A server with workers whose destructor waits for a `join` of its body. -/
structure Waiting (h : Handles) (p : Phase) : Prop where
  workers : h.joinable ≠ []
  member : ∀ k, p ≠ .member k
  body : ∀ k, p = .body k → h.calls[k]? = some .notifying ∨ h.calls[k]? = some (.joining 0)

/-- A safe step of a server with workers cannot take its destruction beyond
    the first `shutdown`. -/
theorem step_waiting (l l' : Life α) (a : LifeAct α) (ho : l.owner = .server)
    (hw : Waiting l.pool.handles l.phase) (ha : JoinSafe l a) (h : l.step a = some l') :
    l'.owner = .server ∧ Waiting l'.pool.handles l'.phase := by
  rcases lifeMove_of_step l l' a h with ⟨_, howner, hmove⟩
  refine ⟨howner.trans ho, ?_⟩
  have hne : l.pool.workers ≠ [] := fun hnil => hw.workers (List.map_eq_nil_iff.mpr hnil)
  have hsafe : ∀ k, a ≠ .pool (.join k) :=
    fun k hk => (ha k hk).elim (hw.member k) hne
  rw [ho] at hmove
  generalize l.pool.handles = hl at hmove hw
  generalize l.phase = p at hmove hw
  generalize l'.pool.handles = hl' at hmove
  generalize l'.phase = p' at hmove
  have hcall : ∀ q : Phase, (∀ k, q = .body k → p = .body k ∨ k = hl.calls.length) →
      (∀ k, q ≠ .member k) → Waiting hl.shutdown q := by
    intro q hq hqm
    refine ⟨hw.workers, hqm, fun k hk => ?_⟩
    rcases hq k hk with hp | hlen
    · rcases hw.body k hp with hc | hc <;>
        simp only [Handles.shutdown,
          List.getElem?_append_left (List.getElem?_eq_some_iff.mp hc).1, hc]
      · exact Or.inl trivial
      · exact Or.inr trivial
    · rw [hlen]
      exact Or.inl List.getElem?_concat_length
  cases hmove with
  | pool _ b _ _ _ hm =>
      generalize hb : b.joiner = o at hm
      cases hm with
      | idle => exact hw
      | grow _ n =>
          exact ⟨fun hnil => hw.workers (List.append_eq_nil_iff.mp hnil).1, hw.member, hw.body⟩
      | call => exact hcall p (fun k hk => Or.inl hk) hw.member
      | notify _ j hj =>
          refine ⟨hw.workers, hw.member, fun k hk => ?_⟩
          by_cases hjk : j = k
          · rw [← hjk]
            exact Or.inr (List.getElem?_set_self (List.getElem?_eq_some_iff.mp hj).1)
          · rw [List.getElem?_set_ne hjk]
            exact hw.body k hk
      | finish _ k | join _ k | throw _ k =>
          cases b with
          | join j => exact absurd rfl (hsafe j)
          | _ => simp only [Act.joiner, reduceCtorEq] at hb
  | idle => exact hw
  | stopJoined => exact hcall p (fun k hk => Or.inl hk) hw.member
  | destroyServer => exact ⟨hw.workers, nofun, nofun⟩
  | destroyJoined =>
      exact hcall _ (fun k hk => Or.inr (Phase.body.inj hk).symm) nofun
  | destroyMember _ self _ k hk =>
      -- The call of the body has not returned, so the member is not reached.
      rcases hw.body k rfl with hc | hc
      · exact absurd (hk.symm.trans hc) nofun
      · exact absurd (hk.symm.trans hc) nofun

/-- A server with workers is never destroyed by safe steps. -/
theorem not_ended_of_waiting (l : Life α) (hw : Waiting l.pool.handles l.phase) :
    l.ended = false := by
  cases hp : l.phase with
  | alive | stopping => simp only [Life.ended, hp]
  | body k =>
      have hbody : l.pool.shutdowns[k]? = some .notifying ∨
          l.pool.shutdowns[k]? = some (.joining 0) := hw.body k hp
      rcases hbody with hc | hc <;> simp only [Life.ended, hp, hc] <;> rfl
  | member k => exact absurd hp (hw.member k)

theorem construct_waiting (threads : Nat) (hpos : 0 < threads) :
    Waiting (construct α .server threads).pool.handles (construct α .server threads).phase := by
  refine ⟨fun hnil => ?_, nofun, nofun⟩
  have hlen := congrArg List.length hnil
  simp only [construct, create, Pool.handles, List.map_replicate, List.length_replicate,
    List.length_nil] at hlen
  omega

theorem reachesBy_waiting (threads : Nat) (hpos : 0 < threads) (l : Life α)
    (h : (lifeMachine α).ReachesBy JoinSafe (construct α .server threads) l) :
    Waiting l.pool.handles l.phase :=
  (Machine.invariant
    (I := fun l : Life α => l.owner = .server ∧ Waiting l.pool.handles l.phase) h
    ⟨rfl, construct_waiting threads hpos⟩
    (fun t a u ht ha hstep => step_waiting t u a ht.1 ht.2 ha hstep)).2

end ThreadPool

end EpollServer
