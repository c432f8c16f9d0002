import EpollServer.Core.Epoll

/-!
# Lost Edges

When a client's request is left unread because its edge went to another
thread.

A pass that goes on ends with a modification to `EPOLLIN` and reads nothing
after it (`acts_getLast?`). The modification looks at the socket again, so a
handler that comes back to `epoll_wait` finds an edge if there are bytes left
(`Armed`), and every byte that arrives from then on brings one. So a handler
that gets every edge of its socket never waits over unread bytes.

Nothing makes sure that it gets them. `epoll_wait` on the shared descriptor
hands an edge to any caller, and a caller it is not meant for ignores it. The
edge of a waiting handler is not repeated (`lost_of_take`). The one way out
is that whenever the event of a client is handed out, its handler is the only
thread in `epoll_wait` (`Alone`). `Server::run` alone is enough to break it: it
waits there except while it accepts connections, so from every state a client
is accepted in time whose request is lost (`lost_reachable`).

## Main definitions

* `Connection.Lost`: Unread bytes, no edge, and the handler waits.
* `Alone`: No thread waits but the handler of a connection.
* `Unshared`: The guard of the runs without edges for others.
* `Connection.Armed`: Unread bytes have an edge.
* `Connection.Sound`: A handler that goes on waits armed.
* `Turn`: What a step can be.

## Theorems

* `acts_getLast?`: A pass that goes on ends with a modification.
* `turn_of_step`: What a step can be.
* `step_sound`: A guarded step keeps every connection sound.
* `lost_of_take`: An edge taken by another thread is lost.
* `drops_iff`: Who waits decides whether an event can be dropped.
* `lost_reachable`: From every state a request can be lost.
* `no_lost_request_iff`: The exact condition.
* `request_lost_to_handler`: Two clients, one of which loses its request.
-/

namespace EpollServer

namespace Epoll

/-- There is a request to read, no edge to tell of it, and the handler
    waits. -/
def Connection.Lost (k : Connection) : Prop :=
  k.phase = .waiting ∧ 0 < k.unread ∧ k.ready = false

/-- No thread waits in `epoll_wait` but the handler of connection `d`. -/
def Alone (s : State) (d : Nat) : Prop := ∀ w, s.waits w = true → w = .handler d

instance (s : State) (d : Nat) : Decidable (Alone s d) :=
  decidable_of_iff (s.accepting = true ∧
      ∀ c < s.connections.length, s.waits (.handler c) = true → c = d) <| by
    refine ⟨fun ⟨haccepting, hothers⟩ w hw => ?_, fun h => ⟨?_, fun c _ hc => ?_⟩⟩
    · cases w with
      | run => simp only [State.waits, haccepting, Bool.not_true, Bool.false_eq_true] at hw
      | handler c =>
          have hc : c < s.connections.length := by
            by_contra hnone
            simp only [State.waits, List.getElem?_eq_none (Nat.le_of_not_lt hnone),
              Bool.false_eq_true] at hw
          rw [hothers c hc hw]
    · by_contra hwaits
      have hrun := h .run (by simp only [State.waits, Bool.eq_false_of_not_eq_true hwaits,
        Bool.not_false])
      exact Waiter.noConfusion hrun
    · exact Waiter.handler.inj (h (.handler c) hc)

/-- When the event of a client is handed out, no thread waits but its
    handler. -/
def Unshared (s : State) : Act → Prop
  | .take _ d _ => Alone s d
  | _ => True

instance (s : State) (a : Act) : Decidable (Unshared s a) := by
  cases a
  case take w d pass => exact inferInstanceAs (Decidable (Alone s d))
  all_goals exact inferInstanceAs (Decidable True)

/-- The socket is registered for reading, and unread bytes have an edge. -/
def Connection.Armed (k : Connection) : Prop :=
  k.interest = .epollIn ∧ (0 < k.unread → k.ready = true)

/-- A handler that waits, or will wait after its pass, does so armed. -/
def Connection.Sound (k : Connection) : Prop :=
  match k.phase with
  | .queued => k.Armed
  | .waiting => k.Armed
  | .serving [] more => more = true → k.Armed
  | .serving todo more => more = true → todo.getLast? = some (.modify .epollIn)
  | .ended => True

/-! ### Passes -/

theorem getLast?_respond (attempts : List Nat) :
    (respond attempts).getLast? = some (.modify .epollIn) := by
  simp only [respond, List.getLast?_append, List.getLast?_singleton, Option.some_or]

theorem getLast?_flatMap_respond (responses : List (List Nat)) :
    responses = [] ∨ (responses.flatMap respond).getLast? = some (.modify .epollIn) := by
  rcases List.eq_nil_or_concat responses with hnil | ⟨front, last, hlast⟩
  · exact Or.inl hnil
  · refine Or.inr ?_
    rw [hlast, List.concat_eq_append, List.flatMap_append, List.flatMap_singleton,
      List.getLast?_append, getLast?_respond, Option.some_or]

/-- A pass that goes on ends with a modification to `EPOLLIN`. -/
theorem acts_getLast? (pass : Pass) (h : pass.more = true) :
    pass.acts.getLast? = some (.modify .epollIn) := by
  -- Sending leaves the mask at `EPOLLIN`, and every pass that goes on has sent last.
  have hsend : sendActs.getLast? = some (.modify .epollIn) := rfl
  cases pass with
  | message before reads handling =>
      have hread : (MessageRead.message reads).acts.getLast? = some (.modify .epollIn) := by
        rw [MessageRead.acts, List.getLast?_append, hsend, Option.some_or]
      cases handling with
      | answered responses =>
          rcases getLast?_flatMap_respond responses with hnil | hlast
          · rw [Pass.acts, Handling.acts, hnil, List.flatMap_nil, List.append_nil,
              List.getLast?_append, hread, Option.some_or]
          · rw [Pass.acts, Handling.acts, List.getLast?_append, hlast, Option.some_or]
      | failed responses attempts error =>
          rw [Pass.acts, Handling.acts, List.getLast?_append, List.getLast?_append,
            getLast?_respond, Option.some_or, Option.some_or]
      | goodbye => exact absurd h Bool.false_ne_true
  | silence calls activity sent =>
      rw [Pass.more, Bool.and_eq_true] at h
      rw [Pass.acts, if_pos h.1, List.getLast?_append, hsend, Option.some_or]

/-! ### Connections -/

theorem added_sound (unread : Nat) : (Connection.added unread).Sound :=
  ⟨rfl, fun hpos => decide_eq_true hpos⟩

theorem arrive_armed (k : Connection) (n : Nat) (h : k.Armed) : (k.arrive n).Armed := by
  refine ⟨h.1, fun hpos => ?_⟩
  simp only [Connection.arrive, h.1, decide_true, Bool.and_true, Bool.or_eq_true,
    decide_eq_true_eq]
  rcases Nat.eq_zero_or_pos n with hz | hn
  · -- Nothing new: the bytes were there before, and so was the edge.
    refine Or.inl (h.2 ?_)
    simp only [Connection.arrive, hz, Nat.add_zero] at hpos
    exact hpos
  · exact Or.inr hn

theorem drain_armed (k : Connection) (h : k.Armed) : k.drain.Armed := by
  refine ⟨h.1, fun hpos => ?_⟩
  simp only [Connection.drain, h.2 hpos, Bool.true_or]

/-- A change that leaves the phase alone keeps a connection sound if it keeps
    it armed. -/
theorem sound_of_armed (k k' : Connection) (hphase : k'.phase = k.phase)
    (harmed : k.Armed → k'.Armed) (h : k.Sound) : k'.Sound := by
  simp only [Connection.Sound, hphase] at h ⊢
  split at h
  · exact harmed h
  · exact harmed h
  · exact fun hmore => harmed (h hmore)
  · exact h
  · trivial

/-- A modification to `EPOLLIN` arms the connection. -/
theorem modify_armed (k : Connection) (writable : Bool) :
    (k.perform writable (.modify .epollIn)).Armed :=
  ⟨rfl, fun hpos => decide_eq_true hpos⟩

/-- A pass begins. -/
theorem serving_sound (k : Connection) (todo : List SocketAct) (more : Bool)
    (h : more = true → todo.getLast? = some (.modify .epollIn)) :
    Connection.Sound { k with ready := false, phase := .serving todo more } := by
  cases todo with
  | nil =>
      intro hmore
      have hlast := h hmore
      simp only [List.getLast?_nil, reduceCtorEq] at hlast
  | cons a rest => exact h

/-- The next act of a pass. -/
theorem perform_sound (k : Connection) (writable : Bool) (a : SocketAct)
    (todo : List SocketAct) (more : Bool) (hp : k.phase = .serving (a :: todo) more)
    (h : k.Sound) : Connection.Sound { k.perform writable a with phase := .serving todo more } := by
  simp only [Connection.Sound, hp] at h
  cases todo with
  | nil =>
      -- The last act of a pass that goes on is the modification to `EPOLLIN`.
      intro hmore
      have hlast := h hmore
      rw [List.getLast?_singleton, Option.some.injEq] at hlast
      rw [hlast]
      exact modify_armed k writable
  | cons b rest =>
      intro hmore
      have hlast := h hmore
      rw [List.getLast?_cons_cons] at hlast
      exact hlast

/-! ### Runs -/

/-- What a step can be. -/
inductive Turn (s : State) : Act → State → Prop where
  | newConnection : Turn s .newConnection { s with accepting := true }
  | accept (unread : Nat) :
      Turn s (.accept unread)
        { s with connections := s.connections ++ [Connection.added unread] }
  | noMore : Turn s .noMore { s with accepting := false }
  | start (c : Nat) (k : Connection) (hk : s.connections[c]? = some k) (h : k.phase = .queued) :
      Turn s (.start c) { s with connections := s.connections.set c { k with phase := .waiting } }
  | arrive (c n : Nat) (k : Connection) (hk : s.connections[c]? = some k)
      (h : k.phase ≠ .ended) :
      Turn s (.arrive c n) { s with connections := s.connections.set c (k.arrive n) }
  | drain (c : Nat) (k : Connection) (hk : s.connections[c]? = some k) (h : k.phase ≠ .ended) :
      Turn s (.drain c) { s with connections := s.connections.set c k.drain }
  | own (d : Nat) (pass : Pass) (k : Connection) (hk : s.connections[d]? = some k)
      (ready : k.ready = true) (waits : s.waits (.handler d) = true) :
      Turn s (.take (.handler d) d pass)
        { s with connections := s.connections.set d
                   { k with ready := false, phase := .serving pass.acts pass.more } }
  | foreign (w : Waiter) (d : Nat) (pass : Pass) (k : Connection)
      (hk : s.connections[d]? = some k) (ready : k.ready = true) (waits : s.waits w = true)
      (hne : w ≠ .handler d) :
      Turn s (.take w d pass)
        { s with connections := s.connections.set d { k with ready := false },
                 dropped := s.dropped ++ [(w, d)] }
  | serve (c : Nat) (writable : Bool) (k : Connection) (a : SocketAct) (todo : List SocketAct)
      (more : Bool) (hk : s.connections[c]? = some k) (h : k.phase = .serving (a :: todo) more) :
      Turn s (.serve c writable)
        { s with connections := s.connections.set c
                   { k.perform writable a with phase := .serving todo more } }
  | wait (c : Nat) (k : Connection) (hk : s.connections[c]? = some k)
      (h : k.phase = .serving [] true) :
      Turn s (.finish c) { s with connections := s.connections.set c { k with phase := .waiting } }
  | leave (c : Nat) (k : Connection) (hk : s.connections[c]? = some k)
      (h : k.phase = .serving [] false) :
      Turn s (.finish c)
        { s with connections := s.connections.set c { k with ready := false, phase := .ended } }

theorem turn_of_step (s s' : State) (a : Act) (hs : step s a = some s') : Turn s a s' := by
  -- The main thread's acts, the one that takes an event, and the handler's own.
  cases a <;> simp only [step] at hs
  case newConnection | accept | noMore =>
    split at hs <;> simp only [reduceCtorEq, Option.some.injEq] at hs
    rw [← hs]
    constructor
  case take w d pass =>
    split at hs
    · rename_i k hk
      by_cases hready : (k.ready && s.waits w) = true
      · rw [if_pos hready] at hs
        rw [Bool.and_eq_true] at hready
        -- Whose descriptor it is decides: the handler's own, or the event of another client.
        by_cases hw : w = .handler d
        · rw [if_pos hw, Option.some.injEq] at hs
          rw [← hs, hw]
          exact .own d pass k hk hready.1 (hw ▸ hready.2)
        · rw [if_neg hw, Option.some.injEq] at hs
          rw [← hs]
          exact .foreign w d pass k hk hready.1 hready.2 hw
      · rw [if_neg hready] at hs
        simp only [reduceCtorEq] at hs
    · simp only [reduceCtorEq] at hs
  all_goals
    split at hs
    · split at hs <;> simp only [reduceCtorEq, Option.some.injEq] at hs
      all_goals
        rw [← hs]
        constructor <;> assumption
    · simp only [reduceCtorEq] at hs

/-- Every connection is sound and no event was dropped. -/
structure Sounds (s : State) : Prop where
  connections : ∀ k ∈ s.connections, k.Sound
  dropped : s.dropped = []

/-- A step that changes one connection. -/
theorem set_sounds (s : State) (c : Nat) (k : Connection) (h : Sounds s) (hk : k.Sound) :
    Sounds { s with connections := s.connections.set c k } := by
  refine ⟨fun j hj => ?_, h.dropped⟩
  rcases List.mem_or_eq_of_mem_set hj with hold | hnew
  · exact h.connections j hold
  · rw [hnew]
    exact hk

/-- A guarded step keeps every connection sound. -/
theorem step_sound (s s' : State) (a : Act) (h : Sounds s) (ha : Unshared s a)
    (hs : step s a = some s') : Sounds s' := by
  have hat : ∀ {c : Nat} {k : Connection}, s.connections[c]? = some k → k.Sound :=
    fun hk => h.connections _ (List.mem_of_getElem? hk)
  cases turn_of_step s s' a hs with
  | newConnection => exact ⟨h.connections, h.dropped⟩
  | noMore => exact ⟨h.connections, h.dropped⟩
  | accept unread =>
      refine ⟨fun k hk => ?_, h.dropped⟩
      rcases List.mem_append.mp hk with hold | hnew
      · exact h.connections k hold
      · rw [List.mem_singleton.mp hnew]
        exact added_sound unread
  | start c k hk hp =>
      have hsound := hat hk
      simp only [Connection.Sound, hp] at hsound
      exact set_sounds s c _ h hsound
  | arrive c n k hk _ =>
      exact set_sounds s c _ h (sound_of_armed k _ rfl (arrive_armed k n) (hat hk))
  | drain c k hk _ =>
      exact set_sounds s c _ h (sound_of_armed k _ rfl (drain_armed k) (hat hk))
  | own d pass k hk _ _ =>
      exact set_sounds s d _ h (serving_sound k pass.acts pass.more (acts_getLast? pass))
  | foreign w d pass k hk _ hwaits hne =>
      -- The caller waits itself, so the guard names it.
      exact absurd (ha w hwaits) hne
  | serve c writable k b todo more hk hp =>
      exact set_sounds s c _ h (perform_sound k writable b todo more hp (hat hk))
  | wait c k hk hp =>
      -- The pass goes on, so what it leaves is armed.
      have hsound := hat hk
      simp only [Connection.Sound, hp] at hsound
      exact set_sounds s c _ h (hsound trivial)
  | leave c k hk _ => exact set_sounds s c _ h trivial

theorem reachesBy_sounds (s : State) (h : machine.ReachesBy Unshared initial s) : Sounds s :=
  Machine.invariant h ⟨fun _ hk => absurd hk List.not_mem_nil, rfl⟩
    (fun t a u ht ha hstep => step_sound t u a ht ha hstep)

theorem not_lost_of_sound (k : Connection) (h : k.Sound) : ¬ k.Lost := by
  rintro ⟨hp, hpos, hready⟩
  simp only [Connection.Sound, hp] at h
  exact absurd (hready.symm.trans (h.2 hpos)) Bool.false_ne_true

/-- An edge of another connection can be taken, and is dropped. If the handler
    it was meant for waits over unread bytes, it goes on waiting. -/
theorem lost_of_take (s : State) (w : Waiter) (d : Nat) (k : Connection) (pass : Pass)
    (hk : s.connections[d]? = some k) (hready : k.ready = true) (hw : s.waits w = true)
    (hne : w ≠ .handler d) :
    ∃ u, step s (.take w d pass) = some u ∧ u.dropped = s.dropped ++ [(w, d)] ∧
      (k.phase = .waiting → 0 < k.unread → ∃ k', u.connections[d]? = some k' ∧ k'.Lost) := by
  have hstep : step s (.take w d pass) =
      some { s with connections := s.connections.set d { k with ready := false },
                    dropped := s.dropped ++ [(w, d)] } := by
    simp only [step, hk, hready, hw, Bool.and_self, if_true, hne, if_false]
  refine ⟨_, hstep, rfl, fun hp hpos => ?_⟩
  exact ⟨_, List.getElem?_set_self (List.getElem?_eq_some_iff.mp hk).1, hp, hpos, rfl⟩

/-- The event of a client cannot be dropped if and only if no thread waits but
    its handler. -/
theorem drops_iff (s : State) (d : Nat) (k : Connection) (hk : s.connections[d]? = some k)
    (hready : k.ready = true) :
    (∀ w pass t, step s (.take w d pass) = some t → t.dropped = s.dropped) ↔ Alone s d := by
  constructor
  · intro hkeeps w hw
    by_contra hne
    rcases lost_of_take s w d k (.silence [] true true) hk hready hw hne with ⟨u, hu, hdropped, _⟩
    rw [hkeeps w _ u hu] at hdropped
    exact absurd (List.self_eq_append_right.mp hdropped) (List.cons_ne_nil _ _)
  · intro halone w pass t ht
    cases turn_of_step s t _ ht with
    | own => rfl
    | foreign _ _ _ _ _ _ hwaits hne => exact absurd (halone w hwaits) hne

/-- While `Server::run` accepts connections, one can come whose request is
    lost: its handler is started and waits, a byte arrives, and `Server::run`
    is back in `epoll_wait` and takes the event. -/
theorem lost_of_accepting (s : State) (hs : s.accepting = true) :
    ∃ u, machine.Reaches s u ∧ ∃ k ∈ u.connections, k.Lost := by
  have hset : ∀ k k' : Connection,
      (s.connections ++ [k]).set s.connections.length k' = s.connections ++ [k'] := by
    intro k k'
    rw [List.set_append_right _ _ le_rfl, Nat.sub_self, List.set_cons_zero]
  have hrun : machine.execute s [.accept 0, .start s.connections.length,
      .arrive s.connections.length 1, .noMore,
      .take .run s.connections.length (.silence [] true true)] =
      some { connections := s.connections ++
               [{ unread := 1, ready := false, interest := .epollIn, phase := .waiting }]
             accepting := false
             dropped := s.dropped ++ [(.run, s.connections.length)] } := by
    simp [Machine.execute, machine, step, hs, hset, Connection.added, Connection.arrive,
      State.waits]
  exact ⟨_, Machine.reaches_of_execute _ _ _ hrun, _,
    List.mem_append_right _ List.mem_cons_self, rfl, Nat.one_pos, rfl⟩

/-- From every state a client can be accepted whose request is lost. -/
theorem lost_reachable (s : State) :
    ∃ u, machine.Reaches s u ∧ ∃ k ∈ u.connections, k.Lost := by
  by_cases hs : s.accepting = true
  · exact lost_of_accepting s hs
  · rcases lost_of_accepting { s with accepting := true } rfl with ⟨u, hu, hlost⟩
    have hstep : machine.step s .newConnection = some { s with accepting := true } := if_neg hs
    exact ⟨u, Machine.reaches_trans (Machine.reaches_step (Machine.reaches_refl s) hstep) hu, hlost⟩

/-- In every run in which no thread waits but the handler of the client whenever
    an event is handed out, every event reaches its handler and no handler waits
    over unread bytes. Where another thread waits it may take the event, and the
    handler of the client goes on waiting; and after every run a request can
    still be lost. -/
theorem no_lost_request_iff (s : State) (h : machine.ReachesBy Unshared initial s) :
    (s.dropped = [] ∧ ∀ k ∈ s.connections, ¬ k.Lost) ∧
      (∀ (d : Nat) (k : Connection), s.connections[d]? = some k → k.ready = true →
        ((∀ w pass t, step s (.take w d pass) = some t → t.dropped = []) ↔ Alone s d) ∧
        (¬ Alone s d → k.phase = .waiting → 0 < k.unread →
          ∃ w pass t k', step s (.take w d pass) = some t ∧ t.connections[d]? = some k' ∧
            k'.Lost)) ∧
      ∃ u, machine.Reaches s u ∧ ∃ k ∈ u.connections, k.Lost := by
  have hs := reachesBy_sounds s h
  refine ⟨⟨hs.dropped, fun k hk => not_lost_of_sound k (hs.connections k hk)⟩,
    fun d k hk hready => ⟨?_, fun hshared hp hpos => ?_⟩, lost_reachable s⟩
  · -- The next `take` drops nothing exactly when nobody else waits.
    have hdrops := drops_iff s d k hk hready
    rw [hs.dropped] at hdrops
    exact hdrops
  · -- Somebody else waits, so the kernel may give the event to them.
    have hother : ∃ w, s.waits w = true ∧ w ≠ .handler d := by
      by_contra hnone
      exact hshared fun w hw => Classical.not_not.mp fun hne => hnone ⟨w, hw, hne⟩
    rcases hother with ⟨w, hw, hne⟩
    rcases lost_of_take s w d k (.silence [] true true) hk hready hw hne with ⟨t, ht, _, hlost⟩
    rcases hlost hp hpos with ⟨k', hk', hlost'⟩
    exact ⟨w, _, t, k', ht, hk', hlost'⟩

/-- Two clients that are accepted at once: while one handler waits the other is
    in a pass, and `Server::run` has not come back from accepting. -/
def twoAccepted : List Act :=
  [.newConnection, .accept 1, .start 0, .take (.handler 0) 0 (.message [] 1 (.answered [[1]])),
    .accept 2, .start 1, .take (.handler 1) 1 (.message [] 2 (.answered [[1]])),
    .serve 0 true, .serve 0 true, .serve 0 true, .serve 0 true, .serve 0 true, .serve 0 true,
    .serve 0 true, .serve 0 true, .finish 0, .arrive 0 2]

/-- Two clients of which each got its event; the next one of the first is there,
    and its handler is the only thread that waits. -/
theorem no_lost_request_iff_two : ∃ (s : State) (k : Connection),
    machine.Reaches initial s ∧ s.connections.length = 2 ∧ s.connections[0]? = some k ∧
      k.ready = true ∧ (s.dropped = [] ∧ ∀ k ∈ s.connections, ¬ k.Lost) ∧
      ∀ w pass t, step s (.take w 0 pass) = some t → t.dropped = [] := by
  have hrun : (machine.executeBy (fun s a => decide (Unshared s a)) initial twoAccepted).map
      (fun s => decide (s.connections.length = 2 ∧ Alone s 0 ∧
        (s.connections[0]?.map Connection.ready) = some true)) = some true := by decide +kernel
  rcases Machine.reachesBy_of_check _ (fun s a => of_decide_eq_true) twoAccepted _ hrun with
    ⟨s, hs, hcheck⟩
  rcases of_decide_eq_true hcheck with ⟨hlen, halone, hready⟩
  rw [Option.map_eq_some_iff] at hready
  rcases hready with ⟨k, hk, hready⟩
  have hmain := no_lost_request_iff s hs
  exact ⟨s, k, Machine.reaches_of_reachesBy hs, hlen, hk, hready, hmain.1,
    (hmain.2.1 0 k hk hready).1.mpr halone⟩

/-- Two clients wait for an answer each. A byte of the first arrives, the
    handler of the second takes its edge, and the first handler waits on. -/
theorem request_lost_to_handler : ∃ (s : State) (k : Connection),
    machine.execute initial [.newConnection, .accept 0, .start 0, .accept 0, .start 1, .noMore,
      .arrive 0 1, .take (.handler 1) 0 (.silence [] true true)] = some s ∧
      s.dropped = [(.handler 1, 0)] ∧ s.connections[0]? = some k ∧ k.Lost :=
  ⟨_, _, rfl, rfl, rfl, rfl, by decide, rfl⟩

end Epoll

end EpollServer
