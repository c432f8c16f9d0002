import EpollServer.Theory.Decline

/-!
# Clients That Keep Still

What a client can do to the others by doing nothing.

The inactivity test of `connectionHandler` is made behind `epoll_wait`, when an
event of the connection itself has come without a message. `epoll_wait` waits
for ever, and the event of another descriptor is passed over, so a client that
keeps still is not tested at all: it stays in its loop, with its worker and its
database connection, for as long as it likes. A run in which the clients of a
list keep still is one whose steps satisfy `Silent`; whatever the others do in
it is open.

For one connection a step is nothing, or its arrival, or a turn of its own task
(`change_of_step`). From that it follows what a silent client keeps, and that
there is no other way to be served than through `getConnection`. When the
silent clients have all places of the pool that are left, nobody gets there.

## Main definitions

* `Silent`: No event comes for the clients of a list.
* `Change`: What a step does to one connection.
* `waits`: The phases of a connection that is not served, and was not.

## Theorems

* `change_of_step`: What a step does to one connection.
* `silent_step`, `reaches_silent`: A silent client stays in its loop.
* `nobody_else`: When silent clients have all places, they alone are served.
* `silence_starves`: The same for whole runs, and who comes then waits or fails.
-/

namespace EpollServer

namespace Whole

open Handler (TaskAct Phase)
open Push (Layout Environment packedLayout allSucceed)

variable {ν : Type}

/-! ### One connection -/

/-- No event comes for the clients `still`. -/
def Silent {L : Layout ν} (still : List Nat) (s : State ν) : Act L → Prop
  | .handler i (.task a) => isEvent a = true → ∀ c, s.threads.runs i = some c → c ∉ still
  | _ => True

/-- What step `a` does to connection `c`. -/
inductive Change (L : Layout ν) (env : Nat → Environment) (s : State ν) (a : Act L) (c : Nat) :
    Option Phase → Option Phase → Prop where
  | stay (p : Option Phase) : Change L env s a c p p
  | accept : Change L env s a c none (some .accepted)
  | turn (b : TaskAct L) (k k' : Handler.Connection ν) (turn : Handler.Turn L (env c) k b k')
      (event : isEvent b = true → ∃ i, a = .handler i (.task b) ∧ s.threads.runs i = some c) :
      Change L env s a c (some k.phase) (some k'.phase)

/-- A turn of the task of `d`, as connection `c` sees it. -/
theorem change_of_goes (L : Layout ν) (env : Nat → Environment) (s t : State ν) (a : Act L)
    (b : TaskAct L) (k k' : Handler.Connection ν) (c d : Nat)
    (hturn : Handler.Turn L (env d) k b k')
    (hgoes : Goes s.serving t.serving d k.phase k'.phase)
    (hevent : isEvent b = true → ∃ i, a = .handler i (.task b) ∧ s.threads.runs i = some d) :
    Change L env s a c (phase s.serving c) (phase t.serving c) := by
  by_cases hc : c = d
  · rw [hc, hgoes.before, hgoes.after]
    exact .turn b k k' hturn hevent
  · rw [hgoes.others c hc]
    exact .stay _

theorem change_of_accept (L : Layout ν) (env : Nat → Environment) (s t : State ν) (a : Act L)
    (registered : Bool) (c : Nat)
    (h : Serving.step L env s.serving (.accept registered) = some t.serving) :
    Change L env s a c (phase s.serving c) (phase t.serving c) := by
  unfold Serving.step at h
  cases registered with
  | false =>
      simp only [Bool.false_eq_true, if_false, Option.some.injEq] at h
      rw [← h]
      exact .stay _
  | true =>
      simp only [if_true, Option.some.injEq] at h
      rw [← h]
      unfold phase
      -- Before the end of the list, at it, and behind it.
      rcases Nat.lt_trichotomy c s.serving.tasks.length with hlt | rfl | hgt
      · rw [List.getElem?_append_left hlt]
        exact .stay _
      · rw [List.getElem?_append_right (Nat.le_refl _), Nat.sub_self,
          List.getElem?_eq_none (Nat.le_refl _)]
        exact .accept
      · rw [List.getElem?_eq_none (Nat.le_of_lt hgt), List.getElem?_eq_none]
        · exact .stay _
        · rw [List.length_append, List.length_singleton]
          exact hgt

/-- For one connection a step is nothing, or its arrival, or a turn of its own
    task; and an event is one for the connection whose worker it wakes. -/
theorem change_of_step (L : Layout ν) (env : Nat → Environment) (s t : State ν) (a : Act L)
    (h : step L env s a = some t) (c : Nat) :
    Change L env s a c (phase s.serving c) (phase t.serving c) := by
  rcases (parts_of_step L env s t a h).2 with hsame | ⟨b, hmakes, hb⟩
  · rw [hsame]
    exact .stay _
  -- A turn of a task without an event.
  have hquiet : ∀ (d : Nat) (b : TaskAct L), isEvent b = false →
      Serving.step L env s.serving (.task d b) = some t.serving →
      Change L env s a c (phase s.serving c) (phase t.serving c) := by
    intro d b he hd
    rcases goes_task L env _ _ d b hd with ⟨k, k', hturn, hgoes⟩
    exact change_of_goes L env s t a b k k' c d hturn hgoes
      (fun hevent => absurd (he.symm.trans hevent) Bool.false_ne_true)
  cases a with
  | accept registered =>
      rw [show b = .accept registered from hmakes] at hb
      exact change_of_accept L env s t _ registered c hb
  | proceed =>
      rcases hmakes with ⟨d, rfl⟩
      exact hquiet d .enqueue rfl hb
  | leave i =>
      rcases hmakes with ⟨d, rfl⟩
      exact hquiet d .decrement rfl hb
  | work i =>
      rcases hmakes with ⟨d, rfl⟩
      exact hquiet d .start rfl hb
  | handler i piece =>
      rcases hmakes with ⟨d, hruns, hpiece, rfl⟩
      rcases turn_of_piece L env _ _ d piece hpiece hb with
        ⟨b, k, k', _, hevent, hturn, hgoes⟩ | ⟨p, _, hgoes⟩
      · exact change_of_goes L env s t _ b k k' c d hturn hgoes
          (fun he => ⟨i, by rw [hevent he], hruns⟩)
      · -- A call of the database pool changes no phase.
        by_cases hc : c = d
        · rw [hc, hgoes.before, hgoes.after]
          exact .stay _
        · rw [hgoes.others c hc]
          exact .stay _
  | database b' =>
      rw [show b = .pool b' from hmakes] at hb
      simp only [Serving.step] at hb
      split at hb
      · rw [Option.map_eq_some_iff] at hb
        rcases hb with ⟨pool, _, hafter⟩
        rw [← hafter]
        exact .stay _
      · simp only [reduceCtorEq] at hb
  | proceedTask | notifyOne | wake => exact absurd hmakes not_false

/-! ### A silent client -/

/-- Without an event, nothing ends the loop. -/
theorem loop_turn (L : Layout ν) (env : Environment) (k k' : Handler.Connection ν)
    (b : TaskAct L) (hk : k.phase = .serving) (hb : isEvent b = false)
    (h : Handler.Turn L env k b k') : k'.phase = .serving := by
  cases h with
  | foreign => exact hk
  | message | throws | silence => exact absurd hb.symm Bool.false_ne_true
  | enqueue hphase | start hphase | getConnection hphase | remove hphase
  | returnConnection hphase | close hphase | decrement hphase =>
      rw [hk] at hphase
      simp only [reduceCtorEq] at hphase

theorem silent_step (L : Layout ν) (env : Nat → Environment) (still : List Nat) (s t : State ν)
    (a : Act L) (c : Nat) (hc : c ∈ still) (hs : phase s.serving c = some .serving)
    (ha : Silent still s a) (h : step L env s a = some t) :
    phase t.serving c = some .serving := by
  have hchange := change_of_step L env s t a h c
  generalize phase s.serving c = p at hs hchange
  generalize phase t.serving c = q at hchange ⊢
  cases hchange with
  | stay => exact hs
  | accept => simp only [reduceCtorEq] at hs
  | turn b k k' hturn hevent =>
      have hk := Option.some.inj hs
      cases hb : isEvent b with
      | false => rw [loop_turn L (env c) k k' b hk hb hturn]
      | true =>
          -- The event would be one of `c`, which is silent.
          rcases hevent hb with ⟨i, rfl, hruns⟩
          exact absurd hc (ha hb c hruns)

/-- A client that keeps still stays in the loop of its handler, in every run
    in which no event comes for it. -/
theorem reaches_silent (L : Layout ν) (env : Nat → Environment) (still : List Nat)
    (s t : State ν) (hs : ∀ c ∈ still, phase s.serving c = some .serving)
    (h : (machine L env).ReachesBy (Silent still) s t) :
    ∀ c ∈ still, phase t.serving c = some .serving := by
  refine Machine.invariant (I := fun u : State ν => ∀ c ∈ still, phase u.serving c = some .serving)
    h hs (fun u a v hu ha hstep c hc => ?_)
  exact silent_step L env still u v a c hc (hu c hc) ha hstep

/-! ### All places -/

/-- When silent clients have all places of the pool that are left, they alone
    are served. -/
theorem nobody_else (poolSize : Nat) (still : List Nat) (hnodup : still.Nodup)
    (s : Serving.State ν)
    (hbound : Serving.served s + Serving.wasted s + s.pool.connectionQueue.length +
      s.pool.dropped ≤ poolSize)
    (hall : poolSize ≤ still.length + Serving.wasted s + s.pool.dropped)
    (hs : ∀ c ∈ still, phase s c = some .serving) :
    s.pool.connectionQueue = [] ∧
      ∀ c task, s.tasks[c]? = some task → Serving.serves task.handler = true → c ∈ still := by
  have hserves : ∀ c ∈ still, ∃ task, s.tasks[c]? = some task ∧
      Serving.serves task.handler = true := by
    intro c hc
    have hphase := hs c hc
    simp only [phase, Option.map_eq_some_iff] at hphase
    rcases hphase with ⟨task, htask, hp⟩
    exact ⟨task, htask, by rw [Serving.serves, hp]⟩
  -- They are served, so they fill all places that the pool has left.
  have hle := ListModify.length_le_countP (fun task : Serving.Task ν =>
    Serving.serves task.handler) s.tasks still hnodup hserves
  have hserved : still.length ≤ Serving.served s := hle
  refine ⟨List.length_eq_zero_iff.mp (by omega), fun c task htask hc => ?_⟩
  by_contra hother
  -- With one client more there would be more of them than places.
  have hmore := ListModify.length_le_countP (fun task : Serving.Task ν =>
    Serving.serves task.handler) s.tasks (c :: still) (List.nodup_cons.mpr ⟨hother, hnodup⟩)
    (fun d hd => by
      rcases List.mem_cons.mp hd with rfl | hd
      · exact ⟨task, htask, hc⟩
      · exact hserves d hd)
  have hmore' : still.length + 1 ≤ Serving.served s := hmore
  omega

/-- The connection is not served, and was not. -/
def waits : Phase → Bool
  | .accepted => true
  | .queued => true
  | .started => true
  | .failed => true
  | _ => false

/-- There is no way out but to be served. -/
theorem waits_turn (L : Layout ν) (env : Environment) (k k' : Handler.Connection ν)
    (b : TaskAct L) (hk : waits k.phase = true) (h : Handler.Turn L env k b k') :
    waits k'.phase = true ∨ k'.phase = .serving := by
  cases h with
  | enqueue | start => exact Or.inl rfl
  | getConnection _ obtained =>
      cases obtained with
      | true => exact Or.inr rfl
      | false => exact Or.inl rfl
  | message hphase | throws hphase | silence hphase | foreign hphase | remove hphase
  | returnConnection hphase | close hphase | decrement hphase =>
      rw [hphase] at hk
      exact absurd hk Bool.false_ne_true

theorem waits_step (L : Layout ν) (env : Nat → Environment) (s t : State ν) (a : Act L) (c : Nat)
    (hs : ∀ p, phase s.serving c = some p → waits p = true)
    (ht : phase t.serving c ≠ some .serving) (h : step L env s a = some t) :
    ∀ p, phase t.serving c = some p → waits p = true := by
  have hchange := change_of_step L env s t a h c
  generalize phase s.serving c = p at hs hchange
  generalize phase t.serving c = q at ht hchange
  cases hchange with
  | stay => exact hs
  | accept =>
      rintro p hp
      rw [← Option.some.inj hp]
      rfl
  | turn b k k' hturn _ =>
      rintro p hp
      rw [← Option.some.inj hp]
      rcases waits_turn L (env c) k k' b (hs k.phase rfl) hturn with hwaits | hserving
      · exact hwaits
      · exact absurd (congrArg some hserving) ht

/-- From any reachable state: if clients that are in the loops of their handlers
    keep still from then on, and have, with what exceptions and the database
    have cost, all places of the pool, then in every run from there, whatever
    the other clients do and however long it goes on, they stay in their loops
    and nobody else is served. No database connection is ever idle, and whoever
    comes waits for one, or for a worker, or his task fails. -/
theorem silence_starves (L : Layout ν) (env : Nat → Environment) (poolSize : Int)
    (connects : Nat → Nat → ConnectionPool.Connect) (pool : ConnectionPool.State)
    (s t : State ν) (still : List Nat)
    (h0 : ConnectionPool.construct poolSize connects = some pool)
    (h : (machine L env).Reaches (initial ν pool) s) (hnodup : still.Nodup)
    (hs : ∀ c ∈ still, phase s.serving c = some .serving)
    (hall : poolSize.toNat ≤
      still.length + Serving.wasted s.serving + s.serving.pool.dropped)
    (ht : (machine L env).ReachesBy (Silent still) s t) :
    (∀ c task, t.serving.tasks[c]? = some task →
        (Serving.serves task.handler = true ↔ c ∈ still)) ∧
      t.serving.pool.connectionQueue = [] ∧
      ∀ c p, s.serving.tasks.length ≤ c → phase t.serving c = some p → waits p = true := by
  -- In every state of the run they are the only ones.
  have hfull : ∀ u, (machine L env).ReachesBy (Silent still) s u →
      (∀ c ∈ still, phase u.serving c = some .serving) ∧ u.serving.pool.connectionQueue = [] ∧
      ∀ c task, u.serving.tasks[c]? = some task → Serving.serves task.handler = true →
        c ∈ still := by
    intro u hu
    have hsu := Machine.reaches_of_reachesBy hu
    have hserving := reaches_serving L env s u hsu
    have hbound := (Serving.served_bounded L env poolSize connects pool u.serving h0
      (reaches_serving L env _ u (Machine.reaches_trans h hsu))).1
    -- Places that are lost stay lost.
    have hwasted := Serving.reaches_wasted L env _ _ hserving
    have hdropped := Serving.reaches_dropped _ _ (Serving.reaches_parts L env _ _ hserving).2
    have hin := reaches_silent L env still s u hs hu
    exact ⟨hin, nobody_else poolSize.toNat still hnodup u.serving hbound (by omega) hin⟩
  rcases hfull t ht with ⟨hin, hidle, honly⟩
  refine ⟨fun c task htask => ⟨honly c task htask, fun hc => ?_⟩, hidle, fun c p hc hp => ?_⟩
  · have hphase := hin c hc
    rw [phase, htask, Option.map_some, Option.some.injEq] at hphase
    rw [Serving.serves, hphase]
  · -- Who is silent was there at the beginning.
    have hnew : c ∉ still := fun hmem =>
      absurd (lt_of_phase s.serving c _ (hs c hmem)) (Nat.not_lt.mpr hc)
    have hnot : ∀ u, (machine L env).ReachesBy (Silent still) s u →
        phase u.serving c ≠ some .serving := by
      intro u hu hserving
      simp only [phase, Option.map_eq_some_iff] at hserving
      rcases hserving with ⟨task, htask, hphase⟩
      exact hnew ((hfull u hu).2.2 c task htask (by rw [Serving.serves, hphase]))
    refine Machine.invariant_of
      (I := fun u : State ν => ∀ p, phase u.serving c = some p → waits p = true)
      (K := fun u : State ν => (machine L env).ReachesBy (Silent still) s u) ht
      (fun u hu => hu) (fun p hp => ?_) (fun u a v hu hwaits ha hstep => ?_) p hp
    · exact absurd (lt_of_phase s.serving c p hp) (Nat.not_lt.mpr hc)
    · exact waits_step L env u v a c hwaits (hnot v (.step u v a hu ha hstep)) hstep

/-- The second client, up to its first wait for a database connection. -/
def secondClient {L : Layout ν} : List (Act L) :=
  [.accept true, .proceed, .proceed, .proceed, .proceed, .work 1, .handler 1 .getConnection,
    .handler 0 (.task .foreign), .database (.lock 1), .database (.pass 1)]

theorem silent_secondClient (L : Layout ν) (s : State ν) (a : Act L) (ha : a ∈ secondClient) :
    Silent [0] s a := by
  simp only [secondClient, List.mem_cons, List.not_mem_nil, or_false] at ha
  rcases ha with rfl | rfl | rfl | rfl | rfl | rfl | rfl | rfl | rfl | rfl
  -- What comes to the first handler is an event of the second client.
  case inr.inr.inr.inr.inr.inr.inr.inl => exact fun he => absurd he Bool.false_ne_true
  all_goals exact trivial

/-- The pool has one connection, which the first client has and keeps. -/
theorem silence_starves_one :
    ∃ s t : State UInt32, (machine packedLayout (fun _ => allSucceed)).Reaches
        (initial UInt32 Serving.onePool) s ∧
      (machine packedLayout (fun _ => allSucceed)).ReachesBy (Silent [0]) s t ∧
      phase t.serving 1 = some .started ∧
      ∀ c task, t.serving.tasks[c]? = some task →
        (Serving.serves task.handler = true ↔ c ∈ [0]) := by
  -- The first client is served before the second one comes.
  obtain ⟨s, t, hs, hserving, hst, hstarted⟩ : ∃ s t : State UInt32,
      (machine packedLayout (fun _ => allSucceed)).Reaches (initial UInt32 Serving.onePool) s ∧
      phase s.serving 0 = some .serving ∧
      (machine packedLayout (fun _ => allSucceed)).execute s secondClient = some t ∧
      phase t.serving 1 = some .started :=
    ⟨_, _, Machine.reaches_of_execute firstClient _ _ rfl, rfl, rfl, rfl⟩
  have hsilent := Machine.reachesBy_of_execute (P := Silent [0]) secondClient s t
    (fun a ha u => silent_secondClient packedLayout u a ha) hst
  refine ⟨s, t, hs, hsilent, hstarted, ?_⟩
  refine (silence_starves packedLayout (fun _ => allSucceed) 1 (fun _ _ => .connected)
    Serving.onePool s t [0] rfl hs (List.nodup_singleton 0) (fun c hc => ?_) ?_ hsilent).1
  · rw [List.mem_singleton.mp hc]
    exact hserving
  · show 1 ≤ 1 + Serving.wasted s.serving + s.serving.pool.dropped
    omega

end Whole

end EpollServer
