import EpollServer.Theory.Transfer

/-!
# Waiting for a Frame

For which streams of frames the functions of the link return.

`readPhysicalFrame` returns after a timeout at the latest, and there are at
most `MQS_CLD_RETRY_MAX` attempts to read a message or an acknowledge. In
between `readFrame` takes any number of heartbeats, and begins to wait anew
after each. So a function returns if and only if as many frames come that are
no heartbeats as it makes attempts, or one before that ends the attempts; and
it takes no more of these than it makes attempts (`waiting_ends_iff`). From a
peer that sends heartbeats only, none of them returns.

A function returns for a stream if it returns for the frames that have arrived
after some time.

## Main definitions

* `arrived`: The first frames of a stream.
* `Enough`: So many frames, or one that ends the attempts.
* `Takes`: What a function takes of the frames.
* `Returns`: A function returns for a stream.
* `Retries`: A loop with a number of attempts.

## Theorems

* `enough_cons`: One frame more.
* `length_visible`: The visible frames are those that are no heartbeats.
* `exists_visible_iff`, `enough_of_frequently`: The frames of a stream.
* `readFrame_returns`, `Retries.returns`: When a function returns.
* `readFrame_takes`, `Retries.takes`: What it takes.
* `retries_readRetry`, `retries_sendRetry`: The two loops.
* `waiting_ends_iff`: All functions, for a stream.
* `returns_of_frequently`: Streams in which heartbeats do not go on for ever.
-/

namespace EpollServer

namespace Link

/-- The frames of a stream that have arrived. -/
def arrived (f : Nat → PhysicalFrame) (N : Nat) : List PhysicalFrame := (List.range N).map f

/-- So many frames, or fewer with one that ends the attempts. -/
def Enough (n : Nat) (stop : PhysicalFrame → Bool) (frames : List PhysicalFrame) : Prop :=
  n ≤ frames.length ∨ ∃ f ∈ frames.take n, stop f = true

/-- At most `n` of the frames taken are no heartbeats. -/
def Takes (n : Nat) (input rest : List PhysicalFrame) : Prop :=
  ∃ front, input = front ++ rest ∧ (front.countP fun f => !gotHeartbeat f) ≤ n

/-- A function returns for a stream: it does for what has arrived at some time. -/
def Returns {ρ : Type} (run : List PhysicalFrame → Option ρ) (f : Nat → PhysicalFrame) : Prop :=
  ∃ N r, run (arrived f N) = some r

/-! ### Frames -/

theorem none_gives_nothing {ρ : Type} : ¬ ∃ r, (none : Option ρ) = some r := by
  rintro ⟨r, hr⟩
  simp only [reduceCtorEq] at hr

theorem enough_nil (n : Nat) (stop : PhysicalFrame → Bool) : ¬ Enough (n + 1) stop [] := by
  rintro (h | ⟨f, hf, _⟩)
  · exact Nat.not_succ_le_zero n h
  · rw [List.take_nil] at hf
    exact List.not_mem_nil hf

theorem enough_cons (n : Nat) (stop : PhysicalFrame → Bool) (f : PhysicalFrame)
    (frames : List PhysicalFrame) :
    Enough (n + 1) stop (f :: frames) ↔ stop f = true ∨ Enough n stop frames := by
  rw [Enough, Enough, List.length_cons, Nat.add_le_add_iff_right, List.take_succ_cons,
    List.exists_mem_cons_iff]
  exact or_left_comm

/-- The visible frames are as many as those that are no heartbeats. -/
theorem length_visible (cfg : Config) (input : List PhysicalFrame) : ∀ lossFreeRun : Nat,
    (visible cfg lossFreeRun input).length = input.countP fun f => !gotHeartbeat f := by
  induction input with
  | nil => exact fun _ => rfl
  | cons f input ih =>
      intro lossFreeRun
      rw [visible, List.countP_cons]
      cases hf : gotHeartbeat f with
      | true => exact ih lossFreeRun
      | false =>
          -- A lost frame counts like any other.
          simp only [Bool.false_eq_true, if_false, Bool.not_false, if_true]
          split
          · split
            · rw [List.length_cons, ih]
            · rw [List.length_cons, ih]
          · rw [List.length_cons, ih]

theorem Takes.refl (input : List PhysicalFrame) : Takes 0 input input := ⟨[], rfl, Nat.le_refl 0⟩

theorem Takes.trans {n k : Nat} {a b c : List PhysicalFrame} (h : Takes n a b)
    (h' : Takes k b c) : Takes (n + k) a c := by
  rcases h with ⟨front, rfl, hn⟩
  rcases h' with ⟨next, rfl, hk⟩
  refine ⟨front ++ next, (List.append_assoc _ _ _).symm, ?_⟩
  rw [List.countP_append]
  omega

theorem Takes.mono {n k : Nat} {a b : List PhysicalFrame} (h : Takes n a b) (hle : n ≤ k) :
    Takes k a b := by
  rcases h with ⟨front, heq, hn⟩
  exact ⟨front, heq, hn.trans hle⟩

/-- `readFrame` takes one frame that is no heartbeat. -/
theorem readFrame_takes {cfg : Config} {s t : State} {f : PhysicalFrame}
    (h : readFrame cfg s = some (f, t)) : Takes 1 s.input t.input := by
  rcases readFrame_some h with ⟨hvisible, ⟨front, g, hinput, _⟩, _⟩
  have hcount := congrArg List.length hvisible
  rw [List.length_cons, length_visible, length_visible, hinput, List.append_cons,
    List.countP_append] at hcount
  refine ⟨front ++ [g], ?_, by omega⟩
  rw [hinput, List.append_cons]

theorem readFrame_returns (cfg : Config) (s : State) :
    (∃ r, readFrame cfg s = some r) ↔ 0 < (visible cfg s.lossFreeRun s.input).length := by
  cases hread : readFrame cfg s with
  | none =>
      rw [readFrame_none hread]
      exact iff_of_false none_gives_nothing (Nat.lt_irrefl 0)
  | some r =>
      rcases r with ⟨f, t⟩
      rw [(readFrame_some hread).1]
      exact iff_of_true ⟨_, rfl⟩ (Nat.succ_pos _)

theorem readAck_returns (cfg : Config) (s : State) :
    (∃ r, readAck cfg s = some r) ↔ ∃ r, readFrame cfg s = some r := by
  rw [readAck]
  cases readFrame cfg s with
  | none => exact iff_of_false none_gives_nothing none_gives_nothing
  | some r => exact iff_of_true ⟨_, rfl⟩ ⟨_, rfl⟩

/-! ### Streams -/

/-- A frame that is no heartbeat becomes visible. -/
theorem exists_visible_iff (cfg : Config) (lossFreeRun : Nat) (f : Nat → PhysicalFrame) :
    (∃ N, 0 < (visible cfg lossFreeRun (arrived f N)).length) ↔
      ∃ i, gotHeartbeat (f i) = false := by
  constructor
  · rintro ⟨N, hpos⟩
    rw [length_visible, List.countP_pos_iff] at hpos
    rcases hpos with ⟨g, hg, hheartbeat⟩
    rcases List.mem_map.mp hg with ⟨i, _, rfl⟩
    exact ⟨i, Bool.not_eq_true' _ ▸ hheartbeat⟩
  · rintro ⟨i, hi⟩
    refine ⟨i + 1, ?_⟩
    rw [length_visible, List.countP_pos_iff]
    refine ⟨f i, List.mem_map.mpr ⟨i, List.mem_range.mpr (Nat.lt_succ_self i), rfl⟩, ?_⟩
    rw [hi]
    rfl

/-- If the heartbeats do not go on for ever, there are enough frames for any
    number of attempts. -/
theorem enough_of_frequently (cfg : Config) (lossFreeRun : Nat) (f : Nat → PhysicalFrame)
    (stop : PhysicalFrame → Bool) (h : ∀ i, ∃ k, i ≤ k ∧ gotHeartbeat (f k) = false) :
    ∀ n, ∃ N, Enough n stop (visible cfg lossFreeRun (arrived f N)) := by
  have hcount : ∀ n, ∃ N, n ≤ (arrived f N).countP fun g => !gotHeartbeat g := by
    intro n
    induction n with
    | zero => exact ⟨0, Nat.zero_le _⟩
    | succ n ih =>
        rcases ih with ⟨N, hN⟩
        rcases h N with ⟨k, hk, hheartbeat⟩
        -- The frames up to this one are those before, those between, and this one.
        have hsplit : List.range (k + 1) =
            List.range N ++ (List.range (k - N)).map (N + ·) ++ [k] := by
          rw [← List.range_add, Nat.add_sub_cancel' hk, List.range_succ]
        refine ⟨k + 1, ?_⟩
        rw [arrived, hsplit, List.map_append, List.map_append, List.countP_append,
          List.countP_append, List.map_singleton, List.countP_singleton, hheartbeat]
        have hbefore : n ≤ ((List.range N).map f).countP fun g => !gotHeartbeat g := hN
        simp only [Bool.not_false, if_true]
        omega
  intro n
  rcases hcount n with ⟨N, hN⟩
  exact ⟨N, .inl (by rw [length_visible]; exact hN)⟩

/-! ### Attempts -/

/-- A loop with a number of attempts. Each reads a frame, from where `reads`
    says, and the loop ends with a frame that `stop` accepts. `last` is the link
    that is left. -/
structure Retries {σ ρ : Type} (cfg : Config) (stop : PhysicalFrame → Bool) (reads : σ → State)
    (last : ρ → State) (run : Nat → σ → Option ρ) : Prop where
  done : ∀ s, ∃ r, run 0 s = some r ∧ (last r).input = (reads s).input
  waits : ∀ n s, readFrame cfg (reads s) = none → run (n + 1) s = none
  ends : ∀ n s f t, readFrame cfg (reads s) = some (f, t) → stop f = true →
    ∃ r, run (n + 1) s = some r ∧ (last r).input = t.input
  goesOn : ∀ n s f t, readFrame cfg (reads s) = some (f, t) → stop f = false →
    ∃ u, run (n + 1) s = run n u ∧ (reads u).input = t.input ∧
      (reads u).lossFreeRun = t.lossFreeRun

namespace Retries

variable {σ ρ : Type} {cfg : Config} {stop : PhysicalFrame → Bool} {reads : σ → State}
  {last : ρ → State} {run : Nat → σ → Option ρ}

/-- The attempts end with the last one, or with a frame that ends them. -/
theorem returns (h : Retries cfg stop reads last run) : ∀ (n : Nat) (s : σ),
    (∃ r, run n s = some r) ↔
      Enough n stop (visible cfg (reads s).lossFreeRun (reads s).input) := by
  intro n
  induction n with
  | zero =>
      intro s
      rcases h.done s with ⟨r, hr, _⟩
      exact iff_of_true ⟨r, hr⟩ (.inl (Nat.zero_le _))
  | succ n ih =>
      intro s
      -- Nothing has arrived, the frame ends the loop, or an attempt is used up.
      cases hread : readFrame cfg (reads s) with
      | none =>
          rw [h.waits n s hread, readFrame_none hread]
          exact iff_of_false none_gives_nothing (enough_nil n stop)
      | some r =>
          rcases r with ⟨f, t⟩
          rw [(readFrame_some hread).1, enough_cons]
          cases hf : stop f with
          | true =>
              rcases h.ends n s f t hread hf with ⟨r, hr, _⟩
              exact iff_of_true ⟨r, hr⟩ (.inl rfl)
          | false =>
              rcases h.goesOn n s f t hread hf with ⟨u, hu, hinput, hloss⟩
              rw [hu, ih u, hinput, hloss, or_iff_right Bool.false_ne_true]

/-- An attempt takes one frame that is no heartbeat. -/
theorem takes (h : Retries cfg stop reads last run) : ∀ (n : Nat) (s : σ) (r : ρ),
    run n s = some r → Takes n (reads s).input (last r).input := by
  intro n
  induction n with
  | zero =>
      intro s r hr
      rcases h.done s with ⟨r', hr', hinput⟩
      rw [hr, Option.some.injEq] at hr'
      rw [hr', hinput]
      exact Takes.refl _
  | succ n ih =>
      intro s r hr
      cases hread : readFrame cfg (reads s) with
      | none =>
          rw [h.waits n s hread] at hr
          simp only [reduceCtorEq] at hr
      | some g =>
          rcases g with ⟨f, t⟩
          have htakes := readFrame_takes hread
          cases hf : stop f with
          | true =>
              rcases h.ends n s f t hread hf with ⟨r', hr', hinput⟩
              rw [hr, Option.some.injEq] at hr'
              rw [hr', hinput]
              exact htakes.mono (Nat.le_add_left 1 n)
          | false =>
              rcases h.goesOn n s f t hread hf with ⟨u, hu, hinput, _⟩
              -- One frame now, and at most one for each attempt that is left.
              have hlater := ih u r (hu.symm.trans hr)
              rw [hinput] at hlater
              rw [Nat.add_comm]
              exact htakes.trans hlater

end Retries

/-! ### Reading a message -/

/-- The attempts to read a message end with the last one, or with a data frame
    that has a payload. -/
theorem retries_readRetry (cfg : Config) :
    Retries cfg carriesMessage (fun p : List UInt8 × State => p.2)
      (fun r : Nat × List UInt8 × State => r.2.2) (fun n p => readRetry cfg n p.1 p.2) where
  done p := ⟨_, rfl, rfl⟩
  waits n p hread := by
    simp only [readRetry, readMessage_none p.1 hread]
  ends n p f t hread hf := by
    -- The test of the loop is that of the length.
    have hne : (handleFrame cfg p.1 f).1 ≠ 0 := fun hzero =>
      Bool.false_ne_true (((handleFrame_length cfg p.1 f).mp hzero).symm.trans hf)
    simp only [readRetry, readMessage_some p.1 hread, if_neg hne]
    exact ⟨_, rfl, rfl⟩
  goesOn n p f t hread hf := by
    simp only [readRetry, readMessage_some p.1 hread,
      if_pos ((handleFrame_length cfg p.1 f).mpr hf)]
    exact ⟨((handleFrame cfg p.1 f).2.1,
      { t with log := t.log ++ replyEvents cfg (handleFrame cfg p.1 f).2.2 }), rfl, rfl, rfl⟩

end Link

namespace Transfer

open Link (PhysicalFrame Enough Takes visible carriesMessage gotHeartbeat arrived Returns)

variable (L : Layout)

/-- The frame is an acknowledge. -/
def acknowledges (f : PhysicalFrame) : Bool := decide (Link.ackOf L.toConfig f = .ack)

variable {L}

/-! ### Sending a message -/

/-- The link of a sender that waits for the acknowledge of an attempt. -/
def Sender.awaiting (s : Sender) : Link.State :=
  { s.link with
    log := s.link.log ++ [.modifyEpollEvent .epollOut] ++ [.modifyEpollEvent .epollIn] }

/-- An attempt, from the frame it reads. -/
theorem linkSendData_eq (message : List UInt8) (length : UInt16) (s : Sender) :
    Link.linkSendData (port L) message length s =
      (Link.readFrame L.toConfig s.awaiting).map fun r =>
        (if acknowledges L r.1 then length else 0,
          { link := r.2, sent := s.sent ++ [L.dataBuffer (message.take length.toNat)] }) := by
  change ((port L).readAck (Sender.mk s.awaiting
    (s.sent ++ [L.dataBuffer (message.take length.toNat)]))).bind _ = _
  simp only [port, Link.readAck]
  cases Link.readFrame L.toConfig s.awaiting with
  | none => rfl
  | some r =>
      rw [Option.map_some, Option.bind_some, acknowledges]
      by_cases hack : Link.ackOf L.toConfig r.1 = .ack
      · rw [decide_eq_true hack]
        exact congrArg (fun n => some (n, _)) (if_pos hack)
      · rw [decide_eq_false hack]
        exact congrArg (fun n => some (n, _)) (if_neg hack)

theorem sendRetry_succ (message : List UInt8) {length : UInt16} (hlength : length ≠ 0) (n : Nat)
    (s : Sender) : Link.sendRetry (port L) message length (n + 1) 0 s =
      (Link.linkSendData (port L) message length s).bind fun r =>
        Link.sendRetry (port L) message length n r.1 r.2 := by
  rw [Link.sendRetry, if_neg hlength]
  rfl

/-- A message of length 0 is sent at once. -/
theorem send_zero (message : List UInt8) (h : (L.messageLength message).toUInt16 = 0)
    (s : Sender) : send L message s = some (0, s) := by
  change Link.sendRetry (port L) message (L.messageLength message).toUInt16 L.retryMax 0 s = _
  rw [h, Link.sendRetry_done]
  rfl

/-- The attempts to send a message end with the last one, or with an
    acknowledge. -/
theorem retries_sendRetry (message : List UInt8) {length : UInt16} (hlength : length ≠ 0) :
    Link.Retries L.toConfig (acknowledges L) Sender.awaiting
      (fun r : UInt16 × Sender => r.2.link)
      (fun n s => Link.sendRetry (port L) message length n 0 s) where
  done s := ⟨_, rfl, rfl⟩
  waits n s hread := by
    -- The data is sent, and no acknowledge comes.
    rw [sendRetry_succ message hlength, linkSendData_eq, hread]
    rfl
  ends n s f t hread hf := by
    -- The loop sees the length of the message, and ends.
    rw [sendRetry_succ message hlength, linkSendData_eq, hread, Option.map_some, Option.bind_some,
      hf, if_pos rfl, Link.sendRetry_done]
    exact ⟨_, rfl, rfl⟩
  goesOn n s f t hread hf := by
    rw [sendRetry_succ message hlength, linkSendData_eq, hread, Option.map_some, Option.bind_some,
      hf, if_neg Bool.false_ne_true]
    exact ⟨_, rfl, rfl, rfl⟩

/-- For every stream of frames: `readFrame` and `readAck` return if and only if
    one of them is no heartbeat; the attempts to read or to send a message end
    if and only if there are so many frames that are no heartbeats, or one
    before that ends them. None of the functions takes more frames that are no
    heartbeats than it makes attempts. -/
theorem waiting_ends_iff (L : Layout) (f : Nat → PhysicalFrame) (lossFreeRun : Nat)
    (buffer message : List UInt8) :
    (Returns (fun input => Link.readFrame L.toConfig ⟨input, lossFreeRun, []⟩) f ↔
        ∃ i, gotHeartbeat (f i) = false) ∧
      (Returns (fun input => Link.readAck L.toConfig ⟨input, lossFreeRun, []⟩) f ↔
        ∃ i, gotHeartbeat (f i) = false) ∧
      (Returns (fun input => receive L buffer ⟨input, lossFreeRun, []⟩) f ↔
        ∃ N, Enough L.retryMax carriesMessage (visible L.toConfig lossFreeRun (arrived f N))) ∧
      (Returns (fun input => send L message ⟨⟨input, lossFreeRun, []⟩, []⟩) f ↔
        (L.messageLength message).toUInt16 = 0 ∨
          ∃ N, Enough L.retryMax (acknowledges L)
            (visible L.toConfig lossFreeRun (arrived f N))) ∧
      (∀ (s t : Link.State) (g : PhysicalFrame), Link.readFrame L.toConfig s = some (g, t) →
        Takes 1 s.input t.input) ∧
      (∀ (s t : Link.State) (n : Nat) (buffer' : List UInt8),
        receive L buffer s = some (n, buffer', t) → Takes L.retryMax s.input t.input) ∧
      ∀ (s t : Sender) (n : UInt16), send L message s = some (n, t) →
        Takes L.retryMax s.link.input t.link.input := by
  have hread : Returns (fun input => Link.readFrame L.toConfig ⟨input, lossFreeRun, []⟩) f ↔
      ∃ i, gotHeartbeat (f i) = false :=
    (exists_congr fun N => Link.readFrame_returns L.toConfig _).trans
      (Link.exists_visible_iff L.toConfig lossFreeRun f)
  -- `readFrame` waits for one visible frame, the others for as many as their attempts allow.
  refine ⟨hread, ?_, ?_, ?_, ?_, ?_, ?_⟩
  · exact (exists_congr fun N => Link.readAck_returns L.toConfig _).trans hread
  · exact exists_congr fun N =>
      (Link.retries_readRetry L.toConfig).returns L.retryMax (buffer, _)
  · by_cases hzero : (L.messageLength message).toUInt16 = 0
    · exact iff_of_true ⟨0, _, send_zero message hzero _⟩ (.inl hzero)
    · rw [or_iff_right hzero]
      exact exists_congr fun N => (retries_sendRetry message hzero).returns L.retryMax _
  · exact fun s t g => Link.readFrame_takes
  · exact fun s t n buffer' h =>
      (Link.retries_readRetry L.toConfig).takes L.retryMax (buffer, s) (n, buffer', t) h
  · intro s t n h
    by_cases hzero : (L.messageLength message).toUInt16 = 0
    · rw [send_zero message hzero] at h
      cases h
      exact (Takes.refl _).mono (Nat.zero_le _)
    · exact (retries_sendRetry message hzero).takes L.retryMax s (n, t) h

/-- So only heartbeats without end keep a function from returning. -/
theorem returns_of_frequently (L : Layout) (f : Nat → PhysicalFrame) (lossFreeRun : Nat)
    (buffer message : List UInt8) (h : ∀ i, ∃ k, i ≤ k ∧ gotHeartbeat (f k) = false) :
    Returns (fun input => receive L buffer ⟨input, lossFreeRun, []⟩) f ∧
      Returns (fun input => send L message ⟨⟨input, lossFreeRun, []⟩, []⟩) f := by
  constructor
  · rcases Link.enough_of_frequently L.toConfig lossFreeRun f carriesMessage h L.retryMax with
      ⟨N, hN⟩
    exact ⟨N, ((Link.retries_readRetry L.toConfig).returns L.retryMax (buffer, _)).mpr hN⟩
  · by_cases hzero : (L.messageLength message).toUInt16 = 0
    · exact ⟨0, _, send_zero message hzero _⟩
    · rcases Link.enough_of_frequently L.toConfig lossFreeRun f (acknowledges L) h L.retryMax with
        ⟨N, hN⟩
      exact ⟨N, ((retries_sendRetry message hzero).returns L.retryMax _).mpr hN⟩

/-- A stream of heartbeats. -/
def heartbeats (_ : Nat) : PhysicalFrame :=
  .whole (Link.replyHeader slipLayout.toConfig .heartbeat) []

/-- With heartbeats alone, a frame is waited for without end, and an acknowledge
    too. -/
theorem heartbeats_keep_waiting :
    ¬ Returns (fun input => Link.readFrame slipLayout.toConfig ⟨input, 0, []⟩) heartbeats ∧
      ¬ Returns (fun input => send slipLayout blockMessage ⟨⟨input, 0, []⟩, []⟩) heartbeats := by
  -- Of heartbeats alone nothing is visible.
  have hnone : ∀ N, visible slipLayout.toConfig 0 (arrived heartbeats N) = [] := by
    intro N
    refine List.eq_nil_of_length_eq_zero (Nat.eq_zero_of_not_pos fun hpos => ?_)
    rcases (Link.exists_visible_iff slipLayout.toConfig 0 heartbeats).mp ⟨N, hpos⟩ with ⟨i, hi⟩
    have hheartbeat : gotHeartbeat (heartbeats i) = true := rfl
    rw [hheartbeat] at hi
    exact absurd hi.symm Bool.false_ne_true
  constructor
  · rintro ⟨N, hN⟩
    have hpos := (Link.readFrame_returns slipLayout.toConfig _).mp hN
    simp only [hnone] at hpos
    exact Nat.lt_irrefl 0 hpos
  · rintro ⟨N, hN⟩
    have hlength : (slipLayout.messageLength blockMessage).toUInt16 ≠ 0 := by decide
    have henough := ((retries_sendRetry blockMessage hlength).returns slipLayout.retryMax
      ⟨⟨arrived heartbeats N, 0, []⟩, []⟩).mp hN
    simp only [Sender.awaiting, hnone] at henough
    exact Link.enough_nil _ _ henough

end Transfer

end EpollServer
