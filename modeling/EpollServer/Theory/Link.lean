import EpollServer.Core.Sending

/-!
# Only Intact Messages

When `amilinkReadMessage` delivers intact messages only.

The retry loop stops at the first frame for which `readMessage` returns a
length, and that is the first data frame with a payload, whatever its CRC: on
a wrong CRC the message is left alone and a NACK is sent, but the length is
returned all the same. So everything depends on the CRC of that one frame.

The frames that `readFrame` hands out are a function of the frames to come and
of the simulated loss (`visible`), so the frame can be found without running
the functions the contract is about.

## Main definitions

* `visible`: The frames that `readFrame` hands out.
* `carriesMessage`, `intact`: Two tests on a frame.
* `Attempt`, `attempts`: The calls of `readMessage` in the retry loop.
* `Contract`: What the link layer promises for one call.
* `firstMessage`, `FirstIntact`: The condition on the frames.

## Theorems

* `readFrame_some`: One frame handed out.
* `readRetry_some`: What an attempt comes to.
* `readRetry_delivered`: What a returned length says.
* `attempts_refused`: What a NACK says.
* `attempts_first`: The first frame with a message has its attempt.
* `contract_iff`: The equivalence.
* `corrupt_delivered`: A data frame with a wrong CRC is delivered.
-/

namespace EpollServer

namespace Link

/-- The frames that `readFrame` hands out, from a value of `lossFreeRun` on:
    no heartbeats, and nothing in place of a lost frame. -/
def visible (cfg : Config) : Nat → List PhysicalFrame → List PhysicalFrame
  | _, [] => []
  | lossFreeRun, f :: rest =>
      if gotHeartbeat f then visible cfg lossFreeRun rest
      else if 0 < cfg.losePacketInterval then
        if cfg.losePacketInterval ≤ lossFreeRun + 1 then .short 0 :: visible cfg 0 rest
        else f :: visible cfg (lossFreeRun + 1) rest
      else f :: visible cfg lossFreeRun rest

/-- A data frame with a payload. -/
def carriesMessage : PhysicalFrame → Bool
  | .short _ => false
  | .whole header data => decide (header.cmd = .data ∧ data ≠ [])

/-- A frame whose CRC is that of its payload. -/
def intact (cfg : Config) : PhysicalFrame → Bool
  | .short _ => false
  | .whole header data => decide (header.crc16 = cfg.calcCrc16 data cfg.seed)

/-- One call of `readMessage`: what it was given and what it made of it. -/
structure Attempt where
  message : List UInt8
  before : State
  messageLength : Nat
  message' : List UInt8
  after : State

/-- The calls of `readMessage` that `readRetry` makes. -/
def attempts (cfg : Config) : Nat → List UInt8 → State → List Attempt
  | 0, _, _ => []
  | n + 1, message, s => match readMessage cfg message s with
    | none => []
    | some (messageLength, message', t) =>
        ⟨message, s, messageLength, message', t⟩ ::
          if messageLength = 0 then attempts cfg n message' t else []

/-- The reply that a call of `readMessage` sent. -/
def Attempt.replied (cfg : Config) (a : Attempt) (reply : Option Cmd) : Prop :=
  a.after.log = a.before.log ++ replyEvents cfg reply

/-- What the link layer promises for a call of `amilinkReadMessage`: a length
    is returned for an intact data frame only, which was the last one consumed
    and was acknowledged, and a frame answered with a NACK leaves nothing
    behind. -/
structure Contract (cfg : Config) (message : List UInt8) (s : State) : Prop where
  delivered : ∀ n message' t, amilinkReadMessage cfg message s = some (n, message', t) → 0 < n →
    ∃ front header data, s.input = front ++ .whole header data :: t.input ∧
      header.cmd = .data ∧ data.length = n ∧ header.crc16 = cfg.calcCrc16 data cfg.seed ∧
      message'.take n = data ∧ ∃ log, t.log = log ++ replyEvents cfg (some .ack)
  refused : ∀ a ∈ attempts cfg cfg.retryMax message s, a.replied cfg (some .nack) →
    a.messageLength = 0 ∧ a.message' = a.message

/-- The first data frame with a payload among the next `n` visible ones. -/
def firstMessage (cfg : Config) (n : Nat) (s : State) : Option PhysicalFrame :=
  ((visible cfg s.lossFreeRun s.input).take n).find? carriesMessage

/-- The first data frame with a payload that the attempts get to see, if there
    is one, is intact. -/
def FirstIntact (cfg : Config) (s : State) : Prop :=
  ∀ f, firstMessage cfg cfg.retryMax s = some f → intact cfg f = true

/-! ### Sending -/

/-- No attempt is made for a message that is acknowledged. -/
theorem sendRetry_done {m : Type → Type} [Monad m] {α : Type} (p : Port m α) (message : α)
    (length : UInt16) (attempts : Nat) :
    sendRetry p message length attempts length = pure length := by
  cases attempts with
  | zero => rfl
  | succ attempts => rw [sendRetry, if_pos rfl]

/-! ### Reading a frame -/

/-- Skipping heartbeats does not change what is visible, and ends at a frame
    that is none. -/
theorem skipHeartbeats_some (cfg : Config) (lossFreeRun : Nat) :
    ∀ (input rest : List PhysicalFrame) (g : PhysicalFrame),
      skipHeartbeats input = some (g, rest) →
      gotHeartbeat g = false ∧ (∃ front, input = front ++ g :: rest) ∧
        visible cfg lossFreeRun input = visible cfg lossFreeRun (g :: rest) := by
  -- Induction on the input, whose heartbeats in front are passed over.
  intro input
  induction input with
  | nil =>
      intro rest g h
      simp only [skipHeartbeats, reduceCtorEq] at h
  | cons f input ih =>
      intro rest g h
      rw [skipHeartbeats] at h
      by_cases hf : gotHeartbeat f = true
      · rw [if_pos hf] at h
        rcases ih rest g h with ⟨hg, ⟨front, hfront⟩, hvis⟩
        refine ⟨hg, ⟨f :: front, by rw [hfront, List.cons_append]⟩, ?_⟩
        rw [← hvis, visible, if_pos hf]
      · rw [if_neg hf, Option.some.injEq, Prod.mk.injEq] at h
        rcases h with ⟨rfl, rfl⟩
        exact ⟨Bool.eq_false_iff.mpr hf, ⟨[], rfl⟩, rfl⟩

theorem skipHeartbeats_none (cfg : Config) (lossFreeRun : Nat) :
    ∀ input : List PhysicalFrame, skipHeartbeats input = none →
      visible cfg lossFreeRun input = [] := by
  intro input
  -- Induction on the input: without a frame behind them, all are heartbeats.
  induction input with
  | nil => exact fun _ => rfl
  | cons f input ih =>
      intro h
      rw [skipHeartbeats] at h
      by_cases hf : gotHeartbeat f = true
      · rw [if_pos hf] at h
        rw [visible, if_pos hf, ih h]
      · rw [if_neg hf] at h
        exact absurd h (Option.some_ne_none _)

/-- A frame that `readFrame` returns is the next visible one, and stands for
    the last one consumed unless that was lost. -/
theorem readFrame_some {cfg : Config} {s t : State} {f : PhysicalFrame}
    (h : readFrame cfg s = some (f, t)) :
    visible cfg s.lossFreeRun s.input = f :: visible cfg t.lossFreeRun t.input ∧
      (∃ front g, s.input = front ++ g :: t.input ∧ (f = g ∨ f = .short 0)) ∧
      t.log = s.log := by
  rw [readFrame] at h
  -- Behind the heartbeats there is a frame, or the read waits.
  cases hskip : skipHeartbeats s.input with
  | none =>
      rw [hskip] at h
      exact absurd h.symm (Option.some_ne_none _)
  | some r =>
      rcases r with ⟨g, rest⟩
      rcases skipHeartbeats_some cfg s.lossFreeRun s.input rest g hskip with
        ⟨hg, ⟨front, hfront⟩, hvis⟩
      rw [visible, if_neg (Bool.eq_false_iff.mp hg)] at hvis
      rw [hskip] at h
      simp only at h
      by_cases hlose : 0 < cfg.losePacketInterval
      · rw [if_pos hlose] at h hvis
        by_cases hnow : cfg.losePacketInterval ≤ s.lossFreeRun + 1
        · -- The frame is consumed, and an empty one is handed out for it.
          rw [if_pos hnow, Option.some.injEq, Prod.mk.injEq] at h
          rw [if_pos hnow] at hvis
          rcases h with ⟨rfl, rfl⟩
          exact ⟨hvis, ⟨front, g, hfront, Or.inr rfl⟩, rfl⟩
        · -- The interval is not reached, so the frame itself is handed out.
          rw [if_neg hnow, Option.some.injEq, Prod.mk.injEq] at h
          rw [if_neg hnow] at hvis
          rcases h with ⟨rfl, rfl⟩
          exact ⟨hvis, ⟨front, g, hfront, Or.inl rfl⟩, rfl⟩
      · -- Loss is off.
        rw [if_neg hlose, Option.some.injEq, Prod.mk.injEq] at h
        rw [if_neg hlose] at hvis
        rcases h with ⟨rfl, rfl⟩
        exact ⟨hvis, ⟨front, g, hfront, Or.inl rfl⟩, rfl⟩

theorem readFrame_none {cfg : Config} {s : State} (h : readFrame cfg s = none) :
    visible cfg s.lossFreeRun s.input = [] := by
  rw [readFrame] at h
  cases hskip : skipHeartbeats s.input with
  | none => exact skipHeartbeats_none cfg s.lossFreeRun s.input hskip
  | some r =>
      rw [hskip] at h
      simp only at h
      -- Behind the heartbeats there is a frame, and a read of it always returns.
      by_cases hlose : 0 < cfg.losePacketInterval
      · rw [if_pos hlose] at h
        by_cases hnow : cfg.losePacketInterval ≤ s.lossFreeRun + 1
        · rw [if_pos hnow] at h
          exact absurd h (Option.some_ne_none _)
        · rw [if_neg hnow] at h
          exact absurd h (Option.some_ne_none _)
      · rw [if_neg hlose] at h
        exact absurd h (Option.some_ne_none _)

/-! ### One frame -/

/-- A length is returned for a data frame with a payload, and for nothing
    else. -/
theorem handleFrame_length (cfg : Config) (message : List UInt8) (f : PhysicalFrame) :
    (handleFrame cfg message f).1 = 0 ↔ carriesMessage f = false := by
  cases f with
  | short rawLength => exact ⟨fun _ => rfl, fun _ => rfl⟩
  | whole header data =>
      rw [carriesMessage, decide_eq_false_iff_not, handleFrame]
      by_cases hcmd : header.cmd = .data
      · rw [if_pos hcmd]
        by_cases hcrc : header.crc16 = cfg.calcCrc16 data cfg.seed
        · simp only [hcrc, if_true, List.length_eq_zero_iff, hcmd, true_and, ne_eq, not_not]
        · simp only [hcrc, if_false, List.length_eq_zero_iff, hcmd, true_and, ne_eq, not_not]
      · simp only [hcmd, if_false, false_and, not_false_eq_true]

/-- An intact data frame: its payload is the message, and an ACK is sent. -/
theorem handleFrame_intact (cfg : Config) (message data : List UInt8) (header : Header)
    (hcmd : header.cmd = .data) (hcrc : header.crc16 = cfg.calcCrc16 data cfg.seed) :
    handleFrame cfg message (.whole header data) =
      (data.length, data ++ message.drop data.length, some .ack) := by
  rw [handleFrame, if_pos hcmd]
  simp only [hcrc, if_true]

/-- Any other data frame: its length is returned, and a NACK is sent. -/
theorem handleFrame_corrupt (cfg : Config) (message data : List UInt8) (header : Header)
    (hcmd : header.cmd = .data) (hcrc : header.crc16 ≠ cfg.calcCrc16 data cfg.seed) :
    handleFrame cfg message (.whole header data) = (data.length, message, some .nack) := by
  rw [handleFrame, if_pos hcmd]
  simp only [hcrc, if_false]

/-- Only a NACK leaves the log of a NACK. -/
theorem replyEvents_nack {cfg : Config} {reply : Option Cmd}
    (h : replyEvents cfg reply = replyEvents cfg (some .nack)) : reply = some .nack := by
  cases reply with
  | none => exact absurd h (List.cons_ne_nil _ _).symm
  | some cmd =>
      simp only [replyEvents, replyHeader, List.cons.injEq, Event.sendHeader.injEq,
        Header.mk.injEq, true_and, and_true] at h
      rw [h]

/-- A NACK is sent for a data frame with a wrong CRC only. -/
theorem handleFrame_nack {cfg : Config} {message : List UInt8} {f : PhysicalFrame}
    (h : (handleFrame cfg message f).2.2 = some .nack) :
    ∃ header data, f = .whole header data ∧ header.cmd = .data ∧
      header.crc16 ≠ cfg.calcCrc16 data cfg.seed := by
  cases f with
  | short rawLength => exact absurd h.symm (Option.some_ne_none _)
  | whole header data =>
      by_cases hcmd : header.cmd = .data
      · by_cases hcrc : header.crc16 = cfg.calcCrc16 data cfg.seed
        · rw [handleFrame_intact cfg message data header hcmd hcrc] at h
          simp only [Option.some.injEq, reduceCtorEq] at h
        · exact ⟨header, data, rfl, hcmd, hcrc⟩
      · rw [handleFrame, if_neg hcmd] at h
        exact absurd h.symm (Option.some_ne_none _)

theorem readMessage_some {cfg : Config} {s t : State} {f : PhysicalFrame} (message : List UInt8)
    (h : readFrame cfg s = some (f, t)) :
    readMessage cfg message s =
      some ((handleFrame cfg message f).1, (handleFrame cfg message f).2.1,
        { t with log := t.log ++ replyEvents cfg (handleFrame cfg message f).2.2 }) := by
  rw [readMessage, h]

theorem readMessage_none {cfg : Config} {s : State} (message : List UInt8)
    (h : readFrame cfg s = none) : readMessage cfg message s = none := by
  rw [readMessage, h]

/-! ### The retry loop -/

theorem firstMessage_now {cfg : Config} {n : Nat} {s t : State} {f : PhysicalFrame}
    (h : readFrame cfg s = some (f, t)) (hf : carriesMessage f = true) :
    firstMessage cfg (n + 1) s = some f := by
  rw [firstMessage, (readFrame_some h).1, List.take_succ_cons, List.find?_cons_of_pos hf]

theorem firstMessage_later {cfg : Config} {n : Nat} {s t : State} {f : PhysicalFrame}
    (log : List Event) (h : readFrame cfg s = some (f, t)) (hf : carriesMessage f = false) :
    firstMessage cfg (n + 1) s = firstMessage cfg n { t with log := log } := by
  rw [firstMessage, (readFrame_some h).1, List.take_succ_cons,
    List.find?_cons_of_neg (by rw [hf]; exact Bool.false_ne_true)]
  rfl

theorem firstMessage_carries {cfg : Config} {n : Nat} {s : State} {f : PhysicalFrame}
    (h : firstMessage cfg n s = some f) : carriesMessage f = true := List.find?_some h

/-- An intact frame that carries a message is a data frame with the CRC of its
    payload. -/
theorem whole_of_carriesMessage {f : PhysicalFrame} (hf : carriesMessage f = true) :
    ∃ header data, f = .whole header data ∧ header.cmd = .data ∧ data ≠ [] := by
  cases f with
  | short rawLength => exact absurd hf Bool.false_ne_true
  | whole header data =>
      rw [carriesMessage, decide_eq_true_eq] at hf
      exact ⟨header, data, rfl, hf.1, hf.2⟩

/-- What an attempt of `amilinkReadMessage` comes to: its length is returned, or
    there is none and the loop goes on. -/
theorem readRetry_some {cfg : Config} {attempts : Nat} {message : List UInt8} {s : State}
    {r : Nat × List UInt8 × State} (h : readRetry cfg (attempts + 1) message s = some r) :
    ∃ n message' t, readMessage cfg message s = some (n, message', t) ∧
      ((n ≠ 0 ∧ r = (n, message', t)) ∨
        (n = 0 ∧ readRetry cfg attempts message' t = some r)) := by
  rw [readRetry] at h
  cases hread : readMessage cfg message s with
  | none =>
      rw [hread] at h
      exact absurd h.symm (Option.some_ne_none _)
  | some read =>
      rcases read with ⟨n, message', t⟩
      refine ⟨n, message', t, rfl, ?_⟩
      rw [hread] at h
      -- An attempt that returned no length is followed by the next one.
      by_cases hzero : n = 0
      · exact .inr ⟨hzero, (if_pos hzero).symm.trans h⟩
      · exact .inl ⟨hzero, Option.some.inj (h.symm.trans (if_neg hzero))⟩

/-- If the first frame with a message is intact, a returned length is that of
    its payload. The induction is on the attempts left; an attempt without a
    length has consumed a frame that is not the one. -/
theorem readRetry_delivered (cfg : Config) : ∀ (k : Nat) (message : List UInt8) (s : State),
    (∀ f, firstMessage cfg k s = some f → intact cfg f = true) →
    ∀ n message' t, readRetry cfg k message s = some (n, message', t) → 0 < n →
      ∃ front header data, s.input = front ++ .whole header data :: t.input ∧
        header.cmd = .data ∧ data.length = n ∧ header.crc16 = cfg.calcCrc16 data cfg.seed ∧
        message'.take n = data ∧ ∃ log, t.log = log ++ replyEvents cfg (some .ack) := by
  intro k
  induction k with
  | zero =>
      intro message s _ n message' t h hn
      rw [readRetry, Option.some.injEq, Prod.mk.injEq] at h
      exact absurd h.1.symm (Nat.ne_of_gt hn)
  | succ k ih =>
      intro message s hfirst n message' t h hn
      rw [readRetry] at h
      cases hread : readFrame cfg s with
      | none =>
          rw [readMessage_none message hread] at h
          exact absurd h.symm (Option.some_ne_none _)
      | some r =>
          rcases r with ⟨f, u⟩
          rcases (readFrame_some hread).2.1 with ⟨front, g, hfront, hg⟩
          rw [readMessage_some message hread] at h
          simp only at h
          cases hf : carriesMessage f with
          | false =>
              -- No length: the loop goes on with the frames behind this one.
              rw [if_pos ((handleFrame_length cfg message f).mpr hf)] at h
              rw [firstMessage_later _ hread hf] at hfirst
              rcases ih _ _ hfirst n message' t h hn with ⟨front', header, data, hinput, hrest⟩
              refine ⟨front ++ g :: front', header, data, ?_, hrest⟩
              rw [hfront, List.append_assoc, List.cons_append]
              exact congrArg (fun l => front ++ g :: l) hinput
          | true =>
              -- This is the first frame with a message, so its CRC fits.
              have hcrc := hfirst f (firstMessage_now hread hf)
              rcases whole_of_carriesMessage hf with ⟨header, data, rfl, hcmd, hne⟩
              rw [intact, decide_eq_true_eq] at hcrc
              -- It was not lost: a lost frame is handed out empty.
              have hg' : PhysicalFrame.whole header data = g :=
                hg.resolve_right PhysicalFrame.noConfusion
              rw [handleFrame_intact cfg message data header hcmd hcrc,
                if_neg (fun hz => hne (List.length_eq_zero_iff.mp hz)), Option.some.injEq,
                Prod.mk.injEq, Prod.mk.injEq] at h
              rcases h with ⟨rfl, rfl, rfl⟩
              refine ⟨front, header, data, ?_, hcmd, rfl, hcrc, List.take_left, u.log, rfl⟩
              rw [hfront, hg']

/-- If the first frame with a message is intact, a NACK answers a frame without
    one. -/
theorem attempts_refused (cfg : Config) : ∀ (k : Nat) (message : List UInt8) (s : State),
    (∀ f, firstMessage cfg k s = some f → intact cfg f = true) →
    ∀ a ∈ attempts cfg k message s, a.replied cfg (some .nack) →
      a.messageLength = 0 ∧ a.message' = a.message := by
  -- Induction on the attempts that are left.
  intro k
  induction k with
  | zero => exact fun _ _ _ a ha => absurd ha List.not_mem_nil
  | succ k ih =>
      intro message s hfirst a ha hnack
      rw [attempts] at ha
      cases hread : readFrame cfg s with
      | none =>
          rw [readMessage_none message hread] at ha
          exact absurd ha List.not_mem_nil
      | some r =>
          rcases r with ⟨f, u⟩
          rw [readMessage_some message hread] at ha
          rcases List.mem_cons.mp ha with rfl | hlater
          · -- This attempt: the frame has a wrong CRC, so it is not the intact one.
            rw [Attempt.replied] at hnack
            rw [(readFrame_some hread).2.2] at hnack
            rcases handleFrame_nack (replyEvents_nack (List.append_cancel_left hnack)) with
              ⟨header, data, rfl, hcmd, hcrc⟩
            cases hf : carriesMessage (.whole header data) with
            | true =>
                have hok := hfirst _ (firstMessage_now hread hf)
                rw [intact, decide_eq_true_eq] at hok
                exact absurd hok hcrc
            | false =>
                refine ⟨(handleFrame_length cfg message _).mpr hf, ?_⟩
                rw [handleFrame_corrupt cfg message data header hcmd hcrc]
          · -- A later attempt: this one has returned no length.
            cases hf : carriesMessage f with
            | true =>
                have hne : (handleFrame cfg message f).1 ≠ 0 := by
                  rw [Ne, handleFrame_length, hf]
                  decide
                rw [if_neg hne] at hlater
                exact absurd hlater List.not_mem_nil
            | false =>
                rw [if_pos ((handleFrame_length cfg message f).mpr hf)] at hlater
                rw [firstMessage_later _ hread hf] at hfirst
                exact ih _ _ hfirst a hlater hnack

/-- The first frame with a message is read by one of the attempts. -/
theorem attempts_first (cfg : Config) : ∀ (k : Nat) (message : List UInt8) (s : State)
    (f : PhysicalFrame), firstMessage cfg k s = some f →
    ∃ a ∈ attempts cfg k message s, a.messageLength = (handleFrame cfg a.message f).1 ∧
      a.replied cfg (handleFrame cfg a.message f).2.2 := by
  -- Induction on the attempts that are left; the first message ends them.
  intro k
  induction k with
  | zero =>
      intro message s f h
      rw [firstMessage, List.take_zero, List.find?_nil] at h
      exact absurd h.symm (Option.some_ne_none _)
  | succ k ih =>
      intro message s f h
      rw [attempts]
      cases hread : readFrame cfg s with
      | none =>
          rw [firstMessage, readFrame_none hread, List.take_nil, List.find?_nil] at h
          exact absurd h.symm (Option.some_ne_none _)
      | some r =>
          rcases r with ⟨g, u⟩
          rw [readMessage_some message hread]
          cases hg : carriesMessage g with
          | true =>
              rw [firstMessage_now hread hg, Option.some.injEq] at h
              subst h
              refine ⟨_, List.mem_cons_self, rfl, ?_⟩
              rw [Attempt.replied, ← (readFrame_some hread).2.2]
          | false =>
              rw [firstMessage_later _ hread hg] at h
              rcases ih (handleFrame cfg message g).2.1 _ f h with ⟨a, ha, hlen, hreply⟩
              refine ⟨a, List.mem_cons_of_mem _ ?_, hlen, hreply⟩
              rw [if_pos ((handleFrame_length cfg message g).mpr hg)]
              exact ha

/-! ### The contract -/

/-- The contract holds of a call exactly when the first data frame with a
    payload that it gets to see is intact. -/
theorem contract_iff (cfg : Config) (message : List UInt8) (s : State) :
    Contract cfg message s ↔ FirstIntact cfg s := by
  constructor
  · intro hcontract f hf
    rcases attempts_first cfg cfg.retryMax message s f hf with ⟨a, ha, hlen, hreply⟩
    have hcarries := firstMessage_carries hf
    rcases whole_of_carriesMessage hcarries with ⟨header, data, rfl, hcmd, hne⟩
    -- Were its CRC wrong, its attempt would send a NACK and return its length.
    by_contra hcrc
    rw [intact, decide_eq_true_eq] at hcrc
    rw [handleFrame_corrupt cfg a.message data header hcmd hcrc] at hlen hreply
    have hzero := (hcontract.refused a ha hreply).1
    rw [hlen] at hzero
    exact hne (List.length_eq_zero_iff.mp hzero)
  · intro hfirst
    exact ⟨readRetry_delivered cfg cfg.retryMax message s hfirst,
      attempts_refused cfg cfg.retryMax message s hfirst⟩

/-- A link whose CRC is the seed plus the sum of the bytes. -/
def sumConfig : Config :=
  { retryMax := 3, seed := 0xFFFF, losePacketInterval := 0,
    calcCrc16 := fun data seed => data.foldl (fun crc b => crc + b.toUInt16) seed }

/-- A single data frame with a wrong CRC: one byte is delivered after a NACK,
    and it is not the byte of the frame. -/
theorem corrupt_delivered :
    ¬ Contract sumConfig [9] ⟨[.whole { crc16 := 0, cmd := .data } [7]], 0, []⟩ := by
  intro hcontract
  have hread : amilinkReadMessage sumConfig [9]
      ⟨[.whole { crc16 := 0, cmd := .data } [7]], 0, []⟩ =
        some (1, [9], ⟨[], 0, replyEvents sumConfig (some .nack)⟩) := by decide +kernel
  rcases hcontract.delivered _ _ _ hread Nat.one_pos with
    ⟨front, header, data, hinput, _, _, _, htake, _⟩
  have hlast := congrArg List.getLast? hinput
  rw [List.getLast?_concat] at hlast
  simp only [List.getLast?_singleton, Option.some.injEq, PhysicalFrame.whole.injEq] at hlast
  rw [← hlast.2] at htake
  exact absurd htake (by decide)

end Link

end EpollServer
