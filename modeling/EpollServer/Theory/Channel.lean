import EpollServer.Core.Channel
import EpollServer.Lib.Copies
import EpollServer.Lib.ListModify
import EpollServer.Theory.Link

/-!
# Delivery without Sequence Numbers

What the link promises of a message that is sent, and of a send that is
reported.

The receiver delivers every intact copy it gets and the sender takes every ACK
it reads for its own, so neither at-most-once delivery nor a delivery behind
every reported send can be had. What is left is a matter of counting: no copy
is delivered twice, and no ACK is read twice. The counts of one call are a
`Tally`, and each step of the link is a move of it (`step_move`).

A step is first reduced to what it does to readable data frames and to ACKs
(`Effect`), because that is all that counts: a lost frame, a corrupted one and
a NACK that is read are the same to everyone who waits for a message.

## Main definitions

* `Fades`: Nothing new of one kind in a channel.
* `Effect`: What a step does to readable frames and ACKs.
* `Sending`: What holds of the running call.
* `Justified`: What holds of a call that has returned.
* `Inv`: The invariant.
* `tally`: The counts of a call.

## Theorems

* `reads_amilinkReadMessage`: The receiver runs `amilinkReadMessage`.
* `effect_of_step`: The inversion of a step.
* `inv_of_reaches`: The invariant holds throughout.
* `sound_of_reaches`: So do the bounds on the counts.
* `deliveries_bounded`: How often a message is delivered.
* `delivered_twice`: A message that is delivered twice.
* `returned_justified`: What a reported send says.
* `returned_undelivered`: A reported send of a message that was lost.
-/

namespace EpollServer

namespace Channel

open Link

variable {cfg : Config} {s t u : State}

/-- Of the frames that satisfy `p`, the second channel has none that the first
    one has not. -/
def Fades (p : PhysicalFrame → Bool) (l l' : List Copy) : Prop :=
  (l'.filter fun x => p x.frame).Sublist (l.filter fun x => p x.frame)

/-- The receiver's state after an intact frame with this payload. -/
def accept (cfg : Config) (s : State) (x : Copy) (data : List UInt8) : State :=
  { s with
    backward := s.backward ++ [⟨.whole (replyHeader cfg .ack) [], x.call⟩],
    retry := 0,
    message := data ++ s.message.drop data.length,
    delivered := s.delivered ++ [⟨x.call, data, true⟩] }

/-- What a step does to readable data frames and to ACKs. -/
inductive Effect (cfg : Config) (s : State) : State → Prop where
  /-- Some are gone, and nothing else has happened to them. -/
  | faded (f b : List Copy) (retry : Nat) (message : List UInt8) (ds : List Delivery)
      (hf : Fades (readable cfg) s.forward f) (hb : Fades (isAck cfg) s.backward b)
      (hds : ∀ d ∈ ds, d.acknowledged = false) :
      Effect cfg s { s with
        forward := f, backward := b, retry := retry, message := message,
        delivered := s.delivered ++ ds }
  | begun (message : List UInt8) (hidle : s.sender = none) (hne : message ≠ []) :
      Effect cfg s (linkSendRetry cfg { s with calls := s.calls ++ [message] }
        ⟨s.calls.length, message, 0, s.isQuiet cfg⟩ 0 none)
  /-- No ACK was read. -/
  | refused (k : Call) (b : List Copy) (hk : s.sender = some k)
      (hb : Fades (isAck cfg) s.backward b) :
      Effect cfg s (linkSendRetry cfg { s with backward := b } k 0 none)
  | acked (k : Call) (x : Copy) (rest : List Copy) (hk : s.sender = some k)
      (hb : s.backward = x :: rest) (hx : isAck cfg x.frame = true) :
      Effect cfg s { s with
        backward := rest, sender := none,
        returned := s.returned ++ [⟨k.number, k.message.length, some x.call, k.quiet⟩] }
  | accepted (x : Copy) (rest : List Copy) (data : List UInt8) (hf : s.forward = x :: rest)
      (hx : x.frame = dataFrame cfg data) (hne : data ≠ []) :
      Effect cfg s (accept cfg { s with forward := rest } x data)

/-- What holds of the running call. -/
structure Sending (cfg : Config) (s : State) (k : Call) : Prop where
  number : k.number + 1 = s.calls.length
  message : s.calls[k.number]? = some k.message
  nonempty : k.message ≠ []
  retry : s.transmitted.count k.number = k.retry
  quietForward : k.quiet = true → ∀ x ∈ s.forward, readable cfg x.frame = true →
    x.call = k.number
  quietBackward : k.quiet = true → ∀ x ∈ s.backward, isAck cfg x.frame = true →
    x.call = k.number

/-- What a call that has returned a length has to show for it. -/
def Justified (s : State) (r : Return) : Prop :=
  0 < r.dataSent →
    (∃ message, s.calls[r.call]? = some message ∧ message.length = r.dataSent) ∧
      ∃ c, r.answered = some c ∧ c ≤ r.call ∧ (r.quiet = true → c = r.call)

/-- The invariant: readable frames are the messages of their calls, ACKs and
    transmissions belong to calls, and calls are within their limit. -/
structure Inv (cfg : Config) (s : State) : Prop where
  readable : ∀ x ∈ s.forward, readable cfg x.frame = true →
    ∃ message, s.calls[x.call]? = some message ∧ message ≠ [] ∧ x.frame = dataFrame cfg message
  delivered : ∀ d ∈ s.delivered, d.acknowledged = true → s.calls[d.call]? = some d.message
  acks : ∀ x ∈ s.backward, isAck cfg x.frame = true → x.call < s.calls.length
  transmitted : ∀ c ∈ s.transmitted, c < s.calls.length
  limit : ∀ c, s.transmitted.count c ≤ cfg.retryMax
  sending : ∀ k, s.sender = some k → Sending cfg s k
  returned : ∀ r ∈ s.returned, Justified s r

/-- The counts of a call. -/
def tally (cfg : Config) (s : State) (c : Nat) : Tally :=
  { sent := s.transmitted.count c,
    onWay := s.onWay cfg c,
    delivered := s.deliveries c,
    late := s.late.count c,
    acks := s.acks cfg c,
    answers := s.answers c }

/-! ### Frames -/

/-- The reply depends on the frame only. -/
theorem handleFrame_reply (cfg : Config) (message message' : List UInt8) (f : PhysicalFrame) :
    (handleFrame cfg message f).2.2 = (handleFrame cfg message' f).2.2 := by
  cases f with
  | short rawLength => rfl
  | whole header data =>
      rw [handleFrame, handleFrame]
      by_cases hcmd : header.cmd = .data
      · rw [if_pos hcmd, if_pos hcmd]
        by_cases hcrc : header.crc16 = cfg.calcCrc16 data cfg.seed
        · rw [if_pos hcrc, if_pos hcrc]
        · rw [if_neg hcrc, if_neg hcrc]
      · rw [if_neg hcmd, if_neg hcmd]

theorem handleFrame_dataFrame (cfg : Config) (message data : List UInt8) :
    handleFrame cfg message (dataFrame cfg data) =
      (data.length, data ++ message.drop data.length, some .ack) :=
  handleFrame_intact cfg message data _ rfl rfl

theorem readable_dataFrame (cfg : Config) (data : List UInt8) :
    readable cfg (dataFrame cfg data) = true := by
  rw [readable, handleFrame_dataFrame, decide_eq_true_eq]

theorem isAck_reply (cfg : Config) (cmd : Cmd) :
    isAck cfg (.whole (replyHeader cfg cmd) []) = decide (cmd = .ack) := by
  by_cases hack : cmd = .ack
  · simp only [isAck, ackOf, replyHeader, hack, and_self, if_true, decide_true]
  · simp only [isAck, ackOf, replyHeader, hack, and_false, if_false, ite_self, reduceCtorEq,
      decide_false]

theorem isAck_short (cfg : Config) (n : Nat) : isAck cfg (.short n) = false := by
  simp only [isAck, ackOf, reduceCtorEq, decide_false]

theorem readable_short (cfg : Config) (n : Nat) : readable cfg (.short n) = false := by
  simp only [readable, handleFrame, reduceCtorEq, decide_false]

/-! ### Fading channels -/

theorem fades_refl (p : PhysicalFrame → Bool) (l : List Copy) : Fades p l l :=
  List.Sublist.refl _

theorem fades_of_sublist (p : PhysicalFrame → Bool) {l l' : List Copy} (h : l'.Sublist l) :
    Fades p l l' := h.filter _

theorem fades_tail (p : PhysicalFrame → Bool) (x : Copy) (rest : List Copy) :
    Fades p (x :: rest) rest := fades_of_sublist p (List.sublist_cons_self x rest)

theorem fades_corrupt {p : PhysicalFrame → Bool} {f : PhysicalFrame} (hf : p f = false)
    (l : List Copy) (i : Nat) : Fades p l (l.modify i fun x => { x with frame := f }) :=
  ListModify.filter_modify_sublist (fun x : Copy => p x.frame) (fun x => { x with frame := f })
    (fun _ => hf) l i

/-- Frames that do not satisfy `p` may be added. -/
theorem fades_append {p : PhysicalFrame → Bool} (l l' : List Copy)
    (h : ∀ x ∈ l', p x.frame = false) : Fades p l (l ++ l') := by
  have hnil : l'.filter (fun x => p x.frame) = [] :=
    List.filter_eq_nil_iff.mpr fun x hx => Bool.eq_false_iff.mp (h x hx)
  rw [Fades, List.filter_append, hnil, List.append_nil]

theorem mem_of_fades {p : PhysicalFrame → Bool} {l l' : List Copy} (h : Fades p l l') {x : Copy}
    (hx : x ∈ l') (hp : p x.frame = true) : x ∈ l :=
  List.mem_of_mem_filter (h.subset (List.mem_filter.mpr ⟨hx, hp⟩))

/-- No call has more of them than before. -/
theorem countP_of_fades {p : PhysicalFrame → Bool} {l l' : List Copy} (h : Fades p l l') (c : Nat) :
    l'.countP (fun x => decide (x.call = c) && p x.frame) ≤
      l.countP fun x => decide (x.call = c) && p x.frame := by
  have hle := h.countP_le (p := fun x : Copy => decide (x.call = c))
  rw [List.countP_filter, List.countP_filter] at hle
  exact hle

/-! ### The receiver -/

theorem receive_message (x : Copy) :
    (receive cfg s x).message = (handleFrame cfg s.message x.frame).2.1 := rfl

theorem receive_delivered (x : Copy) :
    (receive cfg s x).delivered =
      if (handleFrame cfg s.message x.frame).1 = 0 then s.delivered
      else s.delivered ++ [⟨x.call, (receive cfg s x).message.take
        (handleFrame cfg s.message x.frame).1,
        decide ((handleFrame cfg s.message x.frame).2.2 = some .ack)⟩] := rfl

/-- The receiver reads on. -/
def Reads (cfg : Config) (s t : State) : Prop :=
  (machine cfg).ReachesBy (fun _ a => a = .readMessage) s t

/-- Heartbeats are skipped by the receiver as by `readFrame`. -/
theorem reads_skipHeartbeats (hretry : s.retry < cfg.retryMax) : ∀ (forward : List Copy)
    (f : PhysicalFrame) (input : List PhysicalFrame),
    skipHeartbeats (forward.map Copy.frame) = some (f, input) →
    ∃ x rest, Reads cfg { s with forward := forward } { s with forward := x :: rest } ∧
      x.frame = f ∧ rest.map Copy.frame = input ∧ gotHeartbeat f = false := by
  -- Induction on the copies on their way, whose heartbeats in front are passed over.
  intro forward
  induction forward with
  | nil =>
      intro f input h
      simp only [List.map_nil, skipHeartbeats, reduceCtorEq] at h
  | cons x rest ih =>
      intro f input h
      rw [List.map_cons, skipHeartbeats] at h
      by_cases hheart : gotHeartbeat x.frame = true
      · -- One step of the receiver for each heartbeat.
        rw [if_pos hheart] at h
        rcases ih f input h with ⟨y, rest', hreads, hrest⟩
        refine ⟨y, rest', Machine.reachesBy_head (a := .readMessage) rfl ?_ hreads, hrest⟩
        simp only [machine, step, hretry, hheart, if_true]
      · rw [if_neg hheart, Option.some.injEq, Prod.mk.injEq] at h
        exact ⟨x, rest, Machine.ReachesBy.refl, h.1, h.2, h.1 ▸ Bool.eq_false_iff.mpr hheart⟩

/-- A call of `readMessage` is a pass of the receiver. -/
theorem reads_readMessage (hloss : cfg.losePacketInterval ≤ 0) (hretry : s.retry < cfg.retryMax)
    {run : Nat} {log : List Event} {n : Nat} {message' : List UInt8} {t : Link.State}
    (h : Link.readMessage cfg s.message ⟨s.forward.map Copy.frame, run, log⟩ =
      some (n, message', t)) :
    ∃ u, Reads cfg s u ∧ u.forward.map Copy.frame = t.input ∧ t.lossFreeRun = run ∧
      u.message = message' ∧
      u.retry = (if s.retry + 1 < cfg.retryMax ∧ n = 0 then s.retry + 1 else 0) ∧
      u.delivered.map Delivery.message =
        s.delivered.map Delivery.message ++ if n = 0 then [] else [message'.take n] := by
  cases hskip : skipHeartbeats (s.forward.map Copy.frame) with
  | none =>
      -- Nothing but heartbeats is under way, so `readFrame` does not return.
      rw [readMessage_none s.message (by rw [readFrame, hskip])] at h
      exact absurd h.symm (Option.some_ne_none _)
  | some r =>
      rcases r with ⟨f, input⟩
      have hread : readFrame cfg ⟨s.forward.map Copy.frame, run, log⟩ =
          some (f, ⟨input, run, log⟩) := by
        simp only [readFrame, hskip, if_neg (Int.not_lt.mpr hloss)]
      rw [readMessage_some s.message hread, Option.some.injEq, Prod.mk.injEq,
        Prod.mk.injEq] at h
      rcases h with ⟨rfl, rfl, rfl⟩
      -- The heartbeats first, and then the frame itself.
      rcases reads_skipHeartbeats hretry s.forward f input hskip with
        ⟨x, rest, hreads, rfl, hrest, hheart⟩
      refine ⟨receive cfg { s with forward := rest } x, ?_, hrest, rfl, rfl, rfl, ?_⟩
      · refine Machine.ReachesBy.step _ _ .readMessage hreads rfl ?_
        simp only [machine, step, hretry, hheart, if_true, Bool.false_eq_true, if_false]
      · rw [receive_delivered, receive_message]
        -- A call that read nothing delivers nothing.
        by_cases hlen : (handleFrame cfg s.message x.frame).1 = 0
        · simp only [hlen, if_true, List.append_nil]
        · simp only [hlen, if_false, List.map_append, List.map_cons, List.map_nil]

/-- The receiver's steps are the attempts of `amilinkReadMessage`: with so many
    left, it comes to deliver what `readRetry` returns, and begins its next
    call. The induction is on the attempts left. -/
theorem reads_readRetry (hloss : cfg.losePacketInterval ≤ 0) : ∀ (k run : Nat)
    (log : List Event) (s : State), s.retry + (k + 1) = cfg.retryMax → ∀ n message' t,
      readRetry cfg (k + 1) s.message ⟨s.forward.map Copy.frame, run, log⟩ =
        some (n, message', t) →
      ∃ u, Reads cfg s u ∧ u.forward.map Copy.frame = t.input ∧ u.message = message' ∧
        u.retry = 0 ∧ u.delivered.map Delivery.message =
          s.delivered.map Delivery.message ++ if n = 0 then [] else [message'.take n] := by
  intro k
  induction k with
  | zero =>
      intro run log s hk n message' t h
      rcases readRetry_some h with ⟨n₁, message₁, t₁, hmsg, hattempt⟩
      rcases reads_readMessage hloss (by omega) hmsg with
        ⟨u, hu, hinput, _, hmessage, hretry, hdelivered⟩
      rw [if_neg (by omega)] at hretry
      -- The last attempt: the call returns whatever it brings.
      have hlast : (n, message', t) = (n₁, message₁, t₁) := by
        rcases hattempt with ⟨_, hlast⟩ | ⟨hzero, hnext⟩
        · exact hlast
        · rw [readRetry, Option.some.injEq] at hnext
          rw [← hnext, hzero]
      rw [Prod.mk.injEq, Prod.mk.injEq] at hlast
      rcases hlast with ⟨rfl, rfl, rfl⟩
      exact ⟨u, hu, hinput, hmessage, hretry, hdelivered⟩
  | succ k ih =>
      intro run log s hk n message' t h
      rcases readRetry_some h with ⟨n₁, message₁, t₁, hmsg, hattempt⟩
      rcases reads_readMessage hloss (by omega) hmsg with
        ⟨u, hu, hinput, hrun, hmessage, hretry, hdelivered⟩
      rcases hattempt with ⟨hne, hlast⟩ | ⟨hzero, hnext⟩
      · rw [Prod.mk.injEq, Prod.mk.injEq] at hlast
        rcases hlast with ⟨rfl, rfl, rfl⟩
        rw [if_neg (fun hboth => hne hboth.2)] at hretry
        exact ⟨u, hu, hinput, hmessage, hretry, hdelivered⟩
      · -- Nothing was delivered, and the loop goes on.
        rw [if_pos ⟨by omega, hzero⟩] at hretry
        rw [if_pos hzero, List.append_nil] at hdelivered
        rcases t₁ with ⟨input₁, run₁, log₁⟩
        simp only at hinput hrun
        rw [← hmessage, ← hinput] at hnext
        rcases ih run₁ log₁ u (by omega) n message' t hnext with
          ⟨v, hv, hinput', hmessage', hretry', hdelivered'⟩
        rw [hdelivered] at hdelivered'
        exact ⟨v, Machine.reachesBy_trans hu hv, hinput', hmessage', hretry', hdelivered'⟩

/-- A call of `amilinkReadMessage` on the frames under way, without simulated
    loss, is a run of the receiver. -/
theorem reads_amilinkReadMessage (hloss : cfg.losePacketInterval ≤ 0) (hmax : 0 < cfg.retryMax)
    {run : Nat} {log : List Event} {n : Nat} {message' : List UInt8} {t : Link.State}
    (hretry : s.retry = 0)
    (h : amilinkReadMessage cfg s.message ⟨s.forward.map Copy.frame, run, log⟩ =
      some (n, message', t)) :
    ∃ u, Reads cfg s u ∧ u.forward.map Copy.frame = t.input ∧ u.message = message' ∧
      u.retry = 0 ∧ u.delivered.map Delivery.message =
        s.delivered.map Delivery.message ++ if n = 0 then [] else [message'.take n] := by
  rcases Nat.exists_eq_succ_of_ne_zero (Nat.ne_of_gt hmax) with ⟨k, hk⟩
  rw [amilinkReadMessage, hk] at h
  exact reads_readRetry hloss k run log s (by omega) n message' t h

/-! ### The inversion of a step -/

/-- What `readAck` makes of a frame that is no ACK. -/
theorem acknowledge_refused {x : Copy} (k : Call) (hx : isAck cfg x.frame = false) :
    acknowledge cfg s k x = linkSendRetry cfg s k 0 none := by
  rw [acknowledge, if_neg (Bool.eq_false_iff.mp hx)]

/-- After an ACK the loop of `linkSendRetry` ends. -/
theorem acknowledge_acked {x : Copy} (k : Call) (hx : isAck cfg x.frame = true) :
    acknowledge cfg s k x =
      { s with
        sender := none,
        returned := s.returned ++ [⟨k.number, k.message.length, some x.call, k.quiet⟩] } := by
  rw [acknowledge, if_pos hx, linkSendRetry, if_neg (fun h => h.2 rfl)]

theorem receive_dataFrame {x : Copy} {data : List UInt8} (hx : x.frame = dataFrame cfg data)
    (hne : data ≠ []) : receive cfg s x = accept cfg s x data := by
  have hlen : data.length ≠ 0 := fun h => hne (List.length_eq_zero_iff.mp h)
  simp only [receive, accept, hx, handleFrame_dataFrame, hlen, and_false, if_false,
    Option.toList_some, List.map_cons, List.map_nil, List.take_left, decide_true]

/-- A frame that is not readable is not acknowledged. -/
theorem receive_unreadable {x : Copy} (hx : readable cfg x.frame = false) :
    ∃ b retry message ds, receive cfg s x = { s with
        backward := s.backward ++ b, retry := retry, message := message,
        delivered := s.delivered ++ ds } ∧
      (∀ y ∈ b, isAck cfg y.frame = false) ∧ ∀ d ∈ ds, d.acknowledged = false := by
  rw [readable, decide_eq_false_iff_not, handleFrame_reply cfg [] s.message] at hx
  rcases hframe : handleFrame cfg s.message x.frame with ⟨messageLength, message', reply⟩
  rw [hframe] at hx
  -- No reply to such a frame is an ACK, with or without a message.
  have hreplies : ∀ y ∈ reply.toList.map fun cmd =>
      Copy.mk (.whole (replyHeader cfg cmd) []) x.call, isAck cfg y.frame = false := by
    intro y hy
    rcases List.mem_map.mp hy with ⟨cmd, hcmd, rfl⟩
    rw [isAck_reply, decide_eq_false_iff_not]
    rintro rfl
    exact hx (Option.mem_toList.mp hcmd)
  -- A NACK may still come with a message, which is delivered unacknowledged.
  by_cases hlen : messageLength = 0
  · refine ⟨_, (receive cfg s x).retry, message', [], ?_, hreplies,
      fun d hd => absurd hd List.not_mem_nil⟩
    simp only [receive, hframe, if_pos hlen, List.append_nil]
  · refine ⟨_, (receive cfg s x).retry, message',
      [⟨x.call, message'.take messageLength, false⟩], ?_, hreplies, ?_⟩
    · have hack : decide (reply = some Cmd.ack) = false := decide_eq_false hx
      simp only [receive, hframe, if_neg hlen, hack]
    · intro d hd
      rw [List.mem_singleton.mp hd]

/-- Frames that are taken out of the channels, or spoiled there. -/
theorem effect_channels (f b : List Copy) (hf : Fades (readable cfg) s.forward f)
    (hb : Fades (isAck cfg) s.backward b) :
    Effect cfg s { s with forward := f, backward := b } := by
  have heffect := Effect.faded f b s.retry s.message [] hf hb
    (fun d hd => absurd hd List.not_mem_nil)
  rw [List.append_nil] at heffect
  exact heffect

/-- A frame that is not readable changes nothing for anybody but the
    receiver. -/
theorem effect_unreadable (x : Copy) (f : List Copy) (hx : readable cfg x.frame = false)
    (hf : Fades (readable cfg) s.forward f) :
    Effect cfg s (receive cfg { s with forward := f } x) := by
  rcases receive_unreadable (s := { s with forward := f }) hx with
    ⟨b, retry, message, ds, hstate, hb, hds⟩
  rw [hstate]
  exact Effect.faded f _ retry message ds hf (fades_append s.backward b hb) hds

theorem effect_send (message : List UInt8)
    (h : step cfg s (.amilinkSendMessage message) = some t) : Effect cfg s t := by
  cases hs : s.sender with
  | some k => simp only [step, hs, reduceCtorEq] at h
  | none =>
      simp only [step, hs] at h
      by_cases hne : message = []
      · rw [if_pos hne] at h
        exact absurd h.symm (Option.some_ne_none t)
      · rw [if_neg hne, Option.some.injEq] at h
        rw [← h]
        exact Effect.begun message hs hne

theorem effect_readAck (h : step cfg s .readAck = some t) : Effect cfg s t := by
  cases hs : s.sender with
  | none => simp only [step, hs, reduceCtorEq] at h
  | some k =>
      cases hb : s.backward with
      | nil => simp only [step, hs, hb, reduceCtorEq] at h
      | cons x rest =>
          simp only [step, hs, hb] at h
          have hfade : Fades (isAck cfg) s.backward rest := by
            rw [hb]
            exact fades_tail _ x rest
          -- A heartbeat is skipped, any other frame ends the wait.
          by_cases hheart : gotHeartbeat x.frame = true
          · rw [if_pos hheart, Option.some.injEq] at h
            rw [← h, ← hs]
            exact effect_channels s.forward rest (fades_refl _ _) hfade
          · rw [if_neg hheart, Option.some.injEq] at h
            rw [← h]
            cases hx : isAck cfg x.frame with
            | true =>
                rw [acknowledge_acked k hx]
                exact Effect.acked k x rest hs hb hx
            | false =>
                rw [acknowledge_refused k hx]
                exact Effect.refused k rest hs hfade

theorem effect_readMessage (hread : ∀ x ∈ s.forward, readable cfg x.frame = true →
      ∃ data, data ≠ [] ∧ x.frame = dataFrame cfg data)
    (h : step cfg s .readMessage = some t) : Effect cfg s t := by
  cases hf : s.forward with
  | nil => simp only [step, hf, reduceCtorEq] at h
  | cons x rest =>
      simp only [step, hf] at h
      have hfade : Fades (readable cfg) s.forward rest := by
        rw [hf]
        exact fades_tail _ x rest
      by_cases hretry : s.retry < cfg.retryMax
      · rw [if_pos hretry] at h
        by_cases hheart : gotHeartbeat x.frame = true
        · rw [if_pos hheart, Option.some.injEq] at h
          rw [← h]
          exact effect_channels rest s.backward hfade (fades_refl _ _)
        · rw [if_neg hheart, Option.some.injEq] at h
          rw [← h]
          cases hx : readable cfg x.frame with
          | true =>
              -- Readable frames are messages, and a message is accepted.
              rcases hread x (by rw [hf]; exact List.mem_cons_self) hx with ⟨data, hne, hdata⟩
              rw [receive_dataFrame hdata hne]
              exact Effect.accepted x rest data hf hdata hne
          | false => exact effect_unreadable x rest hx hfade
      · rw [if_neg hretry] at h
        exact absurd h.symm (Option.some_ne_none t)

/-- What a step does, in a state whose readable frames are messages. -/
theorem effect_of_step {a : Act} (hread : ∀ x ∈ s.forward, readable cfg x.frame = true →
      ∃ data, data ≠ [] ∧ x.frame = dataFrame cfg data)
    (h : step cfg s a = some t) : Effect cfg s t := by
  cases a with
  | amilinkSendMessage message => exact effect_send message h
  | readAck => exact effect_readAck h
  -- A timeout is a reply that is no ACK.
  | readAckTimeout =>
      cases hs : s.sender with
      | none => simp only [step, hs, reduceCtorEq] at h
      | some k =>
          simp only [step, hs, Option.some.injEq] at h
          rw [← h, acknowledge_refused k (isAck_short cfg 0)]
          exact Effect.refused k s.backward hs (fades_refl _ _)
  | readMessage => exact effect_readMessage hread h
  -- For the reader it is a frame that is not readable.
  | readMessageTimeout =>
      rw [step] at h
      by_cases hretry : s.retry < cfg.retryMax
      · rw [if_pos hretry, Option.some.injEq] at h
        rw [← h]
        exact effect_unreadable _ s.forward (readable_short cfg 0) (fades_refl _ _)
      · rw [if_neg hretry] at h
        exact absurd h.symm (Option.some_ne_none t)
  -- A loss takes one copy off a channel.
  | loseData i =>
      rw [step] at h
      by_cases hi : i < s.forward.length
      · rw [if_pos hi, Option.some.injEq] at h
        rw [← h]
        exact effect_channels _ s.backward (fades_of_sublist _ (List.eraseIdx_sublist _ i))
          (fades_refl _ _)
      · rw [if_neg hi] at h
        exact absurd h.symm (Option.some_ne_none t)
  | loseReply i =>
      rw [step] at h
      by_cases hi : i < s.backward.length
      · rw [if_pos hi, Option.some.injEq] at h
        rw [← h]
        exact effect_channels s.forward _ (fades_refl _ _)
          (fades_of_sublist _ (List.eraseIdx_sublist _ i))
      · rw [if_neg hi] at h
        exact absurd h.symm (Option.some_ne_none t)
  -- A corrupted copy was readable at most, and is not any more.
  | corruptData i f =>
      rw [step] at h
      by_cases hf : readable cfg f = true
      · rw [if_pos hf] at h
        exact absurd h.symm (Option.some_ne_none t)
      · rw [if_neg hf, Option.some.injEq] at h
        rw [← h]
        exact effect_channels _ s.backward (fades_corrupt (Bool.eq_false_iff.mpr hf) s.forward i)
          (fades_refl _ _)
  | corruptReply i f =>
      rw [step] at h
      by_cases hf : isAck cfg f = true
      · rw [if_pos hf] at h
        exact absurd h.symm (Option.some_ne_none t)
      · rw [if_neg hf, Option.some.injEq] at h
        rw [← h]
        exact effect_channels s.forward _ (fades_refl _ _)
          (fades_corrupt (Bool.eq_false_iff.mpr hf) s.backward i)

/-! ### The invariant -/

theorem calls_append {calls : List (List UInt8)} {c : Nat} {message : List UInt8}
    (m : List UInt8) (h : calls[c]? = some message) : (calls ++ [m])[c]? = some message := by
  rw [List.getElem?_append_left (List.getElem?_eq_some_iff.mp h).1, h]

theorem inv_initial (cfg : Config) (message : List UInt8) : Inv cfg (State.initial message) where
  readable := fun _ hx => absurd hx List.not_mem_nil
  delivered := fun _ hd => absurd hd List.not_mem_nil
  acks := fun _ hx => absurd hx List.not_mem_nil
  transmitted := fun _ hc => absurd hc List.not_mem_nil
  limit := fun _ => Nat.zero_le cfg.retryMax
  sending := fun k hk => absurd hk.symm (Option.some_ne_none k)
  returned := fun _ hr => absurd hr List.not_mem_nil

theorem sending_faded {k : Call} {f b : List Copy} {retry : Nat} {message : List UInt8}
    {ds : List Delivery} (h : Sending cfg s k) (hf : Fades (readable cfg) s.forward f)
    (hb : Fades (isAck cfg) s.backward b) :
    Sending cfg { s with
      forward := f, backward := b, retry := retry, message := message, delivered := ds } k where
  number := h.number
  message := h.message
  nonempty := h.nonempty
  retry := h.retry
  quietForward := fun hq x hx hread => h.quietForward hq x (mem_of_fades hf hx hread) hread
  quietBackward := fun hq x hx hack => h.quietBackward hq x (mem_of_fades hb hx hack) hack

theorem inv_faded {f b : List Copy} (retry : Nat) (message : List UInt8) {ds : List Delivery}
    (h : Inv cfg s) (hf : Fades (readable cfg) s.forward f) (hb : Fades (isAck cfg) s.backward b)
    (hds : ∀ d ∈ ds, d.acknowledged = false) :
    Inv cfg { s with
      forward := f, backward := b, retry := retry, message := message,
      delivered := s.delivered ++ ds } where
  readable := fun x hx hread => h.readable x (mem_of_fades hf hx hread) hread
  -- What was delivered behind the fading has no ACK.
  delivered := fun d hd hack => by
    rcases List.mem_append.mp hd with hold | hnew
    · exact h.delivered d hold hack
    · exact absurd hack (Bool.eq_false_iff.mp (hds d hnew))
  acks := fun x hx hack => h.acks x (mem_of_fades hb hx hack) hack
  transmitted := h.transmitted
  limit := h.limit
  sending := fun k hk => sending_faded (h.sending k hk) hf hb
  returned := h.returned

theorem inv_channels {f b : List Copy} (h : Inv cfg s) (hf : Fades (readable cfg) s.forward f)
    (hb : Fades (isAck cfg) s.backward b) :
    Inv cfg { s with forward := f, backward := b } := by
  have hinv := inv_faded s.retry s.message h hf hb (fun d (hd : d ∈ []) =>
    absurd hd List.not_mem_nil)
  rw [List.append_nil] at hinv
  exact hinv

/-- A further call leaves the earlier ones as they are. -/
theorem inv_begin (h : Inv cfg s) (hidle : s.sender = none) (message : List UInt8) :
    Inv cfg { s with calls := s.calls ++ [message] } where
  readable := fun x hx hread => by
    rcases h.readable x hx hread with ⟨m, hm, hne, hframe⟩
    exact ⟨m, calls_append message hm, hne, hframe⟩
  delivered := fun d hd hack => calls_append message (h.delivered d hd hack)
  acks := fun x hx hack => by
    rw [List.length_append]
    exact Nat.lt_add_right _ (h.acks x hx hack)
  transmitted := fun c hc => by
    rw [List.length_append]
    exact Nat.lt_add_right _ (h.transmitted c hc)
  limit := h.limit
  -- No call was running.
  sending := fun k hk => by
    rw [hidle] at hk
    exact absurd hk.symm (Option.some_ne_none k)
  returned := fun r hr hsent => by
    rcases h.returned r hr hsent with ⟨⟨m, hm, hlen⟩, hanswered⟩
    exact ⟨⟨m, calls_append message hm, hlen⟩, hanswered⟩

/-- A quiet link has nothing that could be taken for the new call's. -/
theorem sending_begin (h : Inv cfg s) {message : List UInt8} (hne : message ≠ []) :
    Sending cfg { s with calls := s.calls ++ [message] }
      ⟨s.calls.length, message, 0, s.isQuiet cfg⟩ where
  number := by rw [List.length_append, List.length_singleton]
  message := List.getElem?_concat_length
  nonempty := hne
  -- The number is a new one, so nothing was transmitted under it.
  retry := List.count_eq_zero.mpr fun hmem => absurd (h.transmitted _ hmem) (Nat.lt_irrefl _)
  -- A quiet channel has nothing that could be read.
  quietForward := fun hq x hx hread => by
    rw [State.isQuiet, Bool.and_eq_true, List.all_eq_true] at hq
    have hquiet := hq.1 x hx
    rw [hread] at hquiet
    exact absurd hquiet Bool.false_ne_true
  quietBackward := fun hq x hx hack => by
    rw [State.isQuiet, Bool.and_eq_true, List.all_eq_true, List.all_eq_true] at hq
    have hquiet := hq.2 x hx
    rw [hack] at hquiet
    exact absurd hquiet Bool.false_ne_true

/-- One more copy of the running call. -/
theorem inv_linkSendData {k : Call} (h : Inv cfg s) (hk : Sending cfg s k)
    (hretry : k.retry < cfg.retryMax) :
    Inv cfg (linkSendData cfg s { k with retry := k.retry + 1 }) where
  readable := fun x hx hread => by
    -- The new copy is of the running call, whose message is known.
    rcases List.mem_append.mp hx with hold | hnew
    · exact h.readable x hold hread
    · rw [List.mem_singleton.mp hnew]
      exact ⟨k.message, hk.message, hk.nonempty, rfl⟩
  delivered := h.delivered
  acks := h.acks
  transmitted := fun c hc => by
    rcases List.mem_append.mp hc with hold | hnew
    · exact h.transmitted c hold
    · -- Its number is the last one.
      rw [List.mem_singleton.mp hnew]
      exact Nat.lt_of_succ_le (Nat.le_of_eq hk.number)
  limit := fun c => by
    simp only [linkSendData, List.count_append, List.count_singleton]
    by_cases hc : k.number = c
    · -- The variable `retry` counts the copies of the running call.
      rw [if_pos (beq_iff_eq.mpr hc), ← hc, hk.retry]
      exact hretry
    · rw [if_neg (fun hbeq => hc (beq_iff_eq.mp hbeq))]
      exact h.limit c
  sending := fun k' hk' => by
    simp only [linkSendData, Option.some.injEq] at hk'
    subst hk'
    refine ⟨hk.number, hk.message, hk.nonempty, ?_, ?_, hk.quietBackward⟩
    · simp only [linkSendData, List.count_append, List.count_singleton_self, hk.retry]
    · -- In a quiet call every readable copy is one of its own.
      intro hq x hx hread
      rcases List.mem_append.mp hx with hold | hnew
      · exact hk.quietForward hq x hold hread
      · rw [List.mem_singleton.mp hnew]
  returned := h.returned

theorem inv_return {k : Option Call} {r : Return} (h : Inv cfg s) (hk : k = none)
    (hr : Justified s r) :
    Inv cfg { s with sender := k, returned := s.returned ++ [r] } where
  readable := h.readable
  delivered := h.delivered
  acks := h.acks
  transmitted := h.transmitted
  limit := h.limit
  sending := fun k' hk' => absurd (hk'.symm.trans hk) (Option.some_ne_none k')
  returned := fun r' hr' => by
    rcases List.mem_append.mp hr' with hold | hnew
    · exact h.returned r' hold
    · rw [List.mem_singleton.mp hnew]
      exact hr

theorem inv_linkSendRetry {k : Call} (h : Inv cfg s) (hk : Sending cfg s k) :
    Inv cfg (linkSendRetry cfg s k 0 none) := by
  rw [linkSendRetry]
  by_cases hloop : k.retry < cfg.retryMax ∧ k.message.length ≠ 0
  · rw [if_pos hloop]
    exact inv_linkSendData h hk hloop.1
  -- The call gives up and reports no length, so it owes no reason.
  · rw [if_neg hloop]
    exact inv_return h rfl (fun hzero => absurd hzero (Nat.lt_irrefl 0))

theorem inv_accept {x : Copy} {rest : List Copy} {data : List UInt8} (h : Inv cfg s)
    (hf : s.forward = x :: rest) (hx : x.frame = dataFrame cfg data) :
    Inv cfg (accept cfg { s with forward := rest } x data) := by
  have hmem : x ∈ s.forward := by
    rw [hf]
    exact List.mem_cons_self
  have hread : readable cfg x.frame = true := by
    rw [hx]
    exact readable_dataFrame cfg data
  have hrest : ∀ y ∈ rest, y ∈ s.forward := by
    intro y hy
    rw [hf]
    exact List.mem_cons_of_mem x hy
  -- The payload of the frame is the message of its call.
  have hcall : s.calls[x.call]? = some data := by
    rcases h.readable x hmem hread with ⟨m, hm, _, hframe⟩
    rw [hx, dataFrame, dataFrame, PhysicalFrame.whole.injEq] at hframe
    rw [hframe.2, hm]
  refine ⟨fun y hy => h.readable y (hrest y hy), ?_, ?_, h.transmitted, h.limit, ?_, h.returned⟩
  · intro d hd hack
    rcases List.mem_append.mp hd with hold | hnew
    · exact h.delivered d hold hack
    · rw [List.mem_singleton.mp hnew]
      exact hcall
  · intro y hy hack
    rcases List.mem_append.mp hy with hold | hnew
    · exact h.acks y hold hack
    · rw [List.mem_singleton.mp hnew]
      exact (List.getElem?_eq_some_iff.mp hcall).1
  · intro k hk
    have hs := h.sending k hk
    refine ⟨hs.number, hs.message, hs.nonempty, hs.retry,
      fun hq y hy => hs.quietForward hq y (hrest y hy), ?_⟩
    intro hq y hy hack
    rcases List.mem_append.mp hy with hold | hnew
    · exact hs.quietBackward hq y hold hack
    -- The new ACK answers a frame that was under way, so one of this call.
    · rw [List.mem_singleton.mp hnew]
      exact hs.quietForward hq x hmem hread

theorem inv_effect (h : Inv cfg s) (he : Effect cfg s t) : Inv cfg t := by
  cases he with
  | faded f b retry message ds hf hb hds => exact inv_faded retry message h hf hb hds
  | begun message hidle hne =>
      exact inv_linkSendRetry (inv_begin h hidle message) (sending_begin h hne)
  | refused k b hk hb =>
      have hfade := fades_refl (readable cfg) s.forward
      have hinv := inv_channels h hfade hb
      exact inv_linkSendRetry hinv (sending_faded (h.sending k hk) hfade hb)
  -- An ACK ends the call.
  | acked k x rest hk hb hx =>
      have hs := h.sending k hk
      have hmem : x ∈ s.backward := by
        rw [hb]
        exact List.mem_cons_self
      have hfade : Fades (isAck cfg) s.backward rest := by
        rw [hb]
        exact fades_tail _ x rest
      have hinv := inv_channels h (fades_refl (readable cfg) s.forward) hfade
      refine inv_return hinv rfl (fun _ => ⟨⟨k.message, hs.message, rfl⟩, x.call, rfl, ?_, ?_⟩)
      · -- It answers this call or an earlier one.
        have hlt := h.acks x hmem hx
        rw [← hs.number] at hlt
        exact Nat.le_of_lt_succ hlt
      · -- In a quiet call it can only answer this one.
        exact fun hq => hs.quietBackward hq x hmem hx
  | accepted x rest data hf hx hne => exact inv_accept h hf hx

theorem inv_step {a : Act} (h : Inv cfg s) (hstep : step cfg s a = some t) : Inv cfg t := by
  refine inv_effect h (effect_of_step ?_ hstep)
  intro x hx hread
  rcases h.readable x hx hread with ⟨m, _, hne, hframe⟩
  exact ⟨m, hne, hframe⟩

theorem inv_of_reaches {message : List UInt8}
    (h : (machine cfg).Reaches (State.initial message) s) : Inv cfg s :=
  Machine.invariant h (inv_initial cfg message) (fun _ _ _ hi _ hs => inv_step hi hs)

/-! ### The counts -/

theorem tally_initial (cfg : Config) (message : List UInt8) (c : Nat) :
    Tally.Sound (tally cfg (State.initial message) c) :=
  ⟨Nat.le_refl 0, Nat.zero_le 1, Nat.le_refl 0⟩

theorem move_faded {f b : List Copy} (retry : Nat) (message : List UInt8) {ds : List Delivery}
    (hf : Fades (readable cfg) s.forward f) (hb : Fades (isAck cfg) s.backward b)
    (hds : ∀ d ∈ ds, d.acknowledged = false) (c : Nat) :
    Tally.Move (tally cfg s c) (tally cfg { s with
      forward := f, backward := b, retry := retry, message := message,
      delivered := s.delivered ++ ds } c) := by
  -- What was delivered had no ACK, so the tally does not see it.
  have hnone : ds.countP (fun d => decide (d.call = c) && d.acknowledged) = 0 :=
    List.countP_eq_zero.mpr fun d hd => by
      rw [hds d hd, Bool.and_false]
      exact Bool.false_ne_true
  have hmove := Tally.Move.fade (x := tally cfg s c) _ _ (countP_of_fades hf c)
    (countP_of_fades hb c)
  simp only [tally, State.onWay, State.acks, State.deliveries, State.answers, List.countP_append,
    hnone, Nat.add_zero] at hmove ⊢
  exact hmove

theorem onWay_linkSendData (k : Call) (c : Nat) :
    (linkSendData cfg s k).onWay cfg c = s.onWay cfg c + if k.number = c then 1 else 0 := by
  simp only [State.onWay, linkSendData, List.countP_append, List.countP_singleton,
    readable_dataFrame, Bool.and_true, decide_eq_true_eq]

theorem count_append_singleton (l : List Nat) (a c : Nat) :
    (l ++ [a]).count c = l.count c + if a = c then 1 else 0 := by
  simp only [List.count_append, List.count_singleton, beq_iff_eq]

/-- A transmission is a move of the call it belongs to. -/
theorem move_linkSendData (k : Call) (c : Nat) :
    Tally.Move (tally cfg s c) (tally cfg (linkSendData cfg s k) c) := by
  -- A copy is transmitted for its own call, and for no other.
  by_cases hc : k.number = c
  · have heq : tally cfg (linkSendData cfg s k) c = (tally cfg s c).transmit := by
      rw [tally, onWay_linkSendData, if_pos hc]
      simp only [linkSendData, hc, apply_ite (List.count c), count_append_singleton, if_true]
      rfl
    rw [heq]
    exact Tally.Move.transmit
  · have heq : tally cfg (linkSendData cfg s k) c = tally cfg s c := by
      rw [tally, onWay_linkSendData, if_neg hc]
      simp only [linkSendData, apply_ite (List.count c), count_append_singleton, if_neg hc,
        Nat.add_zero, ite_self]
      rfl
    rw [heq]
    exact Tally.move_refl _

/-- One more call that has returned. -/
theorem countP_answered (l : List Return) (r : Return) (c : Nat) :
    (l ++ [r]).countP (fun r => decide (r.answered = some c)) =
      l.countP (fun r => decide (r.answered = some c)) +
        if r.answered = some c then 1 else 0 := by
  simp only [List.countP_append, List.countP_singleton, decide_eq_true_eq]

/-- Giving up is none: no ACK was read. -/
theorem move_linkSendRetry (k : Call) (c : Nat) :
    Tally.Move (tally cfg s c) (tally cfg (linkSendRetry cfg s k 0 none) c) := by
  rw [linkSendRetry]
  by_cases hloop : k.retry < cfg.retryMax ∧ k.message.length ≠ 0
  · rw [if_pos hloop]
    exact move_linkSendData _ c
  · rw [if_neg hloop]
    have hmove := Tally.move_refl (tally cfg s c)
    simp only [tally, State.onWay, State.acks, State.deliveries, State.answers, countP_answered,
      reduceCtorEq, if_false, Nat.add_zero] at hmove ⊢
    exact hmove

/-- An ACK that is read is an answer for the call whose copy it answers. -/
theorem move_acked {k : Call} {x : Copy} {rest : List Copy} (hb : s.backward = x :: rest)
    (hx : isAck cfg x.frame = true) (c : Nat) :
    Tally.Move (tally cfg s c) (tally cfg { s with
      backward := rest, sender := none,
      returned := s.returned ++ [⟨k.number, k.message.length, some x.call, k.quiet⟩] } c) := by
  have hacks : s.acks cfg c = rest.countP (fun y => decide (y.call = c) && isAck cfg y.frame) +
      if x.call = c then 1 else 0 := by
    simp only [State.acks, hb, List.countP_cons, hx, Bool.and_true, decide_eq_true_eq]
  by_cases hc : x.call = c
  · rw [if_pos hc] at hacks
    have hmove := Tally.Move.answer (x := tally cfg s c) _ hacks
    simp only [tally, State.onWay, State.acks, State.deliveries, State.answers, countP_answered,
      hc, if_true] at hmove ⊢
    exact hmove
  -- For every other call, nothing has happened.
  · rw [if_neg hc, Nat.add_zero] at hacks
    rw [State.acks] at hacks
    have hmove := Tally.move_refl (tally cfg s c)
    simp only [tally, State.onWay, State.acks, State.deliveries, State.answers, hacks,
      countP_answered, Option.some.injEq, hc, if_false, Nat.add_zero] at hmove ⊢
    exact hmove

/-- An intact frame that is read is a delivery. -/
theorem move_accept {x : Copy} {rest : List Copy} {data : List UInt8}
    (hf : s.forward = x :: rest) (hx : x.frame = dataFrame cfg data) (c : Nat) :
    Tally.Move (tally cfg s c) (tally cfg (accept cfg { s with forward := rest } x data) c) := by
  -- The copy leaves the way, and a delivery and an ACK of its call come instead.
  have honWay : s.onWay cfg c =
      rest.countP (fun y => decide (y.call = c) && readable cfg y.frame) +
        if x.call = c then 1 else 0 := by
    simp only [State.onWay, hf, List.countP_cons, hx, readable_dataFrame, Bool.and_true,
      decide_eq_true_eq]
  have hacks : (accept cfg { s with forward := rest } x data).acks cfg c =
      s.acks cfg c + if x.call = c then 1 else 0 := by
    simp only [State.acks, accept, List.countP_append, List.countP_singleton, isAck_reply,
      decide_true, Bool.and_true, decide_eq_true_eq]
  have hdeliveries : (accept cfg { s with forward := rest } x data).deliveries c =
      s.deliveries c + if x.call = c then 1 else 0 := by
    simp only [State.deliveries, accept, List.countP_append, List.countP_singleton, Bool.and_true,
      decide_eq_true_eq]
  by_cases hc : x.call = c
  · rw [if_pos hc] at honWay hacks hdeliveries
    have heq : tally cfg (accept cfg { s with forward := rest } x data) c = { tally cfg s c with
        onWay := rest.countP (fun y => decide (y.call = c) && readable cfg y.frame),
        delivered := s.deliveries c + 1, acks := s.acks cfg c + 1 } := by
      rw [tally, hacks, hdeliveries]
      rfl
    rw [heq]
    exact Tally.Move.deliver _ honWay
  · rw [if_neg hc, Nat.add_zero] at honWay hacks hdeliveries
    have heq : tally cfg (accept cfg { s with forward := rest } x data) c = tally cfg s c := by
      rw [tally, hacks, hdeliveries]
      simp only [tally, honWay]
      rfl
    rw [heq]
    exact Tally.move_refl _

/-- Every step moves the counts of every call. Reading a NACK and sending
    again are two moves. -/
theorem moves_of_effect (he : Effect cfg s t) (c : Nat) :
    Relation.ReflTransGen Tally.Move (tally cfg s c) (tally cfg t c) := by
  cases he with
  | faded f b retry message ds hf hb hds =>
      exact Relation.ReflTransGen.single (move_faded retry message hf hb hds c)
  | begun message hidle hne =>
      exact Relation.ReflTransGen.single
        (move_linkSendRetry (s := { s with calls := s.calls ++ [message] }) _ c)
  | refused k b hk hb =>
      have hfade := move_faded s.retry s.message (fades_refl (readable cfg) s.forward) hb
        (fun d (hd : d ∈ []) => absurd hd List.not_mem_nil) c
      rw [List.append_nil] at hfade
      exact (Relation.ReflTransGen.single hfade).tail (move_linkSendRetry k c)
  | acked k x rest hk hb hx => exact Relation.ReflTransGen.single (move_acked hb hx c)
  | accepted x rest data hf hx hne => exact Relation.ReflTransGen.single (move_accept hf hx c)

theorem sound_of_reaches {message : List UInt8}
    (h : (machine cfg).Reaches (State.initial message) s) (c : Nat) :
    Tally.Sound (tally cfg s c) := by
  refine Machine.invariant_of (I := fun s => Tally.Sound (tally cfg s c)) (K := Inv cfg) h
    (fun _ ht => inv_of_reaches ht) (tally_initial cfg message c) ?_
  intro t a u hinv hsound _ hstep
  refine Tally.sound_moves hsound (moves_of_effect (effect_of_step ?_ hstep) c)
  intro x hx hread
  rcases hinv.readable x hx hread with ⟨m, _, hne, hframe⟩
  exact ⟨m, hne, hframe⟩

/-! ### Delivered and reported -/

/-- What is delivered from an intact frame is the message of its call. It is
    delivered at most once, and once more for each copy that was sent
    although an earlier one had been delivered or still could be; and never
    more often than it was sent, which is within the limit. -/
theorem deliveries_bounded {message : List UInt8}
    (h : (machine cfg).Reaches (State.initial message) s) (c : Nat) :
    s.deliveries c ≤ 1 + s.late.count c ∧ s.deliveries c ≤ s.transmitted.count c ∧
      s.transmitted.count c ≤ cfg.retryMax ∧
      ∀ d ∈ s.delivered, d.acknowledged = true → s.calls[d.call]? = some d.message := by
  have hinv := inv_of_reaches h
  have hsound := sound_of_reaches h c
  refine ⟨?_, ?_, hinv.limit c, hinv.delivered⟩
  · exact Nat.le_trans (Nat.le_add_right _ _) hsound.once
  · exact Nat.le_trans (Nat.le_add_right _ _) hsound.copies

theorem deliveries_bounded_one : ∃ s, (machine sumConfig).Reaches (State.initial []) s ∧
    s.transmitted.count 0 = 2 ∧ s.late.count 0 = 0 ∧ s.deliveries 0 ≤ 1 := by
  rcases Machine.reaches_of_check (M := machine sumConfig) (s := State.initial [])
    [.amilinkSendMessage [7], .corruptData 0 (.short 1), .readMessage, .readAckTimeout,
      .readMessage]
    (fun s => decide (s.transmitted.count 0 = 2 ∧ s.late.count 0 = 0)) (by decide +kernel) with
    ⟨s, hs, hcheck⟩
  rcases of_decide_eq_true hcheck with ⟨hsent, hlate⟩
  have hbound := (deliveries_bounded hs 0).1
  rw [hlate] at hbound
  exact ⟨s, hs, hsent, hlate, hbound⟩

/-- An ACK is lost, the message is sent again, and delivered again. -/
theorem delivered_twice : ¬ ∀ s, (machine sumConfig).Reaches (State.initial []) s →
    ∀ c, s.deliveries c ≤ 1 := by
  intro honce
  rcases Machine.reaches_of_check (M := machine sumConfig) (s := State.initial [])
    [.amilinkSendMessage [7], .readMessage, .loseReply 0, .readAckTimeout, .readMessage]
    (fun s => decide (s.deliveries 0 = 2)) (by decide +kernel) with ⟨s, hs, hcheck⟩
  have hle := honce s hs 0
  rw [of_decide_eq_true hcheck] at hle
  exact absurd hle (by decide)

/-- A call that reports its length has read an ACK for a copy that had been
    delivered, a copy of its own or of an earlier call; of its own, if nothing
    was under way when it began. No delivery stands for two reports. -/
theorem returned_justified {message : List UInt8}
    (h : (machine cfg).Reaches (State.initial message) s) :
    (∀ r ∈ s.returned, 0 < r.dataSent →
      (∃ m, s.calls[r.call]? = some m ∧ m.length = r.dataSent) ∧
        ∃ c, r.answered = some c ∧ c ≤ r.call ∧ (r.quiet = true → c = r.call) ∧
          ∃ d ∈ s.delivered, d.acknowledged = true ∧ d.call = c ∧
            s.calls[c]? = some d.message) ∧
      ∀ c, s.answers c ≤ s.deliveries c := by
  have hinv := inv_of_reaches h
  have hanswers : ∀ c, s.answers c ≤ s.deliveries c := fun c =>
    Nat.le_trans (Nat.le_add_left _ _) (sound_of_reaches h c).acks
  refine ⟨fun r hr hsent => ?_, hanswers⟩
  rcases hinv.returned r hr hsent with ⟨hlength, c, hc, hle, hquiet⟩
  -- The call has read an ACK for `c`, so one was sent, for a delivery.
  have hpos : 0 < s.answers c := List.countP_pos_iff.mpr ⟨r, hr, decide_eq_true hc⟩
  rcases List.countP_pos_iff.mp (Nat.lt_of_lt_of_le hpos (hanswers c)) with ⟨d, hd, hdc⟩
  rw [Bool.and_eq_true, decide_eq_true_eq] at hdc
  refine ⟨hlength, c, hc, hle, hquiet, d, hd, hdc.2, hdc.1, ?_⟩
  rw [← hdc.1]
  exact hinv.delivered d hd hdc.2

theorem returned_justified_one : ∃ s, (machine sumConfig).Reaches (State.initial []) s ∧
    s.returned = [⟨0, 1, some 0, true⟩] ∧ ∃ d ∈ s.delivered, d.call = 0 := by
  rcases Machine.reaches_of_check (M := machine sumConfig) (s := State.initial [])
    [.amilinkSendMessage [7], .readMessage, .readAck]
    (fun s => decide (s.returned = [⟨0, 1, some 0, true⟩])) (by decide +kernel) with
    ⟨s, hs, hcheck⟩
  have hreturned := of_decide_eq_true hcheck
  have hmem : Return.mk 0 1 (some 0) true ∈ s.returned := by
    rw [hreturned]
    exact List.mem_singleton_self _
  rcases ((returned_justified hs).1 _ hmem Nat.one_pos).2 with ⟨c, _, _, hown, d, hd, _, hdc, _⟩
  exact ⟨s, hs, hreturned, d, hd, hdc.trans (hown rfl)⟩

/-- The first message is sent twice and acknowledged twice. The second one is
    lost, and reported sent on the first one's second ACK. -/
theorem returned_undelivered : ¬ ∀ s, (machine sumConfig).Reaches (State.initial []) s →
    ∀ r ∈ s.returned, 0 < r.dataSent →
      ∃ d ∈ s.delivered, d.acknowledged = true ∧ d.call = r.call := by
  intro hclaim
  rcases Machine.reaches_of_check (M := machine sumConfig) (s := State.initial [])
    [.amilinkSendMessage [7], .readAckTimeout, .readMessage, .readMessage, .readAck,
      .amilinkSendMessage [8], .loseData 0, .readAck]
    (fun s => decide (⟨1, 1, some 0, false⟩ ∈ s.returned ∧ ∀ d ∈ s.delivered, d.call = 0))
    (by decide +kernel) with ⟨s, hs, hcheck⟩
  rcases of_decide_eq_true hcheck with ⟨hmem, hdelivered⟩
  rcases hclaim s hs _ hmem Nat.one_pos with ⟨d, hd, _, hcall⟩
  exact absurd ((hdelivered d hd).symm.trans hcall) Nat.zero_ne_one

end Channel

end EpollServer
