import EpollServer.Core.Transfer
import EpollServer.Theory.Link
import EpollServer.Theory.Wire

/-!
# A Message Across the Link

What `amilinkSendMessage` sends at one end of a connection, and what
`amilinkReadMessage` makes of it at the other.

The missing headers are assumed to be `Lawful`: a header can be read back, SLIP
decoding undoes encoding on every frame, and the frames fit into the 16 bits
that count their bytes. That a channel delivers some buffers in order, each
before its timeout, is `Arrives`. Its polls may be empty at any place, as long
as the sleep in front of the last byte of a buffer stays below the timeout.

The length of a message is the sum of three lengths modulo `2 ^ 32`, one of
which is a field of the message, so that it can be 0. Such a message is never
sent (`empty_message_not_sent`), and the loop of `linkSendRetry` takes it for
acknowledged. Every other message whose length fits into a frame goes across
(`round_trip`).

## Main definitions

* `unslip`: Bytes fed to the decoder until a frame is complete.
* `Layout.Lawful`: What is assumed of the missing headers.
* `InTime`, `Arrives`: The polls in which buffers arrive.
* `Layout.blockStart`: Where the data of a block start in a message.

## Theorems

* `readLoop_inTime`: A buffer that arrives is read as its frame.
* `physicalFrames_arrives`: The frames of several buffers.
* `readFrame_heartbeats`: Heartbeats are skipped.
* `receive_dataFrame`, `readAck_ack`: The two ends, on their frames.
* `send_acknowledged`: A message with an acknowledge is sent once.
* `block_within`: The length of a block covers its data.
* `round_trip`: A message across the link.
-/

namespace EpollServer

namespace Transfer

open Link (Cmd Header PhysicalFrame)

/-! ### What arrives -/

/-- Bytes fed to the decoder: the frame, if the last one completes it and the
    loop of `readPhysicalFrame` takes them all. -/
def unslip (L : Layout) : Slip.Receiver → List UInt8 → Option (List UInt8)
  | _, [] => none
  | r, ch :: rest =>
      if L.sizeofFrame < r.frame.length then none
      else
        let (done, r') := L.slipCharToRawChars L.sizeofFrame ch r
        if done then (if rest = [] then some r'.frame else none) else unslip L r' rest

/-- What is assumed of the missing headers. -/
structure Layout.Lawful (L : Layout) : Prop where
  retryMax_pos : 0 < L.retryMax
  /-- No loss of packets is simulated. -/
  lossless : L.losePacketInterval ≤ 0
  length_headerBytes : ∀ h, (L.headerBytes h).length = L.sizeofHeader
  header_headerBytes : ∀ crc16 cmd, cmd ∈ [Cmd.data, .ack, .nack, .heartbeat] →
    L.header (L.headerBytes { crc16 := crc16, cmd := cmd }) = { crc16 := crc16, cmd := cmd }
  header_le : L.sizeofHeader ≤ L.sizeofFrame
  frame_lt : L.sizeofFrame < 2 ^ 16
  /-- SLIP decoding undoes `Slip_RawToSlip`. -/
  unslip_rawToSlip : ∀ frame : List UInt8, L.sizeofHeader ≤ frame.length →
    frame.length ≤ L.sizeofFrame → unslip L Slip.Receiver.start (L.rawToSlip frame) = some frame
  /-- A block ends with its array of data. -/
  block_le : L.sizes.payloadMax ≤ L.sizes.filePullResp ∧
    L.sizes.payloadMax ≤ L.sizes.rawDataPushReq
  message_lt : L.sizes.topic + L.sizes.filePullResp < 2 ^ 32 ∧
    L.sizes.topic + L.sizes.rawDataPushReq < 2 ^ 32

/-- The polls that end with the last byte of a buffer, before the timeout. -/
structure InTime (L : Layout) (buffer : List UInt8) (polls : List Poll) : Prop where
  bytes : polls.reduceOption = buffer
  ended : polls.getLast? ≠ some none
  inTime : readSleep * polls.count none < L.messageTimeout

/-- Buffers arrive one after the other, and the polls behind them. -/
inductive Arrives (L : Layout) : List (List UInt8) → List Poll → List Poll → Prop
  | none (rest : List Poll) : Arrives L [] rest rest
  | next {buffer : List UInt8} {buffers : List (List UInt8)} {polls input rest : List Poll} :
      InTime L buffer polls → Arrives L buffers input rest →
        Arrives L (buffer :: buffers) (polls ++ input) rest

variable {L : Layout}

/-- The decoder is not fed beyond its buffer. -/
theorem length_le_of_unslip {r : Slip.Receiver} {bytes frame : List UInt8}
    (h : unslip L r bytes = some frame) : r.frame.length ≤ L.sizeofFrame := by
  cases bytes with
  | nil => exact absurd h (by rw [unslip]; exact Option.some_ne_none _ |>.symm)
  | cons ch rest =>
      rw [unslip] at h
      by_cases hlong : L.sizeofFrame < r.frame.length
      · rw [if_pos hlong] at h
        exact absurd h (Option.some_ne_none _).symm
      · omega

/-- Polls without a byte do not end a buffer. -/
theorem polls_eq_nil {polls : List Poll} (hbytes : polls.reduceOption = [])
    (hended : polls.getLast? ≠ some none) : polls = [] := by
  cases hlast : polls.getLast? with
  | none => exact List.getLast?_eq_none_iff.mp hlast
  | some poll =>
      cases poll with
      | none => exact absurd hlast hended
      | some b =>
          have hmem : b ∈ polls.reduceOption :=
            List.reduceOption_mem_iff.mpr (List.mem_of_getLast? hlast)
          rw [hbytes] at hmem
          exact absurd hmem List.not_mem_nil

/-- A buffer that arrives is read as its frame, and nothing behind it. -/
theorem readLoop_inTime (rest : List Poll) (frame : List UInt8) :
    ∀ (polls : List Poll) (timeoutCounter : Nat) (r : Slip.Receiver),
      unslip L r polls.reduceOption = some frame → polls.getLast? ≠ some none →
      timeoutCounter + readSleep * polls.count none < L.messageTimeout →
      readLoop L timeoutCounter r (polls ++ rest) = some (frame, rest) := by
  intro polls
  induction polls with
  | nil =>
      intro timeoutCounter r hframe _ _
      exact absurd hframe (by
        rw [List.reduceOption_nil, unslip]
        exact (Option.some_ne_none _).symm)
  | cons poll polls ih =>
      intro timeoutCounter r hframe hended htime
      have hgoes : r.frame.length ≤ L.sizeofFrame ∧ timeoutCounter < L.messageTimeout :=
        ⟨length_le_of_unslip hframe, by omega⟩
      cases poll with
      | none =>
          -- It sleeps, and there is time for it.
          rw [List.cons_append, readLoop, if_pos hgoes]
          rw [List.reduceOption_cons_of_none] at hframe
          rw [List.count_cons_self] at htime
          have hne : polls ≠ [] := by
            intro hnil
            rw [hnil, List.reduceOption_nil, unslip] at hframe
            exact absurd hframe (Option.some_ne_none _).symm
          refine ih (timeoutCounter + readSleep) r hframe ?_ (by linarith)
          rwa [List.getLast?_cons_of_ne_nil hne] at hended
      | some ch =>
          rw [List.cons_append, readLoop, if_pos hgoes]
          rw [List.reduceOption_cons_of_some, unslip, if_neg (by omega)] at hframe
          rw [List.count_cons_of_ne (Option.some_ne_none ch)] at htime
          have hlast : polls.getLast? ≠ some none := by
            cases polls with
            | nil => exact (Option.some_ne_none _).symm
            | cons next polls => rwa [List.getLast?_cons_cons] at hended
          cases hslip : L.slipCharToRawChars L.sizeofFrame ch r with
          | mk done r' =>
              rw [hslip] at hframe
              simp only [] at hframe ⊢
              cases done with
              | true =>
                  -- The frame is whole, and it was the last byte.
                  rw [if_pos rfl] at hframe ⊢
                  by_cases hrest : polls.reduceOption = []
                  · rw [if_pos hrest, Option.some.injEq] at hframe
                    rw [polls_eq_nil hrest hlast, hframe, List.nil_append]
                  · rw [if_neg hrest] at hframe
                    exact absurd hframe (Option.some_ne_none _).symm
              | false =>
                  rw [if_neg Bool.false_ne_true] at hframe ⊢
                  exact ih timeoutCounter r' hframe hlast htime

/-- A frame that arrives. -/
theorem readPhysicalFrame_inTime (hL : L.Lawful) {raw : List UInt8} {polls : List Poll}
    (rest : List Poll) (hmin : L.sizeofHeader ≤ raw.length) (hmax : raw.length ≤ L.sizeofFrame)
    (h : InTime L (L.rawToSlip raw) polls) :
    readPhysicalFrame L (polls ++ rest) = some (L.physicalFrame raw, rest) := by
  have hloop : readLoop L 0 Slip.Receiver.start (polls ++ rest) = some (raw, rest) := by
    refine readLoop_inTime rest raw polls 0 _ ?_ h.ended (by rw [Nat.zero_add]; exact h.inTime)
    rw [h.bytes]
    exact hL.unslip_rawToSlip raw hmin hmax
  rw [readPhysicalFrame, hloop, Option.map_some]

/-- A buffer with a frame takes a poll at least. -/
theorem polls_pos (hL : L.Lawful) {raw : List UInt8} {polls : List Poll}
    (hmin : L.sizeofHeader ≤ raw.length) (hmax : raw.length ≤ L.sizeofFrame)
    (h : InTime L (L.rawToSlip raw) polls) : 0 < polls.length := by
  refine List.length_pos_of_ne_nil fun hnil => ?_
  have hraw := hL.unslip_rawToSlip raw hmin hmax
  rw [← h.bytes, hnil, List.reduceOption_nil, unslip] at hraw
  exact absurd hraw (Option.some_ne_none _).symm

/-- The frames of the buffers that arrive are read in their order. -/
theorem physicalFrames_arrives (hL : L.Lawful) (rest : List Poll) :
    ∀ (raws : List (List UInt8)) (input : List Poll) (calls : Nat),
      (∀ raw ∈ raws, L.sizeofHeader ≤ raw.length ∧ raw.length ≤ L.sizeofFrame) →
      Arrives L (raws.map L.rawToSlip) input rest → input.length ≤ calls →
      ∃ tail, physicalFrames L calls input = raws.map L.physicalFrame ++ tail := by
  intro raws
  induction raws with
  | nil => exact fun input calls _ _ _ => ⟨_, rfl⟩
  | cons raw raws ih =>
      intro input calls hraws harr hcalls
      rw [List.map_cons] at harr
      cases harr with
      | next hin harr =>
          rename_i polls input
          have hraw := hraws raw List.mem_cons_self
          -- Each buffer takes a poll, so the calls are enough for all of them.
          have hpos := polls_pos hL hraw.1 hraw.2 hin
          rw [List.length_append] at hcalls
          cases calls with
          | zero => omega
          | succ calls =>
              rcases ih input calls (fun k hk => hraws k (List.mem_cons_of_mem raw hk)) harr
                (by omega) with ⟨tail, htail⟩
              refine ⟨tail, ?_⟩
              rw [physicalFrames, readPhysicalFrame_inTime hL input hraw.1 hraw.2 hin]
              simp only [htail, List.map_cons, List.cons_append]

/-! ### The frames -/

/-- A header and what follows it. -/
theorem physicalFrame_data (hL : L.Lawful) (crc16 : UInt16) (cmd : Cmd) (data : List UInt8)
    (hcmd : cmd ∈ [Cmd.data, .ack, .nack, .heartbeat]) :
    L.physicalFrame (L.headerBytes { crc16 := crc16, cmd := cmd } ++ data) =
      .whole { crc16 := crc16, cmd := cmd } data := by
  have hlen := hL.length_headerBytes { crc16 := crc16, cmd := cmd }
  rw [Layout.physicalFrame, if_neg (by rw [List.length_append]; omega),
    List.take_left' hlen, List.drop_left' hlen, hL.header_headerBytes crc16 cmd hcmd]

/-- A frame of a header only. -/
theorem physicalFrame_header (hL : L.Lawful) (cmd : Cmd)
    (hcmd : cmd ∈ [Cmd.data, .ack, .nack, .heartbeat]) :
    L.physicalFrame (L.headerBytes (Link.replyHeader L.toConfig cmd)) =
      .whole (Link.replyHeader L.toConfig cmd) [] := by
  have hdata := physicalFrame_data hL L.seed cmd [] hcmd
  rwa [List.append_nil] at hdata

/-- The loop of `readFrame` takes the heartbeats and stops at another frame. -/
theorem skipHeartbeats_heartbeats (f : PhysicalFrame) (tail : List PhysicalFrame)
    (hf : Link.gotHeartbeat f = false) : ∀ h : Nat,
    Link.skipHeartbeats (List.replicate h (.whole (Link.replyHeader L.toConfig .heartbeat) []) ++
      f :: tail) = some (f, tail) := by
  intro h
  induction h with
  | zero =>
      rw [List.replicate_zero, List.nil_append, Link.skipHeartbeats, if_neg (by rw [hf]; decide)]
  | succ h ih =>
      rw [List.replicate_succ, List.cons_append, Link.skipHeartbeats, if_pos (by rfl)]
      exact ih

/-- `readFrame` returns the first frame behind the heartbeats. -/
theorem readFrame_heartbeats (hL : L.Lawful) (s : Link.State) (f : PhysicalFrame)
    (tail : List PhysicalFrame) (h : Nat) (hf : Link.gotHeartbeat f = false)
    (hin : s.input =
      List.replicate h (.whole (Link.replyHeader L.toConfig .heartbeat) []) ++ f :: tail) :
    Link.readFrame L.toConfig s = some (f, { s with input := tail }) := by
  have hinterval : ¬ 0 < L.losePacketInterval := not_lt.mpr hL.lossless
  rw [Link.readFrame, hin, skipHeartbeats_heartbeats f tail hf h]
  simp only [hinterval, if_false]

/-- Heartbeats and a frame behind them, as `readPhysicalFrame` returns them. -/
theorem opened_input (hL : L.Lawful) (raw : List UInt8) (h lossFreeRun : Nat)
    {input rest : List Poll} (hmin : L.sizeofHeader ≤ raw.length)
    (hmax : raw.length ≤ L.sizeofFrame)
    (harr : Arrives L (List.replicate h (L.headerBuffer .heartbeat) ++ [L.rawToSlip raw])
      input rest) :
    ∃ tail, (opened L input lossFreeRun).input =
      List.replicate h (.whole (Link.replyHeader L.toConfig .heartbeat) []) ++
        L.physicalFrame raw :: tail := by
  let raws : List (List UInt8) :=
    List.replicate h (L.headerBytes (Link.replyHeader L.toConfig .heartbeat)) ++ [raw]
  -- The frames have a length that a frame may have.
  have hraws : ∀ k ∈ raws, L.sizeofHeader ≤ k.length ∧ k.length ≤ L.sizeofFrame := by
    intro k hk
    rcases List.mem_append.mp hk with hk | hk
    · rw [List.eq_of_mem_replicate hk, hL.length_headerBytes]
      exact ⟨le_refl _, hL.header_le⟩
    · rw [List.mem_singleton.mp hk]
      exact ⟨hmin, hmax⟩
  have harr' : Arrives L (raws.map L.rawToSlip) input rest := by
    rw [List.map_append, List.map_replicate]
    exact harr
  -- Each becomes one physical frame.
  rcases physicalFrames_arrives hL rest raws input input.length hraws harr' (le_refl _) with
    ⟨tail, htail⟩
  refine ⟨tail, ?_⟩
  rw [opened, htail, List.map_append, List.map_replicate,
    physicalFrame_header hL .heartbeat (by decide), List.map_singleton, List.append_assoc,
    List.singleton_append]

/-! ### The two ends -/

/-- The receiver of a data frame returns its message and sends an ACK. -/
theorem receive_dataFrame (hL : L.Lawful) (data message : List UInt8) (hdata : data ≠ [])
    (h : Nat) (s : Link.State) (tail : List PhysicalFrame)
    (hin : s.input = List.replicate h (.whole (Link.replyHeader L.toConfig .heartbeat) []) ++
      Link.dataFrame L.toConfig data :: tail) :
    receive L message s = some (data.length, data ++ message.drop data.length,
      { s with input := tail, log := s.log ++ Link.replyEvents L.toConfig (some .ack) }) := by
  -- `readFrame` passes over the heartbeats.
  have hframe := readFrame_heartbeats hL s _ tail h
    (by cases data with
      | nil => exact absurd rfl hdata
      | cons b data => rfl) hin
  have hread : Link.readMessage L.toConfig message s =
      some (data.length, data ++ message.drop data.length,
        { s with input := tail, log := s.log ++ Link.replyEvents L.toConfig (some .ack) }) := by
    rw [Link.readMessage_some message hframe, Link.dataFrame,
      Link.handleFrame_intact L.toConfig message data _ rfl rfl]
  -- The message is not empty, so the loop is left after its first attempt.
  have hlen : data.length ≠ 0 := fun h0 => hdata (List.length_eq_zero_iff.mp h0)
  rw [receive, Link.amilinkReadMessage]
  cases hretry : L.retryMax with
  | zero => exact absurd hL.retryMax_pos (by rw [hretry]; exact lt_irrefl 0)
  | succ attempts => simp only [Link.readRetry, hread, hlen, if_false]

/-- An ACK behind heartbeats is an acknowledge. -/
theorem readAck_ack (hL : L.Lawful) (h : Nat) (s : Link.State) (tail : List PhysicalFrame)
    (hin : s.input = List.replicate h (.whole (Link.replyHeader L.toConfig .heartbeat) []) ++
      .whole (Link.replyHeader L.toConfig .ack) [] :: tail) :
    Link.readAck L.toConfig s = some (.ack, { s with input := tail }) := by
  rw [Link.readAck, readFrame_heartbeats hL s _ tail h (by rfl) hin]
  simp only [Link.ackOf, Link.replyHeader, and_self, if_true]

/-- An attempt that is acknowledged. -/
theorem linkSendData_acknowledged (hL : L.Lawful) (message : List UInt8) (length : UInt16)
    (s : Sender) (h : Nat) (tail : List PhysicalFrame)
    (hin : s.link.input = List.replicate h (.whole (Link.replyHeader L.toConfig .heartbeat) []) ++
      .whole (Link.replyHeader L.toConfig .ack) [] :: tail) :
    Link.linkSendData (port L) message length s = some (length,
      { link :=
          { s.link with
            input := tail
            log := s.link.log ++ [.modifyEpollEvent .epollOut] ++ [.modifyEpollEvent .epollIn] }
        sent := s.sent ++ [L.dataBuffer (message.take length.toNat)] }) := by
  -- The ACK stands behind the heartbeats.
  have hack := readAck_ack hL h
    { s.link with
      log := s.link.log ++ [.modifyEpollEvent .epollOut] ++ [.modifyEpollEvent .epollIn] }
    tail hin
  have hport : (port L).readAck
      { link :=
          { s.link with
            log := s.link.log ++ [.modifyEpollEvent .epollOut] ++ [.modifyEpollEvent .epollIn] }
        sent := s.sent ++ [L.dataBuffer (message.take length.toNat)] } = some (.ack,
      { link :=
          { s.link with
            input := tail
            log := s.link.log ++ [.modifyEpollEvent .epollOut] ++ [.modifyEpollEvent .epollIn] }
        sent := s.sent ++ [L.dataBuffer (message.take length.toNat)] }) := by
    simp only [port, hack]
  change ((port L).readAck _).bind _ = _
  rw [hport, Option.bind_some]
  rfl

/-- A message that is acknowledged was sent once. -/
theorem send_acknowledged (hL : L.Lawful) (message : List UInt8) (s : Sender) (h : Nat)
    (tail : List PhysicalFrame) (hpos : (L.messageLength message).toUInt16 ≠ 0)
    (hin : s.link.input = List.replicate h (.whole (Link.replyHeader L.toConfig .heartbeat) []) ++
      .whole (Link.replyHeader L.toConfig .ack) [] :: tail) :
    ∃ link, send L message s = some ((L.messageLength message).toUInt16,
      { link := link
        sent := s.sent ++
          [L.dataBuffer (message.take (L.messageLength message).toUInt16.toNat)] }) := by
  refine ⟨{ s.link with
    input := tail
    log := s.link.log ++ [.modifyEpollEvent .epollOut] ++ [.modifyEpollEvent .epollIn] }, ?_⟩
  change Link.sendRetry (port L) message (L.messageLength message).toUInt16 L.retryMax 0 s = _
  -- One attempt is enough.
  cases hretry : L.retryMax with
  | zero => exact absurd hL.retryMax_pos (by rw [hretry]; exact lt_irrefl 0)
  | succ attempts =>
      rw [Link.sendRetry, if_neg hpos]
      change (Link.linkSendData (port L) message (L.messageLength message).toUInt16 s).bind
        (fun r => Link.sendRetry (port L) message (L.messageLength message).toUInt16 attempts
          r.1 r.2) = _
      rw [linkSendData_acknowledged hL message _ s h tail hin, Option.bind_some,
        Link.sendRetry_done]
      rfl

/-! ### The length of a block -/

/-- Where the data of a block start in a message. -/
def Layout.blockStart (L : Layout) : Message.Topic → Option Nat
  | .fileResponse => some (L.sizes.topic + (L.sizes.filePullResp - L.sizes.payloadMax))
  | .rawDataPushRequest => some (L.sizes.topic + (L.sizes.rawDataPushReq - L.sizes.payloadMax))
  | _ => none

/-- The length of a message with a block is that of its data and of what is in
    front of them. -/
theorem block_within (hL : L.Lawful) (message : List UInt8) (start : Nat)
    (hstart : L.blockStart (L.topic message) = some start)
    (hmax : (L.blockLength message).toNat ≤ L.sizes.payloadMax) :
    (L.messageLength message).toNat = start + (L.blockLength message).toNat := by
  have hblock := hL.block_le
  have hlt := hL.message_lt
  unfold Layout.blockStart at hstart
  split at hstart
  · -- The two topics with a block have it behind a part of fixed size.
    rename_i htopic
    rw [Option.some.injEq] at hstart
    rw [Layout.messageLength, htopic, Message.messageLength, ← hstart,
      UInt32.toNat_ofNat_of_lt' (by rw [UInt32.size]; omega)]
    omega
  · rename_i htopic
    rw [Option.some.injEq] at hstart
    rw [Layout.messageLength, htopic, Message.messageLength, ← hstart,
      UInt32.toNat_ofNat_of_lt' (by rw [UInt32.size]; omega)]
    omega
  · exact absurd hstart (Option.some_ne_none _).symm

/-! ### The round trip -/

/-- For every message whose length is positive and fits into a frame, behind
    any heartbeats in both directions: the receiver returns the length and the
    bytes and sends one ACK, the sender returns the length and has sent the
    message once, and the bytes cover the data of a block. -/
theorem round_trip (hL : L.Lawful) (m buffer : List UInt8) (n : Nat)
    (hn : n = (L.messageLength m).toNat) (hpos : 0 < n) (hfit : L.sizeofHeader + n ≤ L.sizeofFrame)
    (hmem : n ≤ m.length) (heartbeats₁ heartbeats₂ lossFreeRun₁ lossFreeRun₂ : Nat)
    {input₁ rest₁ input₂ rest₂ : List Poll}
    (harr₁ : Arrives L (List.replicate heartbeats₁ (L.headerBuffer .heartbeat) ++
      [L.dataBuffer (m.take n)]) input₁ rest₁)
    (harr₂ : Arrives L (List.replicate heartbeats₂ (L.headerBuffer .heartbeat) ++
      [L.headerBuffer .ack]) input₂ rest₂) :
    ∃ (received : List UInt8) (t : Link.State) (s : Sender),
      receive L buffer (opened L input₁ lossFreeRun₁) = some (n, received, t) ∧
      received.take n = m.take n ∧ L.replies t.log = [L.headerBuffer .ack] ∧
      send L m { link := opened L input₂ lossFreeRun₂, sent := [] } = some (UInt16.ofNat n, s) ∧
      (UInt16.ofNat n).toNat = n ∧ s.sent = [L.dataBuffer (m.take n)] ∧
      ∀ start, L.blockStart (L.topic m) = some start →
        (L.blockLength m).toNat ≤ L.sizes.payloadMax →
        start + (L.blockLength m).toNat ≤ m.length ∧
          (received.take n).drop start = (m.drop start).take (L.blockLength m).toNat := by
  have hlt := hL.frame_lt
  have hlen : (m.take n).length = n := List.length_take_of_le hmem
  have hn16 : (UInt16.ofNat n).toNat = n := UInt16.toNat_ofNat_of_lt' (by rw [UInt16.size]; omega)
  have hlen16 : (L.messageLength m).toUInt16 = UInt16.ofNat n := by
    rw [hn]
    rfl
  have hne : (L.messageLength m).toUInt16 ≠ 0 := by
    intro h0
    rw [hlen16] at h0
    rw [h0] at hn16
    exact absurd hn16 (by simp only [UInt16.toNat_zero]; omega)
  -- The frame of the message, and that of the ACK.
  have hheader := hL.length_headerBytes
    { crc16 := L.calcCrc16 (m.take n) L.seed, cmd := .data }
  rcases opened_input hL (L.headerBytes { crc16 := L.calcCrc16 (m.take n) L.seed, cmd := .data } ++
      m.take n) heartbeats₁ lossFreeRun₁ (by rw [List.length_append]; omega)
      (by rw [List.length_append]; omega) harr₁ with ⟨tail₁, htail₁⟩
  rcases opened_input hL (L.headerBytes (Link.replyHeader L.toConfig .ack)) heartbeats₂
      lossFreeRun₂ (by rw [hL.length_headerBytes])
      (by rw [hL.length_headerBytes]; exact hL.header_le) harr₂ with ⟨tail₂, htail₂⟩
  rw [physicalFrame_data hL _ .data _ (by decide)] at htail₁
  rw [physicalFrame_header hL .ack (by decide)] at htail₂
  have hreceive := receive_dataFrame hL (m.take n) buffer
    (List.ne_nil_of_length_pos (by omega)) heartbeats₁ (opened L input₁ lossFreeRun₁) tail₁ htail₁
  rcases send_acknowledged hL m { link := opened L input₂ lossFreeRun₂, sent := [] } heartbeats₂
    tail₂ hne htail₂ with ⟨link, hsend⟩
  rw [hlen] at hreceive
  rw [hlen16, hn16] at hsend
  refine ⟨_, _, _, hreceive, List.take_left' hlen, rfl, hsend, hn16, rfl, ?_⟩
  intro start hstart hmax
  have hwithin := block_within hL m start hstart hmax
  rw [← hn] at hwithin
  refine ⟨by omega, ?_⟩
  rw [List.take_left' hlen, List.drop_take]
  congr 1
  omega

/-! ### One layout -/

/-- The 32 bits of four bytes. -/
def word : List UInt8 → UInt32
  | [a, b, c, d] => UInt32.ofNat
      (a.toNat + 2 ^ 8 * b.toNat + 2 ^ 16 * c.toNat + 2 ^ 24 * d.toNat)
  | _ => 0

/-- Three bytes as a header. -/
def slipHeader : List UInt8 → Header
  | [low, high, cmd] =>
      { crc16 := UInt16.ofNat (low.toNat + 2 ^ 8 * high.toNat)
        cmd := if cmd = 1 then .data else if cmd = 2 then .ack else if cmd = 3 then .nack
          else if cmd = 4 then .heartbeat else .other cmd.toNat }
  | _ => { crc16 := 0, cmd := .other 0 }

/-- Messages of a byte for the topic. A block has its length in four bytes, and
    up to eight bytes of data. -/
def slipLayout : Layout :=
  { Wire.slipEncoding with
    sizes :=
      { topic := 1, dataLogPushReq := 4, dataLogPushResp := 0, testFetchReq := 0,
        testFetchResp := 4, filePullReq := 4, filePullResp := 12, rawDataPushReq := 12,
        rawDataPushResponse := 0, rawDataRequiredReq := 0, rawDataRequiredResp := 4,
        versionReq := 4, versionResp := 4, deviceRegisterReq := 8, deviceRegisterResp := 0,
        payloadMax := 8 }
    topic := fun message => match message.head? with
      | some 6 => .fileResponse
      | some 7 => .rawDataPushRequest
      | _ => .goodbyeRequest
    blockLength := fun message => word ((message.drop 1).take 4)
    sizeofHeader := 3
    sizeofFrame := 32
    header := slipHeader
    slipCharToRawChars := Slip.receive
    messageTimeout := 1000000 }

/-- What `Slip.decode` decodes, the loop of `readPhysicalFrame` does. -/
theorem unslip_of_decode (frame : List UInt8) : ∀ (bytes : List UInt8) (r : Slip.Receiver),
    r.frame.length ≤ slipLayout.sizeofFrame →
    Slip.decode slipLayout.sizeofFrame r bytes = some (frame, []) →
    unslip slipLayout r bytes = some frame := by
  intro bytes
  induction bytes with
  | nil => exact fun r _ h => absurd h (Option.some_ne_none _).symm
  | cons b rest ih =>
      intro r hr h
      rw [Slip.decode] at h
      rw [unslip, if_neg (not_lt.mpr hr)]
      change (if (Slip.receive slipLayout.sizeofFrame b r).1 = true then
          (if rest = [] then some (Slip.receive slipLayout.sizeofFrame b r).2.frame else none)
        else unslip slipLayout (Slip.receive slipLayout.sizeofFrame b r).2 rest) = some frame
      -- The byte ends the frame, or the receiver goes on with a longer one.
      by_cases hdone : (Slip.receive slipLayout.sizeofFrame b r).1 = true
      · rw [if_pos hdone, Option.some.injEq, Prod.mk.injEq] at h
        rw [if_pos hdone, if_pos h.2, h.1]
      · rw [if_neg hdone] at h
        rw [if_neg hdone]
        exact ih _ (Slip.receive_length _ b r hr) h

/-- The two bytes of a CRC. -/
theorem crc16_bytes (crc : UInt16) :
    UInt16.ofNat (crc.toUInt8.toNat + 2 ^ 8 * (crc >>> 8).toUInt8.toNat) = crc := by
  refine UInt16.toNat_inj.mp ?_
  have hlt := crc.toNat_lt
  have hhigh : (crc >>> 8).toNat = crc.toNat / 2 ^ 8 := by
    rw [UInt16.toNat_shiftRight, Nat.shiftRight_eq_div_pow]
    rfl
  rw [UInt16.toNat_ofNat', UInt16.toNat_toUInt8, UInt16.toNat_toUInt8, hhigh]
  omega

theorem slipLayout_lawful : slipLayout.Lawful where
  retryMax_pos := by decide
  lossless := by decide
  length_headerBytes := fun _ => rfl
  -- The CRC and the command are read back from their bytes.
  header_headerBytes := by
    intro crc cmd hcmd
    change slipHeader [crc.toUInt8, (crc >>> 8).toUInt8, Wire.cmdByte cmd] = _
    rw [slipHeader, crc16_bytes]
    simp only [List.mem_cons, List.not_mem_nil, or_false] at hcmd
    rcases hcmd with rfl | rfl | rfl | rfl <;> rfl
  header_le := by decide
  frame_lt := by decide
  unslip_rawToSlip := by
    intro frame _ hmax
    -- What was encoded is decoded by the same receiver.
    refine unslip_of_decode frame _ _ (by decide) ?_
    have hdecode := Slip.decode_encode slipLayout.sizeofFrame frame [] hmax
    rwa [List.append_nil] at hdecode
  block_le := by decide
  message_lt := by decide

/-- A block of three bytes. -/
def blockMessage : List UInt8 := [6, 3, 0, 0, 0, 10, 20, 30, 0, 0, 0, 0, 0]

/-- The bytes of a buffer without a pause arrive in time. -/
theorem inTime_at_once (buffer : List UInt8) : InTime slipLayout buffer (buffer.map some) where
  bytes := by
    unfold List.reduceOption
    rw [List.filterMap_map]
    exact List.filterMap_some
  ended := by
    rw [List.getLast?_map]
    cases buffer.getLast? with
    | none => exact (Option.some_ne_none _).symm
    | some b => exact fun h => Option.some_ne_none b (Option.some.inj h)
  inTime := by
    rw [List.count_eq_zero.mpr (fun h => by
      rcases List.mem_map.mp h with ⟨b, _, hb⟩
      exact Option.some_ne_none b hb)]
    decide

/-- A block goes across behind a heartbeat. -/
theorem round_trip_block :
    ∃ (received : List UInt8) (t : Link.State) (s : Sender),
      receive slipLayout [] (opened slipLayout
        ((slipLayout.headerBuffer .heartbeat).map some ++
          ((slipLayout.dataBuffer (blockMessage.take 8)).map some ++ [])) 0) =
        some (8, received, t) ∧
      received.take 8 = blockMessage.take 8 ∧
      slipLayout.replies t.log = [slipLayout.headerBuffer .ack] ∧
      send slipLayout blockMessage
        { link := opened slipLayout ((slipLayout.headerBuffer .ack).map some ++ []) 0,
          sent := [] } = some (8, s) ∧
      s.sent = [slipLayout.dataBuffer (blockMessage.take 8)] ∧
      (received.take 8).drop 5 = [10, 20, 30] := by
  -- Every byte comes in time.
  have harr₁ : Arrives slipLayout [slipLayout.headerBuffer .heartbeat,
      slipLayout.dataBuffer (blockMessage.take 8)] _ [] :=
    .next (inTime_at_once _) (.next (inTime_at_once _) (.none []))
  have harr₂ : Arrives slipLayout [slipLayout.headerBuffer .ack] _ [] :=
    .next (inTime_at_once _) (.none [])
  rcases round_trip slipLayout_lawful blockMessage [] 8 (by decide) (by decide) (by decide)
    (by decide) 1 0 0 0 harr₁ harr₂ with
    ⟨received, t, s, hreceive, htake, hreplies, hsend, _, hsent, hblock⟩
  exact ⟨received, t, s, hreceive, htake, hreplies, hsend, hsent,
    (hblock 5 (by decide) (by decide)).2⟩

/-- A block whose length makes that of its message 0. -/
def emptyMessage : List UInt8 := [6, 0xFB, 0xFF, 0xFF, 0xFF, 0, 0, 0, 0, 0, 0, 0, 0]

/-- The length of the message is 0, and it is not sent. -/
theorem empty_message_not_sent : (slipLayout.messageLength emptyMessage).toNat = 0 ∧
    ∀ s, send slipLayout emptyMessage s = some (0, s) := by
  refine ⟨by decide, fun s => ?_⟩
  have hlen : (slipLayout.messageLength emptyMessage).toUInt16 = 0 := by decide
  change Link.sendRetry (port slipLayout) emptyMessage
    (slipLayout.messageLength emptyMessage).toUInt16 slipLayout.retryMax 0 s = _
  rw [hlen, Link.sendRetry_done]
  rfl

end Transfer

end EpollServer
