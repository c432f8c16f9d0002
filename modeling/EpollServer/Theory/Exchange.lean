import EpollServer.Theory.Transfer

/-!
# A Request and Its Response

What becomes of a request of `amilinkGetResponse` and of the response to it,
from the bytes at one end to the bytes at the other and back.

Each end sends a message and an ACK and reads the other two, so a stream of
bytes carries two frames, behind any heartbeats and with any pauses that stay
below the timeout. `readPhysicalFrame` stops at the end of a frame, and what
is behind it is there for the next call: that is why the response is still
found when it was under way before the ACK was read.

## Theorems

* `opened_two`: The two frames of a stream.
* `send_acknowledged_link`: A message is sent once, and one frame is taken.
* `exchange`: A request and its response.
-/

namespace EpollServer

namespace Transfer

open Link (Cmd Header PhysicalFrame)

variable {L : Layout}

/-- So many heartbeats, as they are read. -/
def beats (L : Layout) (h : Nat) : List PhysicalFrame :=
  List.replicate h (.whole (Link.replyHeader L.toConfig .heartbeat) [])

/-- Two frames, each behind some heartbeats, as `readPhysicalFrame` returns
    them. -/
theorem opened_two (hL : L.Lawful) {raw₁ raw₂ : List UInt8} (h₁ h₂ lossFreeRun : Nat)
    {input rest : List Poll}
    (hmin₁ : L.sizeofHeader ≤ raw₁.length) (hmax₁ : raw₁.length ≤ L.sizeofFrame)
    (hmin₂ : L.sizeofHeader ≤ raw₂.length) (hmax₂ : raw₂.length ≤ L.sizeofFrame)
    (harr : Arrives L (List.replicate h₁ (L.headerBuffer .heartbeat) ++ L.rawToSlip raw₁ ::
      (List.replicate h₂ (L.headerBuffer .heartbeat) ++ [L.rawToSlip raw₂])) input rest) :
    ∃ tail, (opened L input lossFreeRun).input = beats L h₁ ++ L.physicalFrame raw₁ ::
      (beats L h₂ ++ L.physicalFrame raw₂ :: tail) := by
  -- All that arrives is one sequence of raw frames: heartbeats, an answer, heartbeats, an answer.
  let beat : List UInt8 := L.headerBytes (Link.replyHeader L.toConfig .heartbeat)
  let raws : List (List UInt8) :=
    List.replicate h₁ beat ++ raw₁ :: (List.replicate h₂ beat ++ [raw₂])
  have hbeat : L.sizeofHeader ≤ beat.length ∧ beat.length ≤ L.sizeofFrame := by
    rw [hL.length_headerBytes]
    exact ⟨le_refl _, hL.header_le⟩
  have hraws : ∀ k ∈ raws, L.sizeofHeader ≤ k.length ∧ k.length ≤ L.sizeofFrame := by
    intro k hk
    rcases List.mem_append.mp hk with hk | hk
    · rw [List.eq_of_mem_replicate hk]
      exact hbeat
    rcases List.mem_cons.mp hk with rfl | hk
    · exact ⟨hmin₁, hmax₁⟩
    rcases List.mem_append.mp hk with hk | hk
    · rw [List.eq_of_mem_replicate hk]
      exact hbeat
    · rw [List.mem_singleton.mp hk]
      exact ⟨hmin₂, hmax₂⟩
  -- Seen so, every element is a raw frame in SLIP.
  have harr' : Arrives L (raws.map L.rawToSlip) input rest := by
    rw [List.map_append, List.map_replicate, List.map_cons, List.map_append, List.map_replicate]
    exact harr
  rcases physicalFrames_arrives hL rest raws input input.length hraws harr' (le_refl _) with
    ⟨tail, htail⟩
  refine ⟨tail, ?_⟩
  rw [opened, htail, List.map_append, List.map_replicate, List.map_cons, List.map_append,
    List.map_replicate, physicalFrame_header hL .heartbeat (by decide), List.map_singleton]
  simp only [beats, List.append_assoc, List.cons_append, List.nil_append]

/-- A message that is acknowledged was sent once, and the frame behind the ACK
    is the next one. -/
theorem send_acknowledged_link (hL : L.Lawful) {message : List UInt8} {s : Sender} (h : Nat)
    {tail : List PhysicalFrame} (hpos : (L.messageLength message).toUInt16 ≠ 0)
    (hin : s.link.input = beats L h ++
      .whole (Link.replyHeader L.toConfig .ack) [] :: tail) :
    send L message s = some ((L.messageLength message).toUInt16,
      { link :=
          { s.link with
            input := tail
            log := s.link.log ++ [.modifyEpollEvent .epollOut] ++ [.modifyEpollEvent .epollIn] }
        sent := s.sent ++
          [L.dataBuffer (message.take (L.messageLength message).toUInt16.toNat)] }) := by
  change Link.sendRetry (port L) message (L.messageLength message).toUInt16 L.retryMax 0 s = _
  rcases Nat.exists_eq_succ_of_ne_zero (Nat.ne_of_gt hL.retryMax_pos) with ⟨attempts, hretry⟩
  rw [hretry, Link.sendRetry, if_neg hpos]
  change (Link.linkSendData (port L) message (L.messageLength message).toUInt16 s).bind
    (fun r => Link.sendRetry (port L) message (L.messageLength message).toUInt16 attempts
      r.1 r.2) = _
  rw [linkSendData_acknowledged hL message _ s h tail hin, Option.bind_some, Link.sendRetry_done]
  rfl

/-- A request that is acknowledged, and a message that is read behind it. -/
theorem amilinkGetResponse_some {request response message' : List UInt8} {x z : Sender}
    {written : UInt16} {messageLength : Nat} {link' : Link.State}
    (hsend : send L request x = some (written, z)) (hwritten : 0 < written)
    (hread : receive L response z.link = some (messageLength, message', link')) :
    amilinkGetResponse L request response x =
      some ((messageLength, message'), { z with link := link' }) := by
  change (send L request x).bind (fun r => (if 0 < r.1 then receiveM L response
    else pure (0, response)) r.2) = _
  rw [hsend, Option.bind_some, if_pos hwritten, receiveM, hread]

/-- A message whose length fits into a frame. -/
structure Layout.Fits (L : Layout) (message : List UInt8) (n : Nat) : Prop where
  length : n = (L.messageLength message).toNat
  pos : 0 < n
  frame : L.sizeofHeader + n ≤ L.sizeofFrame
  memory : n ≤ message.length

/-- Its length is that of `amilinkSendMessage`. -/
theorem Layout.Fits.toUInt16 (hL : L.Lawful) {message : List UInt8} {n : Nat}
    (h : L.Fits message n) :
    (L.messageLength message).toUInt16.toNat = n ∧ (L.messageLength message).toUInt16 ≠ 0 := by
  have hlt := hL.frame_lt
  have hframe := h.frame
  have hn : (L.messageLength message).toUInt16.toNat = n := by
    rw [UInt32.toNat_toUInt16, ← h.length]
    omega
  refine ⟨hn, fun h0 => ?_⟩
  rw [h0] at hn
  exact Nat.ne_of_gt h.pos hn.symm

/-- Its frame can be read. -/
theorem Layout.Fits.raw (hL : L.Lawful) {message : List UInt8} {n : Nat} (h : L.Fits message n)
    (header : Header) :
    L.sizeofHeader ≤ (L.headerBytes header ++ message.take n).length ∧
      (L.headerBytes header ++ message.take n).length ≤ L.sizeofFrame := by
  have hframe := h.frame
  rw [List.length_append, hL.length_headerBytes, List.length_take_of_le h.memory]
  omega

/-- For every request and response that fit into a frame, behind any heartbeats
    and with any pauses below the timeout: what the device sends in
    `amilinkGetResponse` is what the server reads, what the server sends is
    what the device reads, both messages arrive unchanged, and each is sent
    once. -/
theorem exchange (hL : L.Lawful) {request response : List UInt8} {n k : Nat}
    (hn : L.Fits request n) (hk : L.Fits response k) (requestBuffer responseBuffer : List UInt8)
    (h₁ h₂ h₃ h₄ lossFreeRun₁ lossFreeRun₂ : Nat) {device rest₁ server rest₂ : List Poll}
    (hdevice : Arrives L (List.replicate h₁ (L.headerBuffer .heartbeat) ++
      L.headerBuffer .ack :: (List.replicate h₂ (L.headerBuffer .heartbeat) ++
        [L.dataBuffer (response.take k)])) device rest₁)
    (hserver : Arrives L (List.replicate h₃ (L.headerBuffer .heartbeat) ++
      L.dataBuffer (request.take n) :: (List.replicate h₄ (L.headerBuffer .heartbeat) ++
        [L.headerBuffer .ack])) server rest₂) :
    ∃ (received : List UInt8) (y : Sender) (received' : List UInt8) (z : Link.State) (w : Sender),
      (amilinkGetResponse L request responseBuffer ⟨opened L device lossFreeRun₁, []⟩ =
          some ((k, received), y) ∧ received.take k = response.take k ∧
        y.sent = [L.dataBuffer (request.take n)] ∧
        L.replies y.link.log = [L.headerBuffer .ack]) ∧
      receive L requestBuffer (opened L server lossFreeRun₂) = some (n, received', z) ∧
        received'.take n = request.take n ∧
        send L response ⟨z, []⟩ = some (UInt16.ofNat k, w) ∧
        w.sent = [L.dataBuffer (response.take k)] ∧
        L.replies w.link.log = [L.headerBuffer .ack] := by
  rcases hn.toUInt16 hL with ⟨hn16, hn0⟩
  rcases hk.toUInt16 hL with ⟨hk16, hk0⟩
  have hnlen : (request.take n).length = n := List.length_take_of_le hn.memory
  have hklen : (response.take k).length = k := List.length_take_of_le hk.memory
  have hack : L.sizeofHeader ≤ (L.headerBytes (Link.replyHeader L.toConfig .ack)).length ∧
      (L.headerBytes (Link.replyHeader L.toConfig .ack)).length ≤ L.sizeofFrame := by
    rw [hL.length_headerBytes]
    exact ⟨le_refl _, hL.header_le⟩
  have hrequest := hn.raw hL { crc16 := L.calcCrc16 (request.take n) L.seed, cmd := .data }
  have hresponse := hk.raw hL { crc16 := L.calcCrc16 (response.take k) L.seed, cmd := .data }
  -- What each end reads.
  rcases opened_two hL h₁ h₂ lossFreeRun₁ hack.1 hack.2 hresponse.1 hresponse.2 hdevice with
    ⟨tail₁, hin₁⟩
  rcases opened_two hL h₃ h₄ lossFreeRun₂ hrequest.1 hrequest.2 hack.1 hack.2 hserver with
    ⟨tail₂, hin₂⟩
  rw [physicalFrame_header hL .ack (by decide), physicalFrame_data hL _ .data _ (by decide)]
    at hin₁ hin₂
  -- The device sends the request and takes the ACK, and then the response.
  let log₁ : List Link.Event := [.modifyEpollEvent .epollOut, .modifyEpollEvent .epollIn]
  let y : Sender :=
    { link := ⟨tail₁, lossFreeRun₁, log₁ ++ Link.replyEvents L.toConfig (some .ack)⟩
      sent := [L.dataBuffer (request.take n)] }
  have hsend := send_acknowledged_link hL (s := ⟨opened L device lossFreeRun₁, []⟩) h₁ hn0 hin₁
  have hread := receive_dataFrame hL (response.take k) responseBuffer
    (List.ne_nil_of_length_pos (by rw [hklen]; exact hk.pos)) h₂
    ⟨beats L h₂ ++ Link.dataFrame L.toConfig (response.take k) :: tail₁, lossFreeRun₁, log₁⟩
    tail₁ rfl
  have hwritten : 0 < (L.messageLength request).toUInt16 := UInt16.pos_iff_ne_zero.mpr hn0
  -- The server reads the request, and sends the response and takes the ACK.
  let z : Link.State :=
    ⟨beats L h₄ ++ .whole (Link.replyHeader L.toConfig .ack) [] :: tail₂, lossFreeRun₂,
      Link.replyEvents L.toConfig (some .ack)⟩
  let w : Sender :=
    { link := ⟨tail₂, lossFreeRun₂, z.log ++ [.modifyEpollEvent .epollOut] ++
        [.modifyEpollEvent .epollIn]⟩
      sent := [L.dataBuffer (response.take k)] }
  have hread' := receive_dataFrame hL (request.take n) requestBuffer
    (List.ne_nil_of_length_pos (by rw [hnlen]; exact hn.pos)) h₃ (opened L server lossFreeRun₂)
    _ hin₂
  have hsend' := send_acknowledged_link hL (s := ⟨z, []⟩) h₄ hk0 rfl
  refine ⟨response.take k ++ responseBuffer.drop (response.take k).length, y,
    request.take n ++ requestBuffer.drop (request.take n).length, z, w,
    ⟨?_, List.take_left' hklen, rfl, rfl⟩, ?_, List.take_left' hnlen, ?_, rfl, rfl⟩
  · rw [amilinkGetResponse_some hsend hwritten hread, hn16, hklen]
    rfl
  · rw [hread', hnlen]
    rfl
  · have hlen : (L.messageLength response).toUInt16 = UInt16.ofNat k := by
      rw [← hk16, UInt16.ofNat_toNat]
    rw [hsend', hk16, hlen]
    rfl

/-- A request of a byte, and a block behind a heartbeat in response. -/
theorem exchange_block :
    ∃ (received : List UInt8) (y : Sender) (z : Link.State) (w : Sender),
      amilinkGetResponse slipLayout [5] [] ⟨opened slipLayout
        ((slipLayout.headerBuffer .ack).map some ++
          ((slipLayout.headerBuffer .heartbeat).map some ++
            ((slipLayout.dataBuffer (blockMessage.take 8)).map some ++ []))) 0, []⟩ =
          some ((8, received), y) ∧
        received.take 8 = blockMessage.take 8 ∧
        send slipLayout blockMessage ⟨z, []⟩ = some (8, w) ∧
        w.sent = [slipLayout.dataBuffer (blockMessage.take 8)] := by
  have hdevice : Arrives slipLayout [slipLayout.headerBuffer .ack,
      slipLayout.headerBuffer .heartbeat, slipLayout.dataBuffer (blockMessage.take 8)] _ [] :=
    -- The device answers and sends one heartbeat in between; the server acknowledges.
    .next (inTime_at_once _) (.next (inTime_at_once _) (.next (inTime_at_once _) (.none [])))
  have hserver : Arrives slipLayout [slipLayout.dataBuffer [5], slipLayout.headerBuffer .ack]
      _ [] :=
    .next (inTime_at_once _) (.next (inTime_at_once _) (.none []))
  have hn : slipLayout.Fits [5] 1 := ⟨by decide, by decide, by decide, by decide⟩
  have hk : slipLayout.Fits blockMessage 8 := ⟨by decide, by decide, by decide, by decide⟩
  rcases exchange slipLayout_lawful hn hk [] [] 0 1 0 0 0 0 hdevice hserver with
    ⟨received, y, _, z, w, ⟨hcode, htake, _⟩, _, _, hsend, hsent, _⟩
  exact ⟨received, y, z, w, hcode, htake, hsend, hsent⟩

end Transfer

end EpollServer
