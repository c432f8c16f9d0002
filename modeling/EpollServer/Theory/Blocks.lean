import EpollServer.Theory.Interest

/-!
# Blocks of a File

What the two senders of files have in common: messages with their outcomes,
and blocks that follow one another.

Of a state the senders look at little, and they leave a list of messages, each
with what `amilinkSendMessage` returned for it. `World.view` is that part of a
state. Modifications do not show in it, and a message adds one element to its
list. Whether a message is acknowledged depends on its number alone
(`acknowledged`), so that the outcomes of the messages are a sequence, and any
sequence if an attempt is made at all.

A file response with a block of at least one byte has a length that is not 0
modulo `2 ^ 16`, since a frame is shorter than `2 ^ 16` bytes. That and the
place of the data at the end of a block are facts about `mqs.h`, and no dump
of a JSON value is empty; these are assumed as `Context.Lawful`.

## Main definitions

* `Context.Lawful`: What is assumed of the missing headers.
* `View`: What the senders of files look at and leave behind.
* `acknowledged`: Whether a message is acknowledged.
* `payload`: The bytes of a block.
* `Consecutive`: Blocks that follow one another, up to a total length.
* `zeroBlock`: The block of an error response.

## Theorems

* `amilinkSendMessage_view`: A message.
* `respond_view`: A response.
* `dataSent_ne_zero`: A block that is acknowledged was sent.
* `toNat_ofNat_lt`: A length that fits into 32 bits.
* `take_overwrite`: The bytes written to a block are its payload.
-/

namespace EpollServer

namespace Requests

open Effect (bind_ok)
open Push (MqsCldFile)

variable {ν : Type}

/-- What is assumed of the missing headers. -/
structure Context.Lawful (X : Context ν) : Prop where
  payloadMax_eq : X.sizes.payloadMax = X.layout.payloadMax
  payloadMax_pos : 0 < X.layout.payloadMax
  /-- Three numbers of 32 bits stand in front of the data of a block. -/
  block_le : X.layout.payloadMax + 12 ≤ X.sizes.filePullResp
  frame_lt : X.sizes.topic + X.sizes.filePullResp < 2 ^ 16
  dump_ne_nil : ∀ value, X.json.dump value ≠ []

/-- What the senders of files look at and leave behind. -/
@[ext]
structure View (P : Nat) where
  isAlgorithmNeeded : Bool
  sends : Nat
  seeks : Nat
  reads : Nat
  messages : List (Response P × UInt16)

/-- A message with its outcome. -/
def message? {P : Nat} : Event P → Option (Response P × UInt16)
  | .message response dataSent => some (response, dataSent)
  | _ => none

/-- The part of a state that the senders look at. -/
def World.view {P : Nat} (w : World ν P) : View P :=
  { isAlgorithmNeeded := w.isAlgorithmNeeded, sends := w.sends, seeks := w.seeks, reads := w.reads
    messages := w.log.filterMap message? }

/-- A message that was sent. -/
def View.sent {P : Nat} (v : View P) (response : Response P) (dataSent : UInt16) : View P :=
  { v with sends := v.sends + 1, messages := v.messages ++ [(response, dataSent)] }

variable (X : Context ν)

/-- Whether one of so many attempts is acknowledged, from attempt `i` on. -/
def acknowledgedFrom (n : Nat) : Nat → Nat → Bool
  | 0, _ => false
  | attempts + 1, i =>
      decide (Link.ackOf X.link (X.replies n i) = .ack) || acknowledgedFrom n attempts (i + 1)

/-- Whether the n-th message is acknowledged. -/
def acknowledged (n : Nat) : Bool := acknowledgedFrom X n X.link.retryMax 0

/-- What `amilinkSendMessage` returns for the n-th message. -/
def dataSent (n : Nat) (response : Response X.layout.payloadMax) : UInt16 :=
  if acknowledged X n then
    (Message.messageLength X.sizes response.blockLength response.topic).toUInt16
  else 0

variable {X}

/-! ### Messages -/

theorem setEvents_view (events : Epoll.Interest) (w : World ν X.layout.payloadMax) :
    ∃ t, setEvents X events w = .ok () t ∧ t.view = w.view := ⟨_, rfl, rfl⟩

/-- An attempt. -/
theorem linkSendData_view (response : Response X.layout.payloadMax) (length : UInt16)
    (w : World ν X.layout.payloadMax) :
    ∃ t, Link.linkSendData (port X) response length w =
      .ok (if Link.ackOf X.link (X.replies w.sends w.attempts) = .ack then length else 0) t ∧
      t.view = w.view ∧ t.attempts = w.attempts + 1 := by
  refine ⟨_, rfl, ?_, rfl⟩
  simp only [World.view, View.mk.injEq, true_and]
  simp only [List.filterMap_append, List.filterMap_cons, List.filterMap_nil, message?,
    List.append_nil]

/-- The attempts. -/
theorem sendRetry_view (response : Response X.layout.payloadMax) (length : UInt16)
    (hlength : length ≠ 0) : ∀ (attempts : Nat) (w : World ν X.layout.payloadMax),
    ∃ t, Link.sendRetry (port X) response length attempts 0 w =
      .ok (if acknowledgedFrom X w.sends attempts w.attempts then length else 0) t ∧
      t.view = w.view := by
  intro attempts
  induction attempts with
  | zero => exact fun w => ⟨w, rfl, rfl⟩
  | succ attempts ih =>
      intro w
      rcases linkSendData_view response length w with ⟨t, hrun, hview, hattempts⟩
      have hsends : t.sends = w.sends := congrArg View.sends hview
      rw [Link.sendRetry, if_neg hlength, bind_ok _ hrun, acknowledgedFrom]
      -- The loop ends with the first attempt that is acknowledged.
      by_cases hack : Link.ackOf X.link (X.replies w.sends w.attempts) = .ack
      · rw [if_pos hack, Link.sendRetry_done, decide_eq_true hack, Bool.true_or]
        exact ⟨t, rfl, hview⟩
      · rw [if_neg hack, decide_eq_false hack, Bool.false_or]
        rcases ih t with ⟨u, hu, huview⟩
        rw [hsends, hattempts] at hu
        exact ⟨u, hu, huview.trans hview⟩

/-- A message. -/
theorem amilinkSendMessage_view (response : Response X.layout.payloadMax)
    (w : World ν X.layout.payloadMax) :
    ∃ t, amilinkSendMessage X response w = .ok (dataSent X w.sends response) t ∧
      t.view = w.view.sent response (dataSent X w.sends response) := by
  let length : UInt16 :=
    (Message.messageLength X.sizes response.blockLength response.topic).toUInt16
  have hretry : ∃ t, Link.sendRetry (port X) response length X.link.retryMax 0
      { w with attempts := 0 } = .ok (dataSent X w.sends response) t ∧ t.view = w.view := by
    -- A message of length 0 counts as sent before the first attempt.
    by_cases hlength : length = 0
    · have hzero : dataSent X w.sends response = length := by
        unfold dataSent
        split
        · rfl
        · exact hlength.symm
      rw [hzero]
      refine ⟨{ w with attempts := 0 }, ?_, rfl⟩
      have hdone := Link.sendRetry_done (port X) response length X.link.retryMax
      rw [hlength] at hdone ⊢
      rw [hdone]
      rfl
    · exact sendRetry_view response length hlength X.link.retryMax { w with attempts := 0 }
  rcases hretry with ⟨t, hrun, hview⟩
  refine ⟨{ t with
    sends := t.sends + 1
    log := t.log ++ [.message response (dataSent X w.sends response)] }, ?_, ?_⟩
  · change (Link.sendRetry (port X) response length X.link.retryMax 0 >>= _)
      { w with attempts := 0 } = _
    rw [bind_ok _ hrun]
    rfl
  · have hviews := hview
    simp only [World.view, View.mk.injEq] at hviews
    simp only [World.view, View.sent, View.mk.injEq, List.filterMap_append,
      List.filterMap_cons, List.filterMap_nil, message?]
    exact ⟨hviews.1, by rw [hviews.2.1], hviews.2.2.1, hviews.2.2.2.1, by rw [hviews.2.2.2.2]⟩

/-- A response. -/
theorem respond_view (response : Response X.layout.payloadMax) (w : World ν X.layout.payloadMax) :
    ∃ t, respond X response w = .ok () t ∧
      t.view = w.view.sent response (dataSent X w.sends response) := by
  rcases setEvents_view .epollOut w with ⟨u, hu, huview⟩
  have hsends : u.sends = w.sends := congrArg View.sends huview
  rcases amilinkSendMessage_view response u with ⟨v, hv, hvview⟩
  rcases setEvents_view .epollIn v with ⟨t, ht, htview⟩
  refine ⟨t, ?_, ?_⟩
  · rw [respond, bind_ok _ hu, bind_ok _ hv]
    exact ht
  · rw [htview, hvview, huview, hsends]

/-! ### Blocks -/

/-- A number of 32 bits. -/
theorem toNat_ofNat_lt {n : Nat} (h : n < 2 ^ 32) : (UInt32.ofNat n).toNat = n :=
  UInt32.toNat_ofNat_of_lt' h

theorem ofNat_pos {n : Nat} (hpos : 0 < n) (h : n < 2 ^ 32) : (0 : UInt32) < UInt32.ofNat n := by
  rw [UInt32.lt_iff_toNat_lt, toNat_ofNat_lt h]
  exact hpos

/-- The bytes of a block. -/
def payload {P : Nat} (block : MqsCldFile P) : List UInt8 :=
  block.data.toList.take block.length.toNat

/-- The block of an error response. -/
def zeroBlock (P : Nat) : MqsCldFile P :=
  { offset := 0, length := 0, totalLength := 0, data := Vector.replicate P 0 }

/-- Blocks that follow one another from an offset on, none empty, within a
    total length that all of them carry. -/
inductive Consecutive {P : Nat} (totalLength : Nat) : Nat → List (MqsCldFile P) → Prop
  | nil (offset : Nat) : Consecutive totalLength offset []
  | cons {offset : Nat} {block : MqsCldFile P} {rest : List (MqsCldFile P)} :
      block.offset.toNat = offset → 1 ≤ block.length.toNat → block.length.toNat ≤ P →
      block.totalLength.toNat = totalLength → offset + block.length.toNat ≤ totalLength →
      Consecutive totalLength (offset + block.length.toNat) rest →
      Consecutive totalLength offset (block :: rest)

/-- How many bytes some blocks have. -/
def totalOf {P : Nat} (blocks : List (MqsCldFile P)) : Nat :=
  (blocks.map fun block => block.length.toNat).sum

/-- Consecutive blocks lie within the total length. -/
theorem within_of_consecutive {P totalLength offset : Nat} {blocks : List (MqsCldFile P)}
    (h : Consecutive totalLength offset blocks) :
    ∀ block ∈ blocks, block.offset.toNat + block.length.toNat ≤ totalLength := by
  induction h with
  | nil offset => exact fun block hmem => absurd hmem List.not_mem_nil
  | cons hoffset _ _ _ hwithin _ ih =>
      intro block hmem
      rcases List.mem_cons.mp hmem with rfl | hmem
      · rw [hoffset]
        exact hwithin
      · exact ih block hmem

/-- The bytes written to the front of an array are there. -/
theorem take_overwrite {P : Nat} (bytes : List UInt8) (data : Vector UInt8 P)
    (h : bytes.length ≤ P) : (overwrite bytes data).toList.take bytes.length = bytes := by
  refine List.ext_getElem ?_ fun i hi hi' => ?_
  · rw [List.length_take, Vector.length_toList]
    omega
  · rw [List.getElem_take, Vector.getElem_toList]
    unfold overwrite
    rw [Vector.getElem_ofFn]
    simp only [List.getD_eq_getElem?_getD, List.getElem?_eq_getElem hi', Option.getD_some]

/-- A file response is no empty message. -/
theorem messageLength_file (hX : X.Lawful) (block : MqsCldFile X.layout.payloadMax)
    (h : block.length.toNat ≤ X.layout.payloadMax ∨ block.length = 0xFFFFFFFF) :
    (Message.messageLength X.sizes block.length .fileResponse).toUInt16 ≠ 0 := by
  have hblock := hX.block_le
  have hframe := hX.frame_lt
  have hmax := hX.payloadMax_eq
  intro hzero
  -- Cut to 16 bits, the sizes of topic and block are not 0 together.
  have hnat := congrArg UInt16.toNat hzero
  rw [UInt32.toNat_toUInt16, Message.messageLength, UInt32.toNat_ofNat'] at hnat
  rcases h with h | h
  · rw [UInt16.toNat_zero] at hnat
    omega
  · rw [h, UInt16.toNat_zero, show (0xFFFFFFFF : UInt32).toNat = 2 ^ 32 - 1 from rfl] at hnat
    omega

/-- A block that is acknowledged was sent. -/
theorem dataSent_ne_zero (hX : X.Lawful) (n : Nat) (block : MqsCldFile X.layout.payloadMax)
    (h : block.length.toNat ≤ X.layout.payloadMax ∨ block.length = 0xFFFFFFFF) :
    dataSent X n (.file block) ≠ 0 ↔ acknowledged X n = true := by
  have hlength := messageLength_file hX block h
  unfold dataSent
  by_cases hack : acknowledged X n = true
  · rw [if_pos hack]
    exact ⟨fun _ => hack, fun _ => hlength⟩
  · rw [if_neg hack]
    exact ⟨fun h => absurd rfl h, fun h => absurd h hack⟩

/-- The zero response. -/
theorem fileErrorResponse_view (w : World ν X.layout.payloadMax) :
    ∃ t, fileErrorResponse X w = .ok () t ∧
      t.view = w.view.sent (.file (zeroBlock _)) (dataSent X w.sends (.file (zeroBlock _))) :=
  respond_view _ w

/-! ### The server without files -/

theorem decimal_ne_nil (n : Nat) : decimal n ≠ [] := by
  unfold decimal
  by_cases hzero : n = 0
  · rw [if_pos hzero]
    decide
  · rw [if_neg hzero]
    intro h
    exact Nat.digits_ne_nil_iff_ne_zero.mpr hzero
      (List.reverse_eq_nil_iff.mp (List.map_eq_nil_iff.mp h))

theorem dumpJson_ne_nil (value : Library.Json UInt32) : dumpJson value ≠ [] := by
  cases value with
  | null => decide
  | boolean b => cases b <;> decide
  | integer n =>
      rw [dumpJson]
      by_cases hneg : n < 0
      · rw [if_pos hneg]
        exact List.append_ne_nil_of_right_ne_nil _ (decimal_ne_nil _)
      · rw [if_neg hneg]
        exact decimal_ne_nil _
  | float x =>
      rw [dumpJson]
      exact List.append_ne_nil_of_left_ne_nil (decimal_ne_nil _) _
  | string s =>
      rw [dumpJson]
      exact List.append_ne_nil_of_right_ne_nil _ (by decide)
  | array elements =>
      rw [dumpJson]
      exact List.append_ne_nil_of_right_ne_nil _ (by decide)
  | object members =>
      rw [dumpJson]
      exact List.append_ne_nil_of_right_ne_nil _ (by decide)

theorem quietServer_lawful : quietServer.Lawful where
  payloadMax_eq := rfl
  payloadMax_pos := by decide
  block_le := by decide
  frame_lt := by decide
  dump_ne_nil := dumpJson_ne_nil

end Requests

end EpollServer
