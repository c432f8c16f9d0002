import EpollServer.Lib.Slip
import EpollServer.Core.Sending
import EpollServer.Core.Wire

/-!
# Both Ends of the Link

The bytes of a connection as `readPhysicalFrame` of `amilink.cpp` takes them,
and the two ends of a message: `amilinkReadMessage` on what arrives, and
`amilinkSendMessage` on what comes back.

`readPhysicalFrame` asks the socket for one byte at a time and passes each on
to `Slip_SlipCharToRawChars`. When there is none it sleeps, and after too much
sleep it gives up. So the input of a connection is a list of polls, each with
a byte or without, and a function that has used up the list has not returned.
The next frame starts where the last call stopped.

SLIP, the CRC and the header `mqs.h` are not part of the repository. `Layout`
holds what the code uses of them, on top of the encoding of the senders. A
message is the memory of a `MqsCldMsg_t`.

## Main definitions

* `Poll`: A call of `IPUtilReceiveData` for one byte.
* `Layout`: The constants and functions of the missing headers.
* `readLoop`, `readPhysicalFrame`: A frame from the socket.
* `physicalFrames`: The results of one call after the other.
* `receive`: `amilinkReadMessage` on a connection.
* `Sender`: The end of a connection that sends.
* `send`: `amilinkSendMessage` on a connection.
* `amilinkGetResponse`: A request and its response.
-/

namespace EpollServer

namespace Transfer

open Link (Cmd Header PhysicalFrame)

/-- A call of `IPUtilReceiveData` for one byte: the byte, if there is one. -/
abbrev Poll := Option UInt8

/-- What the code uses of the missing headers. -/
structure Layout extends Wire.Encoding where
  sizes : Message.Sizes
  /-- The topic of a `MqsCldMsg_t`, and the length of its block. -/
  topic : List UInt8 → Message.Topic
  blockLength : List UInt8 → UInt32
  /-- `sizeof(MqsCldHeader_t)`. -/
  sizeofHeader : Nat
  /-- `sizeof(MqsCldFrame_t)`. -/
  sizeofFrame : Nat
  /-- Reading a `MqsCldHeader_t` from memory. -/
  header : List UInt8 → Header
  /-- `Slip_SlipCharToRawChars` for a buffer of so many bytes. -/
  slipCharToRawChars : Nat → UInt8 → Slip.Receiver → Bool × Slip.Receiver
  /-- `MQS_CLD_MESSAGE_TIMEOUT`. -/
  messageTimeout : Nat

/-- `READSLEEP`. -/
def readSleep : Nat := 20000

/-- The loop of `readPhysicalFrame`: the bytes of the frame, none after a
    timeout, and the polls to come. -/
def readLoop (L : Layout) : Nat → Slip.Receiver → List Poll → Option (List UInt8 × List Poll)
  | timeoutCounter, r, [] =>
      if r.frame.length ≤ L.sizeofFrame ∧ timeoutCounter < L.messageTimeout then none
      else some (if timeoutCounter < L.messageTimeout then r.frame else [], [])
  | timeoutCounter, r, poll :: input =>
      if r.frame.length ≤ L.sizeofFrame ∧ timeoutCounter < L.messageTimeout then
        match poll with
        -- The counter is not reset by a byte: the sleep of a whole frame is counted.
        | none => readLoop L (timeoutCounter + readSleep) r input
        | some ch =>
            let (done, r') := L.slipCharToRawChars L.sizeofFrame ch r
            if done then some (r'.frame, input) else readLoop L timeoutCounter r' input
      else some (if timeoutCounter < L.messageTimeout then r.frame else [], poll :: input)

/-- The bytes that were read as a frame. -/
def Layout.physicalFrame (L : Layout) (raw : List UInt8) : PhysicalFrame :=
  if raw.length < L.sizeofHeader then .short raw.length
  else .whole (L.header (raw.take L.sizeofHeader)) (raw.drop L.sizeofHeader)

/-- `readPhysicalFrame`. -/
def readPhysicalFrame (L : Layout) (input : List Poll) : Option (PhysicalFrame × List Poll) :=
  (readLoop L 0 Slip.Receiver.start input).map fun (raw, rest) => (L.physicalFrame raw, rest)

/-- The results of so many calls of `readPhysicalFrame`, as far as they return. -/
def physicalFrames (L : Layout) : Nat → List Poll → List PhysicalFrame
  | 0, _ => []
  | calls + 1, input => match readPhysicalFrame L input with
    | none => []
    | some (f, rest) => f :: physicalFrames L calls rest

/-- A connection before a call that reads: no call reads less than a poll. -/
def opened (L : Layout) (input : List Poll) (lossFreeRun : Nat) : Link.State :=
  { input := physicalFrames L input.length input, lossFreeRun := lossFreeRun, log := [] }

/-- `amilinkReadMessage`, with the memory of its message. -/
def receive (L : Layout) (message : List UInt8) (s : Link.State) :
    Option (Nat × List UInt8 × Link.State) :=
  Link.amilinkReadMessage L.toConfig message s

/-- The buffers of `linkSendHeader` among what happened. -/
def Layout.replies (L : Layout) (log : List Link.Event) : List (List UInt8) :=
  log.filterMap fun
    | .sendHeader h => some (L.rawToSlip (L.headerBytes h))
    | .modifyEpollEvent _ => none

/-- The end of a connection that sends: what it reads, and the buffers of
    `linkSendData`. -/
structure Sender where
  link : Link.State
  sent : List (List UInt8)
  deriving DecidableEq, Repr

/-- A function of the sender. Without a result it has not returned. -/
abbrev SenderM := StateT Sender Option

/-- What `linkSendData` calls, on a connection. -/
def port (L : Layout) : Link.Port SenderM (List UInt8) :=
  { modifyEpollEvent := fun events => modify fun s =>
      { s with link := { s.link with log := s.link.log ++ [.modifyEpollEvent events] } }
    sendData := fun message length => modify fun s =>
      { s with sent := s.sent ++ [L.dataBuffer (message.take length.toNat)] }
    readAck := fun s => match Link.readAck L.toConfig s.link with
      | none => none
      | some (acknowledged, link) => some (acknowledged, { s with link := link }) }

/-- The length that `amilinkSendMessage` computes. -/
def Layout.messageLength (L : Layout) (message : List UInt8) : UInt32 :=
  Message.messageLength L.sizes (L.blockLength message) (L.topic message)

/-- `amilinkSendMessage`. -/
def send (L : Layout) (message : List UInt8) : SenderM UInt16 :=
  Link.amilinkSendMessage L.retryMax L.sizes (port L) message (L.topic message)
    (L.blockLength message)

/-- `amilinkReadMessage` at an end that also sends: the length, and the memory
    of the message. -/
def receiveM (L : Layout) (message : List UInt8) : SenderM (Nat × List UInt8) := fun s =>
  match receive L message s.link with
  | none => none
  | some (messageLength, message', link) =>
      some ((messageLength, message'), { s with link := link })

/-- `amilinkGetResponse`. -/
def amilinkGetResponse (L : Layout) (request response : List UInt8) :
    SenderM (Nat × List UInt8) := do
  let written ← send L request
  -- A request that was not acknowledged has no response: the length is still 0.
  if 0 < written then receiveM L response else pure (0, response)

end Transfer

end EpollServer
