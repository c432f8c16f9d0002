import EpollServer.Core.Epoll

/-!
# The Link Layer

Reading messages and acknowledges in `amilink.cpp`, on the frames that
`readPhysicalFrame` returns.

A frame that is shorter than a header is only ever looked at for its length,
a timeout counts as length 0. Of any other frame the code uses the header and
the bytes behind it. The frames to come are a list; a function that has used
up the list has not returned yet, and has no result.

The header `mqs.h` and the CRC are not part of the repository. `Config` holds
what the code uses of them.

The body of `readMessage` and that of `readAck` are functions of one frame,
`handleFrame` and `ackOf`, because the other end of the link runs them too.

## Main definitions

* `Config`: The constants and functions of the missing headers.
* `PhysicalFrame`: A result of `readPhysicalFrame`.
* `State`: The frames to come, the simulated loss, and what was sent.
* `readFrame`: Reading a frame that is no heartbeat.
* `handleFrame`, `readMessage`: A frame as a message.
* `ackOf`, `readAck`: A frame as an acknowledge.
* `amilinkReadMessage`: The retry loop around `readMessage`.
-/

namespace EpollServer

namespace Link

/-- `MqsCldCmd_t`. -/
inductive Cmd where
  | data
  | ack
  | nack
  | heartbeat
  | other (code : Nat)
  deriving DecidableEq, Repr

/-- `MqsCldHeader_t`. -/
structure Header where
  crc16 : UInt16
  cmd : Cmd
  deriving DecidableEq, Repr

/-- What the code uses of `mqs.h` and `crc16.h`, and the setting of
    `amilinkInit`. -/
structure Config where
  /-- `MQS_CLD_RETRY_MAX`. -/
  retryMax : Nat
  /-- `CRC16_INITIAL_SEED`. -/
  seed : UInt16
  /-- `CalcCrc16` of so many bytes, from a seed. -/
  calcCrc16 : List UInt8 → UInt16 → UInt16
  /-- `sLosePacketInterval`. -/
  losePacketInterval : Int

/-- A result of `readPhysicalFrame`. -/
inductive PhysicalFrame where
  /-- Fewer bytes than a header, none after a timeout. -/
  | short (rawLength : Nat)
  | whole (header : Header) (data : List UInt8)
  deriving DecidableEq, Repr

/-- What is done to the socket. -/
inductive Event where
  | modifyEpollEvent (events : Epoll.Interest)
  /-- `linkSendHeader`. -/
  | sendHeader (header : Header)
  deriving DecidableEq, Repr

/-- A connection: the frames still to come, the static counter of
    `readFrame`, and what was done so far. -/
structure State where
  input : List PhysicalFrame
  lossFreeRun : Nat
  log : List Event
  deriving DecidableEq, Repr

/-- The test of `readFrame` for a heartbeat. -/
def gotHeartbeat : PhysicalFrame → Bool
  | .whole header [] => decide (header.cmd = .heartbeat)
  | _ => false

/-- The loop of `readFrame`. -/
def skipHeartbeats : List PhysicalFrame → Option (PhysicalFrame × List PhysicalFrame)
  | [] => none
  | f :: rest => if gotHeartbeat f then skipHeartbeats rest else some (f, rest)

/-- `readFrame`, with its simulation of packet loss. -/
def readFrame (cfg : Config) (s : State) : Option (PhysicalFrame × State) :=
  match skipHeartbeats s.input with
  | none => none
  | some (f, rest) =>
      if 0 < cfg.losePacketInterval then
        -- The counter is static: it goes on from one call to the next.
        if cfg.losePacketInterval ≤ s.lossFreeRun + 1 then
          some (.short 0, { s with input := rest, lossFreeRun := 0 })
        else some (f, { s with input := rest, lossFreeRun := s.lossFreeRun + 1 })
      else some (f, { s with input := rest })

/-- `sendAck` and `sendNack`: the header that is sent. -/
def replyHeader (cfg : Config) (cmd : Cmd) : Header := { crc16 := cfg.seed, cmd := cmd }

/-- The body of `readMessage` after `readFrame`: the length returned, the
    message, and the reply. On a wrong CRC the code resets `rawLength`, not
    `messageLength`. -/
def handleFrame (cfg : Config) (message : List UInt8) :
    PhysicalFrame → Nat × List UInt8 × Option Cmd
  | .short _ => (0, message, none)
  | .whole header data =>
      if header.cmd = .data then
        -- Copied out only when the CRC is right, but counted in either case.
        let messageLength := data.length
        let crc := cfg.calcCrc16 data cfg.seed
        if header.crc16 = crc then
          (messageLength, data ++ message.drop messageLength, some .ack)
        else (messageLength, message, some .nack)
      else (0, message, none)

/-- A reply, with the modifications around it. -/
def replyEvents (cfg : Config) : Option Cmd → List Event
  | none => []
  | some cmd =>
      [.modifyEpollEvent .epollOut, .sendHeader (replyHeader cfg cmd), .modifyEpollEvent .epollIn]

/-- `readMessage`. -/
def readMessage (cfg : Config) (message : List UInt8) (s : State) :
    Option (Nat × List UInt8 × State) :=
  match readFrame cfg s with
  | none => none
  | some (f, t) =>
      let (messageLength, message', reply) := handleFrame cfg message f
      some (messageLength, message', { t with log := t.log ++ replyEvents cfg reply })

/-- The loop of `amilinkReadMessage` with so many attempts left. -/
def readRetry (cfg : Config) : Nat → List UInt8 → State → Option (Nat × List UInt8 × State)
  | 0, message, s => some (0, message, s)
  | attempts + 1, message, s =>
      match readMessage cfg message s with
      | none => none
      | some (messageLength, message', t) =>
          -- The loop tests the length, and does not see the reply.
          if messageLength = 0 then readRetry cfg attempts message' t
          else some (messageLength, message', t)

/-- `amilinkReadMessage`. -/
def amilinkReadMessage (cfg : Config) (message : List UInt8) (s : State) :
    Option (Nat × List UInt8 × State) :=
  readRetry cfg cfg.retryMax message s

/-- The body of `readAck` after `readFrame`. -/
def ackOf (cfg : Config) : PhysicalFrame → Cmd
  | .whole header [] =>
      -- A header without data has the seed for its CRC.
      if header.crc16 = cfg.seed ∧ header.cmd = .ack then .ack
      else if header.crc16 = cfg.seed ∧ header.cmd = .nack then .nack
      else .nack
  | _ => .nack

/-- `readAck`. -/
def readAck (cfg : Config) (s : State) : Option (Cmd × State) :=
  match readFrame cfg s with
  | none => none
  | some (f, t) => some (ackOf cfg f, t)

/-- The frame that `linkSendData` sends. -/
def dataFrame (cfg : Config) (message : List UInt8) : PhysicalFrame :=
  .whole { crc16 := cfg.calcCrc16 message cfg.seed, cmd := .data } message

end Link

end EpollServer
