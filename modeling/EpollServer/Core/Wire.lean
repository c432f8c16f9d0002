import EpollServer.Core.Link

/-!
# Bytes on the Wire

How the senders of `amilink.cpp` hand their frames to the kernel, with
`IPUtilSendData` of `iputil.c`.

`IPUtilSendData` calls `send` until a whole buffer has been taken. `send` may
take a part, and what is left goes into the next call; but if the socket
cannot take more just now the function returns what it has sent, and on an
error it returns -1. The rest of the buffer is then lost. Of its four callers
`amilinkHeartbeat` looks at the result: if the heartbeat was not sent whole,
`connectionHandler` leaves its loop and closes the connection. `linkSendData`,
`sendAck` and `sendNack` go on whatever the result is.

What is done on a connection is cut at each call of `send`. Which operation
comes next, what each `send` takes and whether a message is acknowledged is
part of the action. The frames are the SLIP-encoded ones; SLIP itself is not
part of the repository.

`segments` is not part of the program. It records for each call of
`IPUtilSendData` that has returned how much of its frame was taken.

## Main definitions

* `Encoding`: What turns a frame into bytes.
* `SendOutcome`: What comes of a call of `send`.
* `Segment`: A frame, and how much of it was taken.
* `Operation`: What a frame is sent for.
* `State`: A connection as its senders see it.
* `startSending`, `afterSending`: Before and behind `IPUtilSendData`.
* `send`: A call of `send` in `IPUtilSendData`.
* `machine`: The senders of a connection as a machine.
-/

namespace EpollServer

namespace Wire

open Link (Cmd Header)

/-- What turns a frame into the bytes that are sent. -/
structure Encoding extends Link.Config where
  /-- The bytes of a `MqsCldHeader_t`. -/
  headerBytes : Header → List UInt8
  /-- `Slip_RawToSlip`. -/
  rawToSlip : List UInt8 → List UInt8

/-- The buffer of `linkSendData`, for so many bytes of a message. -/
def Encoding.dataBuffer (enc : Encoding) (message : List UInt8) : List UInt8 :=
  enc.rawToSlip
    (enc.headerBytes { crc16 := enc.calcCrc16 message enc.seed, cmd := .data } ++ message)

/-- The buffer of `linkSendHeader` and of `amilinkHeartbeat`. -/
def Encoding.headerBuffer (enc : Encoding) (cmd : Cmd) : List UInt8 :=
  enc.rawToSlip (enc.headerBytes (Link.replyHeader enc.toConfig cmd))

/-- What comes of a call of `send`. -/
inductive SendOutcome where
  | took (n : Nat)
  /-- `EAGAIN` or `EWOULDBLOCK`. -/
  | again
  | error
  deriving DecidableEq, Repr

/-- A frame, and how many of its bytes the kernel took. -/
structure Segment where
  frame : List UInt8
  taken : Nat
  deriving DecidableEq, Repr

/-- What a frame is sent for. -/
inductive Operation where
  /-- `linkSendData`, at its `retry`-th call for the message. -/
  | message (message : List UInt8) (retry : Nat)
  /-- `sendAck`. -/
  | ack
  /-- `sendNack`. -/
  | nack
  /-- `amilinkHeartbeat`. -/
  | heartbeat
  deriving DecidableEq, Repr

/-- The frame of an operation. -/
def Encoding.frame (enc : Encoding) : Operation → List UInt8
  | .message message _ => enc.dataBuffer message
  | .ack => enc.headerBuffer .ack
  | .nack => enc.headerBuffer .nack
  | .heartbeat => enc.headerBuffer .heartbeat

/-- Where the handler of the connection stands. -/
inductive Phase where
  /-- Outside the functions that send. -/
  | idle
  /-- In `IPUtilSendData`. -/
  | sending (op : Operation) (totalSent : Nat)
  /-- In `readAck`. -/
  | awaitingAck (message : List UInt8) (retry : Nat)
  /-- A heartbeat failed: the loop of `connectionHandler` is left. -/
  | leaving
  | closed
  deriving DecidableEq, Repr

/-- What was sent on a connection, and where its handler is. -/
structure State where
  segments : List Segment
  phase : Phase
  deriving DecidableEq, Repr

/-- An open connection on which nothing was sent. -/
def initial : State := { segments := [], phase := .idle }

/-- What a call of `IPUtilSendData` returns. -/
inductive SendResult where
  | totalSent (n : Nat)
  /-- -1. -/
  | failed
  deriving DecidableEq, Repr

/-- Behind `IPUtilSendData`, by the operation. -/
def afterSending (enc : Encoding) (op : Operation) (result : SendResult) : Phase :=
  match op with
  | .message message retry => .awaitingAck message retry
  | .ack => .idle
  | .nack => .idle
  | .heartbeat =>
      -- The one caller that compares the result with the length.
      if result = .totalSent (enc.headerBuffer .heartbeat).length then .idle else .leaving

/-- `IPUtilSendData` returns. -/
def returnSent (enc : Encoding) (op : Operation) (totalSent : Nat) (result : SendResult)
    (s : State) : State :=
  { segments := s.segments ++ [{ frame := enc.frame op, taken := totalSent }]
    phase := afterSending enc op result }

/-- The loop of `IPUtilSendData`: it goes on while the buffer is not sent. -/
def loopSending (enc : Encoding) (op : Operation) (totalSent : Nat) (s : State) : State :=
  if totalSent < (enc.frame op).length then { s with phase := .sending op totalSent }
  else returnSent enc op totalSent (.totalSent totalSent) s

/-- `IPUtilSendData` is called. -/
def startSending (enc : Encoding) (op : Operation) (s : State) : State := loopSending enc op 0 s

/-- The loop of `linkSendRetry`: the `retry`-th call of `linkSendData`, if there
    is one. -/
def retrySending (enc : Encoding) (message : List UInt8) (retry : Nat) (s : State) : State :=
  if retry ≤ enc.retryMax ∧ message.length ≠ 0 then startSending enc (.message message retry) s
  else { s with phase := .idle }

/-- A call of `send` in `IPUtilSendData`. It takes no more than it is given. -/
def send (enc : Encoding) (outcome : SendOutcome) (s : State) : Option State :=
  match s.phase with
  | .sending op totalSent => match outcome with
    | .took n =>
        if totalSent + n ≤ (enc.frame op).length then
          some (loopSending enc op (totalSent + n) s)
        else none
    -- The socket takes no more just now. What is left of the buffer is given up.
    | .again => some (returnSent enc op totalSent (.totalSent totalSent) s)
    | .error => some (returnSent enc op totalSent .failed s)
  | _ => none

/-- What may happen next. -/
inductive Act where
  /-- `amilinkSendMessage`, with the bytes of the message that are sent. -/
  | sendMessage (message : List UInt8)
  | sendAck
  | sendNack
  | heartbeat
  /-- A call of `send`. -/
  | send (outcome : SendOutcome)
  /-- `readAck` returns. -/
  | readAck (acknowledged : Bool)
  /-- The loop of `connectionHandler` is left, and the connection is closed. -/
  | close
  deriving DecidableEq, Repr

/-- The senders as a step function. -/
def step (enc : Encoding) (s : State) : Act → Option State
  | .sendMessage message => match s.phase with
    | .idle => some (retrySending enc message 1 s)
    | _ => none
  | .sendAck => match s.phase with
    | .idle => some (startSending enc .ack s)
    | _ => none
  | .sendNack => match s.phase with
    | .idle => some (startSending enc .nack s)
    | _ => none
  | .heartbeat => match s.phase with
    | .idle => some (startSending enc .heartbeat s)
    | _ => none
  | .send outcome => send enc outcome s
  | .readAck acknowledged => match s.phase with
    | .awaitingAck message retry =>
        if acknowledged then some { s with phase := .idle }
        else some (retrySending enc message (retry + 1) s)
    | _ => none
  | .close => match s.phase with
    | .idle => some { s with phase := .closed }
    | .leaving => some { s with phase := .closed }
    | _ => none

/-- The senders of a connection as a machine. -/
def machine (enc : Encoding) : Machine State Act := { step := step enc }

end Wire

end EpollServer
