import EpollServer.Core.Link
import EpollServer.Lib.Machine

/-!
# Two Ends of a Link

A sender in `amilinkSendMessage` and a receiver in `amilinkReadMessage`,
joined by a channel for data frames and one for their replies.

The sender's part is the loop of `linkSendRetry` around `linkSendData`, which
sends a frame and reads one in return. The receiver calls
`amilinkReadMessage` again and again. Each reads the frames of its channel in
order or times out, at any moment: a frame that comes too late stays in the
channel and is read the next time. A frame may also be lost, or be replaced by
one that its CRC or its length gives away. The loss that `readFrame` simulates
is among these.

The frames carry no number, so neither end can tell which call a frame belongs
to. The calls are numbered here for the sake of the statements only; no step
depends on a number.

## Main definitions

* `Copy`: A frame under way.
* `readable`, `isAck`: What the two ends take for a message and for an ACK.
* `Call`, `Return`, `Delivery`: Calls on either side, running and returned.
* `State`: The two ends, the two channels, and what happened.
* `linkSendData`, `linkSendRetry`, `acknowledge`: The sender.
* `receive`: The receiver.
* `machine`: The link as a machine.
-/

namespace EpollServer

namespace Channel

open Link

/-- A frame under way, with the call of `amilinkSendMessage` that sent it or
    that it answers. -/
structure Copy where
  frame : PhysicalFrame
  call : Nat
  deriving DecidableEq, Repr

/-- `readMessage` answers the frame with an ACK. -/
def readable (cfg : Config) (f : PhysicalFrame) : Bool :=
  decide ((handleFrame cfg [] f).2.2 = some .ack)

/-- `readAck` takes the frame for an ACK. -/
def isAck (cfg : Config) (f : PhysicalFrame) : Bool := decide (ackOf cfg f = .ack)

/-- A call of `amilinkSendMessage` in the loop of `linkSendRetry`. -/
structure Call where
  number : Nat
  message : List UInt8
  retry : Nat
  /-- No readable data frame and no ACK was under way when it began. -/
  quiet : Bool
  deriving DecidableEq, Repr

/-- A call of `amilinkSendMessage` that has returned. -/
structure Return where
  call : Nat
  dataSent : Nat
  /-- The call whose copy the ACK answered, if an ACK was read. -/
  answered : Option Nat
  quiet : Bool
  deriving DecidableEq, Repr

/-- A call of `amilinkReadMessage` that has returned a length. -/
structure Delivery where
  call : Nat
  message : List UInt8
  /-- The frame was answered with an ACK. -/
  acknowledged : Bool
  deriving DecidableEq, Repr

/-- Both ends and the copies under way, with the histories of the calls. -/
structure State where
  sender : Option Call
  forward : List Copy
  backward : List Copy
  /-- The variable `retry` and the buffer of `amilinkReadMessage`. -/
  retry : Nat
  message : List UInt8
  /-- The messages of all calls so far, by their numbers. -/
  calls : List (List UInt8)
  /-- The calls that sent a copy, one entry for each copy. -/
  transmitted : List Nat
  /-- The calls that sent a copy although an earlier one of theirs had been
      delivered or was still readable under way. -/
  late : List Nat
  delivered : List Delivery
  returned : List Return
  deriving DecidableEq, Repr

/-- A link before the first call, with any bytes in the receiver's buffer. -/
def State.initial (message : List UInt8) : State :=
  { sender := none, forward := [], backward := [], retry := 0, message := message, calls := [],
    transmitted := [], late := [], delivered := [], returned := [] }

/-- How many readable copies of a call are under way. -/
def State.onWay (cfg : Config) (s : State) (c : Nat) : Nat :=
  s.forward.countP fun x => decide (x.call = c) && readable cfg x.frame

/-- How many ACKs for copies of a call are under way. -/
def State.acks (cfg : Config) (s : State) (c : Nat) : Nat :=
  s.backward.countP fun x => decide (x.call = c) && isAck cfg x.frame

/-- How often the receiver has delivered a call's message from an intact
    frame. -/
def State.deliveries (s : State) (c : Nat) : Nat :=
  s.delivered.countP fun d => decide (d.call = c) && d.acknowledged

/-- How many calls have returned on an ACK for a copy of this one. -/
def State.answers (s : State) (c : Nat) : Nat :=
  s.returned.countP fun r => decide (r.answered = some c)

/-- Nothing is under way that either end would take for good. -/
def State.isQuiet (cfg : Config) (s : State) : Bool :=
  s.forward.all (fun x => !readable cfg x.frame) && s.backward.all (fun x => !isAck cfg x.frame)

/-! ### The sender -/

/-- `linkSendData` up to `readAck`. -/
def linkSendData (cfg : Config) (s : State) (k : Call) : State :=
  { s with
    sender := some k,
    forward := s.forward ++ [⟨dataFrame cfg k.message, k.number⟩],
    transmitted := s.transmitted ++ [k.number],
    late := if 0 < s.onWay cfg k.number + s.deliveries k.number then s.late ++ [k.number]
      else s.late }

/-- The test of the loop of `linkSendRetry`, and what follows it. -/
def linkSendRetry (cfg : Config) (s : State) (k : Call) (dataSent : Nat)
    (answered : Option Nat) : State :=
  if k.retry < cfg.retryMax ∧ k.message.length ≠ dataSent then
    linkSendData cfg s { k with retry := k.retry + 1 }
  else
    { s with sender := none,
             returned := s.returned ++ [⟨k.number, dataSent, answered, k.quiet⟩] }

/-- The rest of `linkSendData`, with the frame that `readAck` has read. -/
def acknowledge (cfg : Config) (s : State) (k : Call) (x : Copy) : State :=
  if isAck cfg x.frame then linkSendRetry cfg s k k.message.length (some x.call)
  else linkSendRetry cfg s k 0 none

/-! ### The receiver -/

/-- One pass of the loop of `amilinkReadMessage`. When it ends, the next call
    begins. -/
def receive (cfg : Config) (s : State) (x : Copy) : State :=
  -- The reply belongs to the call whose frame it answers.
  let (messageLength, message', reply) := handleFrame cfg s.message x.frame
  let replies := reply.toList.map fun cmd => ⟨.whole (replyHeader cfg cmd) [], x.call⟩
  let delivery := ⟨x.call, message'.take messageLength, decide (reply = some .ack)⟩
  { s with
    backward := s.backward ++ replies,
    retry := if s.retry + 1 < cfg.retryMax ∧ messageLength = 0 then s.retry + 1 else 0,
    message := message',
    delivered := if messageLength = 0 then s.delivered else s.delivered ++ [delivery] }

/-! ### The link -/

/-- What may happen next. -/
inductive Act where
  /-- A call begins. Its message is not empty, a topic is part of it. -/
  | amilinkSendMessage (message : List UInt8)
  /-- The sender reads the next frame, or times out. -/
  | readAck
  | readAckTimeout
  /-- The receiver reads the next frame, or times out. -/
  | readMessage
  | readMessageTimeout
  /-- The i-th frame of a channel is lost. -/
  | loseData (i : Nat)
  | loseReply (i : Nat)
  /-- The i-th frame of a channel becomes another one. -/
  | corruptData (i : Nat) (f : PhysicalFrame)
  | corruptReply (i : Nat) (f : PhysicalFrame)
  deriving DecidableEq, Repr

/-- The link as a step function. -/
def step (cfg : Config) (s : State) : Act → Option State
  | .amilinkSendMessage message => match s.sender with
    | none =>
        if message = [] then none
        else some (linkSendRetry cfg { s with calls := s.calls ++ [message] }
          ⟨s.calls.length, message, 0, s.isQuiet cfg⟩ 0 none)
    | some _ => none
  -- `readFrame` skips a heartbeat and goes on reading.
  | .readAck => match s.sender, s.backward with
    | some k, x :: rest =>
        if gotHeartbeat x.frame then some { s with backward := rest }
        else some (acknowledge cfg { s with backward := rest } k x)
    | _, _ => none
  -- A timeout gives a frame without bytes, which is no ACK.
  | .readAckTimeout => match s.sender with
    | some k => some (acknowledge cfg s k ⟨.short 0, k.number⟩)
    | none => none
  | .readMessage => match s.forward with
    | x :: rest =>
        if s.retry < cfg.retryMax then
          if gotHeartbeat x.frame then some { s with forward := rest }
          else some (receive cfg { s with forward := rest } x)
        else none
    | [] => none
  | .readMessageTimeout =>
      if s.retry < cfg.retryMax then some (receive cfg s ⟨.short 0, s.calls.length⟩) else none
  | .loseData i =>
      if i < s.forward.length then some { s with forward := s.forward.eraseIdx i } else none
  | .loseReply i =>
      if i < s.backward.length then some { s with backward := s.backward.eraseIdx i } else none
  -- A spoiled frame must not look intact, which the CRC is there for.
  | .corruptData i f =>
      if readable cfg f then none
      else some { s with forward := s.forward.modify i fun x => { x with frame := f } }
  | .corruptReply i f =>
      if isAck cfg f then none
      else some { s with backward := s.backward.modify i fun x => { x with frame := f } }

/-- The link as a machine. -/
def machine (cfg : Config) : Machine State Act := { step := step cfg }

end Channel

end EpollServer
