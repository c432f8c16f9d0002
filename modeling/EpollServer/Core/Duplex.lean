import EpollServer.Core.Channel

/-!
# A Connection with Two Ends

Both ends of a connection with the functions of `amilink.cpp`, each of which
sends and reads.

On a connection there is one stream of frames in each direction, for messages
and for replies. The device calls `amilinkGetResponse`, which sends a request
and reads a response, and the server reads a request, sends a response and
sends heartbeats. Which call an end makes next is left open here, so that both
orders are among the runs and many more.

An end that is in a call reads the frames of its stream in order, or times out,
at any moment. A frame may also be lost, or be replaced by one that its CRC or
its length gives away; the loss that `readFrame` simulates is among these. What
an end makes of a frame depends on the call it is in: `readMessage` takes an
ACK for no message, and `readAck` takes a message for no ACK. In either case
the frame is gone.

The histories of an end are not part of the program.

## Main definitions

* `Side`: The ends of a connection.
* `Phase`, `Party`: An end, and the call it is in.
* `linkSendRetry`, `amilinkSendMessage`, `readAck`: The calls that send.
* `amilinkReadMessage`, `readMessage`: The calls that read.
* `Party.take`, `Party.reads`: An end and the frames it reads.
* `State`: Both ends, and the frames under way to each.
* `machine`: The connection as a machine.
-/

namespace EpollServer

namespace Duplex

open Link
open Channel (readable isAck)

/-- The ends of a connection. -/
inductive Side where
  | device
  | server
  deriving DecidableEq, Repr

/-- The end across from it. -/
def Side.other : Side → Side
  | .device => .server
  | .server => .device

/-- The call an end is in. -/
inductive Phase where
  | idle
  /-- In `readAck`, in attempt `retry` of `linkSendRetry`. -/
  | sending (message : List UInt8) (retry : Nat)
  /-- In `readMessage`, after `retry` attempts of `amilinkReadMessage`. -/
  | reading (retry : Nat)
  deriving DecidableEq, Repr

/-- A message that `amilinkReadMessage` has returned. -/
structure Received where
  message : List UInt8
  /-- The frame was answered with an ACK. -/
  acknowledged : Bool
  deriving DecidableEq, Repr

/-- An end, the call it is in, and its histories. -/
structure Party where
  phase : Phase
  /-- The buffer of `amilinkReadMessage`. -/
  message : List UInt8
  /-- The messages of all calls of `amilinkSendMessage`. -/
  calls : List (List UInt8)
  /-- The messages of all data frames. -/
  transmitted : List (List UInt8)
  /-- What `amilinkSendMessage` has returned. -/
  dataSent : List Nat
  received : List Received
  deriving DecidableEq, Repr

/-- An end before its first call, with any bytes in its buffer. -/
def Party.initial (message : List UInt8) : Party :=
  { phase := .idle, message := message, calls := [], transmitted := [], dataSent := [],
    received := [] }

/-! ### Calls -/

/-- The test of the loop of `linkSendRetry` after `retry` attempts, and what
    follows it: the end, and the frame it sends. -/
def linkSendRetry (cfg : Config) (p : Party) (message : List UInt8) (retry dataSent : Nat) :
    Party × List PhysicalFrame :=
  if retry < cfg.retryMax ∧ message.length ≠ dataSent then
    ({ p with phase := .sending message (retry + 1), transmitted := p.transmitted ++ [message] },
      [dataFrame cfg message])
  else ({ p with phase := .idle, dataSent := p.dataSent ++ [dataSent] }, [])

/-- A call of `amilinkSendMessage` begins. -/
def amilinkSendMessage (cfg : Config) (p : Party) (message : List UInt8) :
    Party × List PhysicalFrame :=
  linkSendRetry cfg { p with calls := p.calls ++ [message] } message 0 0

/-- The rest of an attempt, with the frame that `readAck` has read. -/
def readAck (cfg : Config) (p : Party) (message : List UInt8) (retry : Nat) (f : PhysicalFrame) :
    Party × List PhysicalFrame :=
  linkSendRetry cfg p message retry (if isAck cfg f then message.length else 0)

/-- A call of `amilinkReadMessage` begins. -/
def amilinkReadMessage (cfg : Config) (p : Party) : Party :=
  if 0 < cfg.retryMax then { p with phase := .reading 0 } else p

/-- An attempt of `amilinkReadMessage`, with the frame that it has read: the end,
    and its reply. -/
def readMessage (cfg : Config) (p : Party) (retry : Nat) (f : PhysicalFrame) :
    Party × List PhysicalFrame :=
  let (messageLength, message', reply) := handleFrame cfg p.message f
  ({ p with
      phase := if retry + 1 < cfg.retryMax ∧ messageLength = 0 then .reading (retry + 1)
        else .idle
      message := message'
      received := if messageLength = 0 then p.received
        else p.received ++ [⟨message'.take messageLength, decide (reply = some .ack)⟩] },
    reply.toList.map fun cmd => .whole (replyHeader cfg cmd) [])

/-- What an end does with a frame that is no heartbeat. -/
def Party.take (cfg : Config) (p : Party) (f : PhysicalFrame) :
    Option (Party × List PhysicalFrame) :=
  match p.phase with
  | .idle => none
  | .sending message retry => some (readAck cfg p message retry f)
  | .reading retry => some (readMessage cfg p retry f)

/-- What an end does with frame after frame in one call, and what it sends. An
    end that has returned reads none. -/
def Party.reads (cfg : Config) : Party → List PhysicalFrame → Option (Party × List PhysicalFrame)
  | p, [] => some (p, [])
  | p, f :: rest =>
      if p.phase = .idle then none
      -- `readFrame` skips a heartbeat and goes on reading.
      else if gotHeartbeat f then p.reads cfg rest
      else match p.take cfg f with
        | none => none
        | some (q, out) => (q.reads cfg rest).map fun r => (r.1, out ++ r.2)

/-! ### The connection -/

/-- Both ends, and the frames under way to each. -/
structure State where
  party : Side → Party
  inbox : Side → List PhysicalFrame

/-- A connection before the first call. -/
def State.initial (messages : Side → List UInt8) : State :=
  { party := fun d => .initial (messages d), inbox := fun _ => [] }

/-- An end goes on, and sends some frames to the other one. -/
def State.commit (s : State) (d : Side) (r : Party × List PhysicalFrame) : State :=
  { party := Function.update s.party d r.1
    inbox := Function.update s.inbox d.other (s.inbox d.other ++ r.2) }

/-- The stream to an end changes. -/
def State.setInbox (s : State) (d : Side) (frames : List PhysicalFrame) : State :=
  { s with inbox := Function.update s.inbox d frames }

/-- What may happen next. -/
inductive Act where
  /-- A call begins. -/
  | amilinkSendMessage (d : Side) (message : List UInt8)
  | amilinkReadMessage (d : Side)
  | amilinkHeartbeat (d : Side)
  /-- An end reads the next frame, or times out. -/
  | readFrame (d : Side)
  | timeout (d : Side)
  /-- The i-th frame under way to an end is lost, or becomes another one. -/
  | lose (d : Side) (i : Nat)
  | corrupt (d : Side) (i : Nat) (f : PhysicalFrame)
  deriving DecidableEq, Repr

/-- Neither call takes the frame for good. -/
def spoiled (cfg : Config) (f : PhysicalFrame) : Bool :=
  !readable cfg f && !isAck cfg f

/-- The connection as a step function. -/
def step (cfg : Config) (s : State) : Act → Option State
  | .amilinkSendMessage d message => match (s.party d).phase with
    | .idle => some (s.commit d (amilinkSendMessage cfg (s.party d) message))
    | _ => none
  | .amilinkReadMessage d => match (s.party d).phase with
    | .idle => some (s.commit d (amilinkReadMessage cfg (s.party d), []))
    | _ => none
  | .amilinkHeartbeat d => match (s.party d).phase with
    | .idle => some (s.commit d (s.party d, [.whole (replyHeader cfg .heartbeat) []]))
    | _ => none
  | .readFrame d => match (s.party d).phase, s.inbox d with
    | .idle, _ => none
    | _, [] => none
    | _, f :: rest =>
        -- `readFrame` skips a heartbeat and goes on reading.
        if gotHeartbeat f then some (s.setInbox d rest)
        else ((s.party d).take cfg f).map fun r => (s.setInbox d rest).commit d r
  -- A timeout gives a frame without bytes.
  | .timeout d => ((s.party d).take cfg (.short 0)).map fun r => s.commit d r
  | .lose d i =>
      if i < (s.inbox d).length then some (s.setInbox d ((s.inbox d).eraseIdx i)) else none
  -- A spoiled frame must not look intact, which the CRC is there for.
  | .corrupt d i f =>
      if spoiled cfg f then some (s.setInbox d ((s.inbox d).set i f)) else none

/-- The connection as a machine. -/
def machine (cfg : Config) : Machine State Act := { step := step cfg }

end Duplex

end EpollServer
