import EpollServer.Core.Link
import EpollServer.Core.Message

/-!
# Sending Messages

`amilinkSendMessage` of `amilink.cpp` with the loop under it.

A message is sent, and its acknowledge awaited, until it was acknowledged or
`MQS_CLD_RETRY_MAX` attempts were made. An attempt registers the socket for
`EPOLLOUT`, hands the frame to `IPUtilSendData`, whose result it drops,
registers the socket for `EPOLLIN` and reads an acknowledge. The loop runs
while the length it got back is not the length of the message, so that a
message of length 0 is not sent at all.

What an attempt does outside of itself is a `Port`. Its type is left open,
since the same code is looked at as a party of the link, where an acknowledge
is a frame, and as a part of the handlers.

## Main definitions

* `Port`: What `linkSendData` calls.
* `linkSendData`: An attempt.
* `linkSendRetry`: The attempts.
* `amilinkSendMessage`: A message.
-/

namespace EpollServer

namespace Link

/-- What `linkSendData` calls. -/
structure Port (m : Type → Type) (α : Type) where
  modifyEpollEvent : Epoll.Interest → m Unit
  /-- `IPUtilSendData` of the frame with so many bytes of a message. -/
  sendData : α → UInt16 → m Unit
  readAck : m Cmd

variable {m : Type → Type} [Monad m] {α : Type}

/-- `linkSendData`. -/
def linkSendData (p : Port m α) (message : α) (length : UInt16) : m UInt16 := do
  p.modifyEpollEvent .epollOut
  p.sendData message length
  p.modifyEpollEvent .epollIn
  let acknowledged ← p.readAck
  pure (if acknowledged = .ack then length else 0)

/-- The loop of `linkSendRetry` with so many attempts left. -/
def sendRetry (p : Port m α) (message : α) (length : UInt16) : Nat → UInt16 → m UInt16
  | 0, dataSent => pure dataSent
  | attempts + 1, dataSent =>
      if length = dataSent then pure dataSent
      else do
        let dataSent ← linkSendData p message length
        sendRetry p message length attempts dataSent

/-- `linkSendRetry`. -/
def linkSendRetry (retryMax : Nat) (p : Port m α) (message : α) (length : UInt16) : m UInt16 :=
  sendRetry p message length retryMax 0

/-- `amilinkSendMessage`, for a message of this topic that holds a block of
    this length. The `int32_t length` is passed on as a `uint16_t`. -/
def amilinkSendMessage (retryMax : Nat) (S : Message.Sizes) (p : Port m α) (message : α)
    (topic : Message.Topic) (blockLength : UInt32) : m UInt16 :=
  linkSendRetry retryMax p message (Message.messageLength S blockLength topic).toUInt16

end Link

end EpollServer
