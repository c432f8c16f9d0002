import EpollServer.Lib.Splice
import EpollServer.Core.Wire

/-!
# Reading and Writing a Socket

The loops of `IPUtilSendData` and `IPUtilReceiveData` of `iputil.c`.

Each calls the kernel until its whole buffer has been moved, and adds up what
the calls moved. If the socket can do no more just now the loop is left with the
sum, and on any other error the function returns -1. Where `recv` gives no byte,
because the other end closed the connection, `IPUtilReceiveData` is left with
the sum too. `IPUtilSendData` has no such case.

What the calls come to is a list, one outcome for each, and a function that has
used up the list has not returned. A call moves as many bytes as its outcome
offers, but no more than it is asked for. The sums are within the length of the
buffer, an `int32_t`, so they do not wrap; a negative length is no length.

The bytes that the kernel took or gave are not part of the program. They are
recorded, so that what is returned can be compared with them.

## Main definitions

* `RecvOutcome`: What comes of a call of `recv`.
* `sendLoop`, `ipUtilSendData`: `IPUtilSendData`.
* `recvLoop`, `ipUtilReceiveData`: `IPUtilReceiveData`.
-/

namespace EpollServer

namespace Socket

open Wire (SendOutcome)

/-- What comes of a call of `recv`. -/
inductive RecvOutcome where
  /-- The bytes that are there. There are none if the connection was closed. -/
  | got (bytes : List UInt8)
  /-- `EAGAIN` or `EWOULDBLOCK`. -/
  | again
  | error
  deriving DecidableEq, Repr

/-- The loop of `IPUtilSendData`: what it returns, and the bytes that were sent. -/
def sendLoop (buffer : List UInt8) :
    Nat → List UInt8 → List SendOutcome → Option (Int × List UInt8)
  | totalSent, sent, [] => if totalSent < buffer.length then none else some (totalSent, sent)
  | totalSent, sent, outcome :: outcomes =>
      if totalSent < buffer.length then
        match outcome with
        | .took n =>
            let taken := (buffer.drop totalSent).take n
            sendLoop buffer (totalSent + taken.length) (sent ++ taken) outcomes
        | .again => some (totalSent, sent)
        | .error => some (-1, sent)
      else some (totalSent, sent)

/-- `IPUtilSendData`. -/
def ipUtilSendData (buffer : List UInt8) (outcomes : List SendOutcome) :
    Option (Int × List UInt8) :=
  sendLoop buffer 0 [] outcomes

/-- The loop of `IPUtilReceiveData`: what it returns, the buffer, and the bytes
    that were received. -/
def recvLoop (maxlen : Nat) : Nat → List UInt8 → List UInt8 → List RecvOutcome →
    Option (Int × List UInt8 × List UInt8)
  | totalBytesRead, buffer, received, [] =>
      if totalBytesRead < maxlen then none else some (totalBytesRead, buffer, received)
  | totalBytesRead, buffer, received, outcome :: outcomes =>
      if totalBytesRead < maxlen then
        match outcome with
        | .got bytes =>
            let read := bytes.take (maxlen - totalBytesRead)
            -- No byte: the connection is closed.
            if read.length = 0 then some (totalBytesRead, buffer, received)
            else recvLoop maxlen (totalBytesRead + read.length)
              (Splice.splice buffer read totalBytesRead) (received ++ read) outcomes
        | .again => some (totalBytesRead, buffer, received)
        | .error => some (-1, buffer, received)
      else some (totalBytesRead, buffer, received)

/-- `IPUtilReceiveData`, for a buffer of `maxlen` bytes. -/
def ipUtilReceiveData (buffer : List UInt8) (outcomes : List RecvOutcome) :
    Option (Int × List UInt8 × List UInt8) :=
  recvLoop buffer.length 0 buffer [] outcomes

end Socket

end EpollServer
