import EpollServer.Lib.Machine

/-!
# The Shared Epoll Instance

All threads of the server wait on one descriptor, `epollContext.efd`:
`Server::run` for the listening socket, and every running `connectionHandler`
for the socket of its own client. Each client socket is registered as
edge-triggered, so an edge is handed to one caller of `epoll_wait`, whoever
that is.

A connection is described by its unread bytes, by whether epoll holds an edge
for it, by the events it is registered for, and by where its handler stands.
`EPOLL_CTL_MOD` looks at the socket again: an edge is there afterwards if the
socket is ready for the new events. Between two calls of `epoll_wait` a
handler makes one `Pass` through its loop. Of that pass only the reads and
the modifications matter here, in their order; `Pass.acts` lists them as
`amilink.cpp` and the handlers of `server.cpp` issue them. How many bytes
each read gets, how often a message is sent again and what the client asks
for are part of the pass and arbitrary.

The listening socket is level-triggered, so its event is still there for
`Server::run` when a handler has taken and ignored it. Of that socket the state
only has whether `Server::run` is behind the event: it is then in
`handleNewConnection`, until no client is left to accept, and does not wait. A
descriptor is the number of its connection.

`dropped` is not part of the program. It records the client events taken by
a caller that ignores them.

## Main definitions

* `Interest`: The events a socket is registered for.
* `MessageRead`: A call of `readMessage`.
* `Handling`: A call of `handleRequest`.
* `Pass`: One pass of `connectionHandler` through its loop.
* `Connection`, `State`: The connections of the server.
* `Waiter`: A caller of `epoll_wait`.
* `step`: The server as a machine.
-/

namespace EpollServer

namespace Epoll

/-- The events a client socket is registered for, each with `EPOLLET`. -/
inductive Interest where
  | epollIn
  | epollOut
  deriving DecidableEq, Repr

/-- What a handler does that epoll takes notice of. -/
inductive SocketAct where
  /-- A byte is read, if there is one. -/
  | recv
  /-- `modifyEpollEvent`. -/
  | modify (events : Interest)
  deriving DecidableEq, Repr

/-- The modifications around the sending of an acknowledge or a heartbeat. -/
def sendActs : List SocketAct := [.modify .epollOut, .modify .epollIn]

/-- A call of `readMessage` that makes so many attempts to read a byte. -/
inductive MessageRead where
  /-- No frame came, or none with data. It returns 0. -/
  | silent (reads : Nat)
  /-- A data frame without payload, answered. It returns 0. -/
  | empty (reads : Nat)
  /-- A data frame, answered by ACK or NACK. It returns the length. -/
  | message (reads : Nat)
  deriving DecidableEq, Repr

/-- What it does to the socket. -/
def MessageRead.acts : MessageRead → List SocketAct
  | .silent reads => List.replicate reads .recv
  | .empty reads => List.replicate reads .recv ++ sendActs
  | .message reads => List.replicate reads .recv ++ sendActs

/-- `linkSendData`: the frame is sent and `readAck` reads so many bytes. -/
def linkSendData (reads : Nat) : List SocketAct :=
  [.modify .epollOut, .modify .epollIn] ++ List.replicate reads .recv

/-- `amilinkSendMessage`: one call of `linkSendData` for each attempt. -/
def amilinkSendMessage (attempts : List Nat) : List SocketAct :=
  attempts.flatMap linkSendData

/-- What every handler does around a response. -/
def respond (attempts : List Nat) : List SocketAct :=
  [.modify .epollOut] ++ amilinkSendMessage attempts ++ [.modify .epollIn]

/-- A call of `handleRequest`. -/
inductive Handling where
  /-- Any number of responses: none for a block in the middle of a transfer or
      an unknown topic, several for a file. -/
  | answered (responses : List (List Nat))
  /-- `handleAlgoRequest` fails to send a block and calls `fileErrorResponse`. -/
  | failed (responses : List (List Nat)) (attempts error : List Nat)
  /-- `MQS_GOODBYE_REQUEST`. -/
  | goodbye
  deriving DecidableEq, Repr

/-- What it does to the socket. -/
def Handling.acts : Handling → List SocketAct
  | .answered responses => responses.flatMap respond
  | .failed responses attempts error =>
      responses.flatMap respond ++ ([.modify .epollOut] ++ amilinkSendMessage attempts) ++
        respond error
  | .goodbye => []

/-- Whether the connection stays open. -/
def Handling.more : Handling → Bool
  | .goodbye => false
  | _ => true

/-- One pass of `connectionHandler` through its loop, after an event of its
    own connection. -/
inductive Pass where
  /-- `amilinkReadMessage` returns a message at last, which is handled. -/
  | message (before : List MessageRead) (reads : Nat) (handling : Handling)
  /-- `amilinkReadMessage` returns 0; then a heartbeat is sent if there was
      activity of late. -/
  | silence (calls : List MessageRead) (activity sent : Bool)
  deriving DecidableEq, Repr

/-- The reads and modifications of a pass. -/
def Pass.acts : Pass → List SocketAct
  | .message before reads handling =>
      before.flatMap MessageRead.acts ++ (MessageRead.message reads).acts ++ handling.acts
  | .silence calls activity _ =>
      calls.flatMap MessageRead.acts ++ if activity then sendActs else []

/-- Whether the loop goes on. -/
def Pass.more : Pass → Bool
  | .message _ _ handling => handling.more
  | .silence _ activity sent => activity && sent

/-- Where the handler of a connection stands. -/
inductive Phase where
  /-- Its task is in the queue of the pool. -/
  | queued
  /-- In `epoll_wait`. -/
  | waiting
  /-- In a pass, with these acts left. -/
  | serving (todo : List SocketAct) (more : Bool)
  /-- Its loop is left, and the socket is removed from epoll. -/
  | ended
  deriving DecidableEq, Repr

/-- A connection as epoll and its handler see it. -/
structure Connection where
  unread : Nat
  /-- Epoll holds an edge for the socket. -/
  ready : Bool
  interest : Interest
  phase : Phase
  deriving DecidableEq, Repr

/-- A socket after `EPOLL_CTL_ADD` in `handleNewConnection`. -/
def Connection.added (unread : Nat) : Connection :=
  { unread := unread, ready := decide (0 < unread), interest := .epollIn, phase := .queued }

/-- Bytes arrive. -/
def Connection.arrive (n : Nat) (k : Connection) : Connection :=
  { k with unread := k.unread + n,
           ready := k.ready || (decide (0 < n) && decide (k.interest = .epollIn)) }

/-- The socket becomes writable. -/
def Connection.drain (k : Connection) : Connection :=
  { k with ready := k.ready || decide (k.interest = .epollOut) }

/-- One act of a pass. `writable` is the state of the socket's send buffer. -/
def Connection.perform (writable : Bool) (k : Connection) : SocketAct → Connection
  | .recv =>
      { k with unread := k.unread - 1,
               -- A socket without bytes is no longer ready for `EPOLLIN`.
               ready := k.ready && (decide (k.interest = .epollOut) || decide (1 < k.unread)) }
  -- `EPOLL_CTL_MOD` looks at the socket anew, so that an edge is not lost by it.
  | .modify .epollIn => { k with interest := .epollIn, ready := decide (0 < k.unread) }
  | .modify .epollOut => { k with interest := .epollOut, ready := writable }

/-- A caller of `epoll_wait`: `Server::run`, or the handler of connection `c`. -/
inductive Waiter where
  | run
  | handler (c : Nat)
  deriving DecidableEq, Repr

/-- The server as its threads and epoll see it. -/
structure State where
  connections : List Connection
  /-- `Server::run` is in `handleNewConnection`. -/
  accepting : Bool
  dropped : List (Waiter × Nat)
  deriving DecidableEq, Repr

/-- A server without connections. -/
def initial : State := { connections := [], accepting := false, dropped := [] }

/-- The caller is in `epoll_wait`. -/
def State.waits (s : State) : Waiter → Bool
  | .run => !s.accepting
  | .handler c => match s.connections[c]? with
    | some k => decide (k.phase = .waiting)
    | none => false

/-- What may happen next. -/
inductive Act where
  /-- `epoll_wait` hands the event of the listening socket to `Server::run`. -/
  | newConnection
  /-- `amilinkAccept` returns a connection with so many bytes sent already. -/
  | accept (unread : Nat)
  /-- `amilinkAccept` returns no connection, and `Server::run` waits again. -/
  | noMore
  /-- A worker of the pool starts the handler. -/
  | start (c : Nat)
  /-- So many bytes arrive at a socket that is open. -/
  | arrive (c n : Nat)
  /-- The send buffer of a socket that is open has room again. -/
  | drain (c : Nat)
  /-- `epoll_wait` hands the event of connection `d` to a caller. If it is
      its handler, the pass follows. -/
  | take (w : Waiter) (d : Nat) (pass : Pass)
  /-- The handler performs the next act of its pass. -/
  | serve (c : Nat) (writable : Bool)
  /-- The pass is over: the handler waits again or ends. -/
  | finish (c : Nat)
  deriving DecidableEq, Repr

/-- The server as a step function. -/
def step (s : State) : Act → Option State
  | .newConnection => if s.accepting then none else some { s with accepting := true }
  | .accept unread =>
      if s.accepting then
        some { s with connections := s.connections ++ [Connection.added unread] }
      else none
  | .noMore => if s.accepting then some { s with accepting := false } else none
  | .start c => match s.connections[c]? with
    | some k => match k.phase with
      | .queued => some { s with connections := s.connections.set c { k with phase := .waiting } }
      | _ => none
    | none => none
  | .arrive c n => match s.connections[c]? with
    | some k =>
        if k.phase = .ended then none
        else some { s with connections := s.connections.set c (k.arrive n) }
    | none => none
  | .drain c => match s.connections[c]? with
    | some k =>
        if k.phase = .ended then none
        else some { s with connections := s.connections.set c k.drain }
    | none => none
  | .take w d pass => match s.connections[d]? with
    | some k =>
        if k.ready && s.waits w then
          -- Whoever is told of the event consumes the edge. Only its handler reads the socket.
          if w = .handler d then
            some { s with connections := s.connections.set d
                            { k with ready := false, phase := .serving pass.acts pass.more } }
          else
            some { s with connections := s.connections.set d { k with ready := false },
                          dropped := s.dropped ++ [(w, d)] }
        else none
    | none => none
  | .serve c writable => match s.connections[c]? with
    | some k => match k.phase with
      | .serving (a :: todo) more =>
          some { s with connections := s.connections.set c
                          { k.perform writable a with phase := .serving todo more } }
      | _ => none
    | none => none
  | .finish c => match s.connections[c]? with
    | some k => match k.phase with
      | .serving [] true =>
          some { s with connections := s.connections.set c { k with phase := .waiting } }
      | .serving [] false =>
          some { s with connections :=
                          s.connections.set c { k with ready := false, phase := .ended } }
      | _ => none
    | none => none

/-- The server as a machine. -/
def machine : Machine State Act := { step := step }

end Epoll

end EpollServer
