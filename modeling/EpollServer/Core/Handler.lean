import EpollServer.Core.Push

/-!
# Connection Handlers

What `handleNewConnection` and `connectionHandler` of `server.cpp` acquire for
a connection and give back: its place in epoll and its descriptor, a database
connection, the assembly buffer, and its share of `activeConnections`.

A state holds every connection the server has accepted and registered. The
task of each runs in a thread of the pool, so the tasks step in any order. A
task is cut at what it acquires and releases and at each pass of its loop; a
pass handles one request, with `handleRequest` as it is modelled for the
pushes, or is one of silence. Whatever is decided outside is part of the
action: the requests, the outcome of `getConnection` and `returnConnection`,
the inactivity test and the heartbeat.

An exception that leaves `connectionHandler` ends the task as well. It was put
into the pool as a `std::packaged_task`, which keeps the exception, so that
only the rest of the task is skipped. What `handleRequest` had done to its
variables by then is left open, since nothing reads them. A `memcpy` outside
its buffers is undefined, and no step follows it.

The task has ended for its connection when it has decremented
`activeConnections`. The call of `adjustThreadPoolSize` behind it is about the
pool and does not touch the connection.

The five counters of a connection are not part of the program, except that
`activeConnections` changes along with `decremented`.

## Main definitions

* `Phase`: How far the task of a connection is.
* `Connection`, `State`: The connections and the counter.
* `accept`: `handleNewConnection` up to the counter.
* `getConnection`, `handleMessage`, `handleSilence`: The handler up to the end
  of its loop.
* `removeFromEpoll`, `returnConnection`, `close`, `decrement`: What follows.
* `taskStep`: The task of one connection.
* `machine`: The connections as a machine.
-/

namespace EpollServer

namespace Handler

open Push (Session Layout Environment Request handleRequest)

/-- How far the task of a connection is. -/
inductive Phase where
  /-- It is counted, and its task is not yet enqueued. -/
  | accepted
  | queued
  /-- In `connectionHandler`, before `getConnection`. -/
  | started
  /-- In its loop. -/
  | serving
  /-- Behind the loop, before `EPOLL_CTL_DEL`. -/
  | leaving
  /-- Before `returnConnection`. -/
  | removed
  /-- Before `amilinkClose`. -/
  | returned
  /-- Before `activeConnections--`. -/
  | closed
  | ended
  /-- The task has ended with an exception. -/
  | failed
  deriving DecidableEq, Repr

/-- A connection, its task, and how often each thing was given back. -/
structure Connection (ν : Type) where
  phase : Phase
  session : Session ν
  /-- Database connections got from the pool and given back to it. -/
  leased : Nat
  returned : Nat
  removed : Nat
  closed : Nat
  decremented : Nat
  deriving DecidableEq, Repr

/-- A connection that has just been counted. -/
def Connection.opened (ν : Type) : Connection ν :=
  { phase := .accepted, session := Session.opened ν, leased := 0, returned := 0, removed := 0,
    closed := 0, decremented := 0 }

/-- All connections so far, and the counter. -/
structure State (ν : Type) where
  connections : List (Connection ν)
  activeConnections : Int
  deriving DecidableEq, Repr

/-- No connection has been accepted. -/
def initial (ν : Type) : State ν := { connections := [], activeConnections := 0 }

variable {ν : Type}

/-- One pass of `handleNewConnection` up to `activeConnections++`. A connection
    that cannot be registered is closed at once. -/
def accept (registered : Bool) (s : State ν) : State ν :=
  if registered then
    { connections := s.connections ++ [Connection.opened ν]
      activeConnections := s.activeConnections + 1 }
  else s

/-- The exception of a handler, of `getConnection` or of `returnConnection`. -/
def Connection.fail (k : Connection ν) : Connection ν := { k with phase := .failed }

/-- `auto conn = data->mysqlManager->getConnection();`. -/
def getConnection (obtained : Bool) (k : Connection ν) : Connection ν :=
  if obtained then { k with phase := .serving, leased := k.leased + 1 } else k.fail

/-- The end of a pass, where `more` is tested. -/
def Connection.loop (more : Bool) (k : Connection ν) : Connection ν :=
  if more then k else { k with phase := .leaving }

/-- A pass with a message. `none` is a `memcpy` outside its buffers. -/
def handleMessage (L : Layout ν) (env : Environment) (request : Request L) (k : Connection ν) :
    Option (Connection ν) :=
  match handleRequest L env request k.session with
  | .ok more session => some ({ k with session := session }.loop more)
  | .error _ _ => none

/-- A pass without one: `more = activity && amilinkHeartbeat(connection)`. -/
def handleSilence (activity heartbeat : Bool) (k : Connection ν) : Connection ν :=
  k.loop (activity && heartbeat)

/-- `epoll_ctl` with `EPOLL_CTL_DEL`. -/
def removeFromEpoll (k : Connection ν) : Connection ν :=
  { k with phase := .removed, removed := k.removed + 1 }

/-- `returnConnection`, which may pass on an exception of the driver. -/
def returnConnection (accepted : Bool) (k : Connection ν) : Connection ν :=
  if accepted then { k with phase := .returned, returned := k.returned + 1 } else k.fail

/-- `amilinkClose`. -/
def close (k : Connection ν) : Connection ν :=
  { k with phase := .closed, closed := k.closed + 1 }

/-- `activeConnections--`, for the connection. -/
def decrement (k : Connection ν) : Connection ν :=
  { k with phase := .ended, decremented := k.decremented + 1 }

/-- What the task of a connection does next. -/
inductive TaskAct (L : Layout ν) where
  | enqueue
  | start
  | getConnection (obtained : Bool)
  | message (request : Request L)
  /-- A message whose handler throws. -/
  | throws (request : Request L)
  | silence (activity heartbeat : Bool)
  /-- `epoll_wait` fails, or returns an event of another descriptor. -/
  | foreign
  | remove
  | returnConnection (accepted : Bool)
  | close
  | decrement

/-- The task of a connection as a step function. -/
def taskStep (L : Layout ν) (env : Environment) (k : Connection ν) (a : TaskAct L) :
    Option (Connection ν) :=
  match k.phase, a with
  | .accepted, .enqueue => some { k with phase := .queued }
  | .queued, .start => some { k with phase := .started }
  | .started, .getConnection obtained => some (getConnection obtained k)
  | .serving, .message request => handleMessage L env request k
  -- Nothing catches it: the clean-up behind the loop is skipped.
  | .serving, .throws _ => some k.fail
  | .serving, .silence activity heartbeat => some (handleSilence activity heartbeat k)
  -- The events of other descriptors are passed over.
  | .serving, .foreign => some k
  | .leaving, .remove => some (removeFromEpoll k)
  | .removed, .returnConnection accepted => some (returnConnection accepted k)
  | .returned, .close => some (close k)
  | .closed, .decrement => some (decrement k)
  | _, _ => none

/-- What happens next. -/
inductive Act (L : Layout ν) where
  | accept (registered : Bool)
  | task (c : Nat) (a : TaskAct L)

/-- The connections as a step function. Each has an environment of its own. -/
def step (L : Layout ν) (env : Nat → Environment) (s : State ν) : Act L → Option (State ν)
  | .accept registered => some (accept registered s)
  | .task c a => match s.connections[c]? with
    | none => none
    | some k => (taskStep L (env c) k a).map fun k' =>
        { connections := s.connections.modify c (fun _ => k')
          activeConnections := match a with
            | .decrement => s.activeConnections - 1
            | _ => s.activeConnections }

/-- The connections as a machine. -/
def machine (L : Layout ν) (env : Nat → Environment) : Machine (State ν) (Act L) :=
  { step := step L env }

end Handler

end EpollServer
