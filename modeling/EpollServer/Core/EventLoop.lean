import EpollServer.Lib.Machine

/-!
# The Event Loop

`Server::run` and `Server::handleNewConnection` of `server.cpp`, with the
handlers that end while they run.

The main thread waits on epoll with the vector `epollContext.events` for its
result. It resizes the vector to `INITIAL_EVENTS` and the number of
connections, goes through the events reported, and accepts connections when one
of them is that of the listening socket. The number of connections is
`activeConnections`. A handler that ends removes its descriptor from epoll and
decrements the counter behind that, at any time. A handler that has thrown
never does the second, and the first only if it had come that far.

A descriptor is the number of its connection. What `epoll_wait` reports is part
of the action: some registered descriptors, each once, and no more than fit
into the vector. After an error there are none. Reading behind the vector is
undefined, and no step follows it.

`ended` is not part of the program. It is the number of handlers that have
decremented the counter since the last `epoll_wait`.

## Main definitions

* `Descriptor`: The listening socket and those of the clients.
* `Phase`: Where the main thread is.
* `Handler`: Where the handler of a connection is.
* `State`: The main thread, the vector and the handlers.
* `registered`: The descriptors in epoll.
* `resize`: `resize` of the vector.
* `visit`: A pass of the loop over the events.
* `machine`: The event loop as a machine.
-/

namespace EpollServer

namespace EventLoop

/-- `INITIAL_EVENTS`. -/
def initialEvents : Nat := 10

/-- A descriptor in epoll. -/
inductive Descriptor where
  /-- `sLink`. -/
  | listening
  | client (k : Nat)
  deriving DecidableEq, Repr

/-- Where the main thread is. -/
inductive Phase where
  /-- Before `while (running)`. -/
  | waiting
  /-- Behind `epoll_wait`, which has reported these descriptors. -/
  | resizing (reported : List Descriptor)
  /-- Before the test `i < n`. -/
  | visiting (reported : List Descriptor) (i : Nat)
  /-- In `handleNewConnection`, called for event `i`. -/
  | accepting (reported : List Descriptor) (i : Nat)
  /-- `run` has returned. -/
  | stopped
  deriving DecidableEq, Repr

/-- Where the handler of a connection is. -/
inductive Handler where
  /-- Before `EPOLL_CTL_DEL`. -/
  | serving
  /-- Before `activeConnections--`. -/
  | removed
  | ended
  /-- It has thrown, before or behind `EPOLL_CTL_DEL`. -/
  | failed (registered : Bool)
  deriving DecidableEq, Repr

/-- The main thread, the array of events, and the handlers. -/
structure State where
  running : Bool
  phase : Phase
  /-- `epollContext.events`, with nothing in the entries that were never filled. -/
  events : List (Option Descriptor)
  activeConnections : Nat
  handlers : List Handler
  ended : Nat
  deriving DecidableEq, Repr

/-- `Server::run` after its first `resize`. -/
def initial : State :=
  { running := true, phase := .waiting, events := List.replicate initialEvents none
    activeConnections := 0, handlers := [], ended := 0 }

/-- The descriptor of the connection is in epoll. -/
def Handler.registered : Handler → Bool
  | .serving => true
  | .removed => false
  | .ended => false
  | .failed registered => registered

/-- The descriptors of the clients in epoll. -/
def clients (handlers : List Handler) : List Descriptor :=
  handlers.zipIdx.filterMap fun (handler, k) =>
    if handler.registered then some (.client k) else none

/-- The descriptors in epoll. -/
def registered (s : State) : List Descriptor := .listening :: clients s.handlers

/-- `epoll_wait` may report these. -/
def Reportable (s : State) (reported : List Descriptor) : Prop :=
  reported.length ≤ s.events.length ∧ reported.Nodup ∧ ∀ d ∈ reported, d ∈ registered s

instance (s : State) (reported : List Descriptor) : Decidable (Reportable s reported) :=
  inferInstanceAs (Decidable (_ ∧ _ ∧ _))

/-- The vector behind `epoll_wait`. -/
def fill (reported : List Descriptor) (events : List (Option Descriptor)) :
    List (Option Descriptor) :=
  reported.map some ++ events.drop reported.length

/-- `resize`: the front is kept, and new entries are cleared. -/
def resize (size : Nat) (events : List (Option Descriptor)) : List (Option Descriptor) :=
  events.take size ++ List.replicate (size - events.length) none

/-- A handler goes on to another phase. -/
def State.setHandler (s : State) (k : Nat) (handler : Handler) : State :=
  { s with handlers := s.handlers.modify k fun _ => handler }

/-- A pass of the loop over the events, up to `handleNewConnection`. -/
def visit (reported : List Descriptor) (i : Nat) (s : State) : Option State :=
  if i < reported.length then
    match s.events[i]? with
    -- The vector is shorter than the result of `epoll_wait`.
    | none => none
    | some entry =>
        if entry = some .listening then some { s with phase := .accepting reported i }
        else some { s with phase := .visiting reported (i + 1) }
  else some { s with phase := .waiting }

/-- A connection is accepted. One that cannot be registered is closed at once. -/
def accept (added : Bool) (s : State) : State :=
  if added then
    { s with
      handlers := s.handlers ++ [.serving]
      activeConnections := s.activeConnections + 1 }
  else s

/-- What happens next. -/
inductive Act where
  | wait (reported : List Descriptor)
  | resize
  | visit
  | accept (added : Bool)
  /-- There are no more connections to accept. -/
  | accepted
  /-- `Server::stop`. -/
  | stop
  /-- `running` is tested and found false. -/
  | finish
  /-- `EPOLL_CTL_DEL` of handler `k`. -/
  | remove (k : Nat)
  /-- `activeConnections--` of handler `k`. -/
  | decrement (k : Nat)
  /-- Handler `k` throws. -/
  | fail (k : Nat)
  deriving DecidableEq, Repr

/-- The event loop as a step function. -/
def step (s : State) : Act → Option State
  | .wait reported =>
      if s.phase = .waiting ∧ s.running = true ∧ Reportable s reported then
        some { s with phase := .resizing reported, events := fill reported s.events, ended := 0 }
      else none
  -- Handlers may have ended since `epoll_wait`, and the vector gets shorter with them.
  | .resize => match s.phase with
    | .resizing reported => some { s with
        phase := .visiting reported 0
        events := EventLoop.resize (initialEvents + s.activeConnections) s.events }
    | _ => none
  | .visit => match s.phase with
    | .visiting reported i => EventLoop.visit reported i s
    | _ => none
  | .accept added => match s.phase with
    | .accepting _ _ => some (EventLoop.accept added s)
    | _ => none
  | .accepted => match s.phase with
    | .accepting reported i => some { s with phase := .visiting reported (i + 1) }
    | _ => none
  -- Nothing wakes the main thread: it finds out after the next event.
  | .stop => some { s with running := false }
  | .finish =>
      if s.phase = .waiting ∧ s.running = false then some { s with phase := .stopped } else none
  | .remove k => match s.handlers[k]? with
    | some .serving => some (s.setHandler k .removed)
    | _ => none
  | .decrement k => match s.handlers[k]? with
    | some .removed => some
        { s.setHandler k .ended with
          activeConnections := s.activeConnections - 1
          ended := s.ended + 1 }
    | _ => none
  -- What is left of the clean-up is skipped, and the connection stays counted.
  | .fail k => match s.handlers[k]? with
    | some .serving => some (s.setHandler k (.failed true))
    | some .removed => some (s.setHandler k (.failed false))
    | _ => none

/-- The event loop as a machine. -/
def machine : Machine State Act := { step := step }

end EventLoop

end EpollServer
