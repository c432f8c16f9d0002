import EpollServer.Core.Config
import EpollServer.Core.Library
import EpollServer.Core.Whole

/-!
# Startup

`serverInit` of `server.cpp`: the manager of the database connections with the
pool the configuration file asks for, the `Server`, and its start.

What the driver answers is a parameter, and so is which system calls succeed.
An exception of the manager ends in the `catch` of `serverInit`, and there is no
server. A start that fails is no exception: `start` returns, `serverInit` has
its server, and nothing runs. `main` sleeps on in each of these cases.

## Main definitions

* `Driver`: What the database answers at startup.
* `mySqlConnectionManager`: The constructor of the manager.
* `Calls`: Which system calls succeed.
* `ipUtilListen`: The listening socket.
* `initializeServer`, `start`: `Server::initialize` and `Server::start`.
* `serverInit`: The server, if there is one.
* `process`: The threads, the connections and the pool, if the server runs.
-/

namespace EpollServer

namespace Startup

open ConnectionPool (Connect)

/-- What `driver->connect` and `setSchema` do with a URI, a user and a password,
    for each connection of the pool and each attempt. -/
abbrev Driver := List UInt8 → List UInt8 → List UInt8 → Nat → Nat → Connect

/-- A text as its bytes. -/
def bytes (name : List Char) : List UInt8 := name.map fun ch => UInt8.ofNat ch.toNat

/-- `"poolSize"`. -/
def poolSizeKey : List UInt8 := bytes ['p', 'o', 'o', 'l', 'S', 'i', 'z', 'e']

/-- `"dbUri"`. -/
def dbUriKey : List UInt8 := bytes ['d', 'b', 'U', 'r', 'i']

/-- `"user"`. -/
def userKey : List UInt8 := bytes ['u', 's', 'e', 'r']

/-- `"password"`. -/
def passwordKey : List UInt8 := bytes ['p', 'a', 's', 's', 'w', 'o', 'r', 'd']

/-- `config[key]`, which makes an empty value for a missing key. -/
def lookUp (config : List UInt8 → Option (List UInt8)) (key : List UInt8) : List UInt8 :=
  (config key).getD []

/-- The constructor of `MySqlConnectionManager`. `none` is an exception. -/
def mySqlConnectionManager (file : Option (List UInt8)) (driver : Driver) :
    Option ConnectionPool.State :=
  let config := Config.loadConfig file
  match Library.stoi (lookUp config poolSizeKey) with
  -- `std::invalid_argument` or `std::out_of_range`.
  | none => none
  -- `createTables` creates nothing and returns true.
  | some poolSize => ConnectionPool.construct poolSize
      (driver (lookUp config dbUriKey) (lookUp config userKey) (lookUp config passwordKey))

/-- Which system calls succeed. -/
structure Calls where
  socket : Bool
  bind : Bool
  listen : Bool
  getFlags : Bool
  setFlags : Bool
  epollCreate : Bool
  epollAdd : Bool
  deriving DecidableEq, Repr

/-- The fields of a `Server` that its start sets. -/
structure Server where
  /-- There is a listening socket. -/
  sLink : Bool
  /-- There is an epoll instance. -/
  efd : Bool
  running : Bool
  pool : ConnectionPool.State
  deriving DecidableEq, Repr

/-- `IPUtilListen`. Without the dual stack it goes on. -/
def ipUtilListen (calls : Calls) : Bool := calls.socket && calls.bind && calls.listen

/-- `Server::initialize`, and whether it succeeds. -/
def initializeServer (calls : Calls) (server : Server) : Bool × Server :=
  if ipUtilListen calls then
    if calls.getFlags && calls.setFlags then
      if calls.epollCreate then (calls.epollAdd, { server with sLink := true, efd := true })
      else (false, { server with sLink := true })
    else (false, { server with sLink := true })
  else (false, server)

/-- `Server::start`. -/
def start (calls : Calls) (server : Server) : Server :=
  match initializeServer calls server with
  | (true, server) => { server with running := true }
  -- Nobody closes what there is.
  | (false, server) => server

/-- `serverInit`, and `globalServer` behind it. -/
def serverInit (file : Option (List UInt8)) (driver : Driver) (calls : Calls) : Option Server :=
  (mySqlConnectionManager file driver).map fun pool =>
    start calls { sLink := false, efd := false, running := false, pool := pool }

/-- The server with its threads, where the one of `Server::run` is there. -/
def process (ν : Type) : Option Server → Option (Whole.State ν)
  | some server => if server.running then some (Whole.initial ν server.pool) else none
  | none => none

end Startup

end EpollServer
