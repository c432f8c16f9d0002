import EpollServer.Core.Library

/-!
# Ports and Addresses

How a server comes to its port, and a client to the server: `parseParameters`
of `service_main.cpp` and `IPUtilConnect` of `iputil.c`.

`getopt` is left to the library: the options come as it returns them. `atoi` is
`strtol` cut to an `int`, as the C library has it for numbers that are no `int`.

`IPUtilConnect` prints its port into six bytes and tries the addresses it gets
one after the other. Its sockets are numbered in their order here, and the list
of addresses is counted, since `freeaddrinfo` gives it back on one of the two
ways out.

## Main definitions

* `scanned`, `strtol`, `atoi`: The number in front of a text.
* `parseParameters`, `serverPort`: The port of a server.
* `decimal`, `portStr`: A port as a text.
* `connectLoop`, `ipUtilConnect`: The connection of a client.
-/

namespace EpollServer

namespace Address

open Library (isSpace isDigit digitsValue)

/-! ### The server -/

/-- Whether there is a minus sign, and what stands behind the sign. -/
def signed : List UInt8 → Bool × List UInt8
  | [] => (false, [])
  | b :: rest =>
      if b = 43 then (false, rest) else if b = 45 then (true, rest) else (false, b :: rest)

/-- Whether the number in front has a minus sign, and its digits. -/
def scanned (s : List UInt8) : Bool × List UInt8 :=
  ((signed (s.dropWhile isSpace)).1, (signed (s.dropWhile isSpace)).2.takeWhile isDigit)

/-- The number that was scanned. -/
def number (scan : Bool × List UInt8) : Int :=
  if scan.1 then -(digitsValue scan.2 : Int) else digitsValue scan.2

/-- `strtol` to the base 10: the number in front, or 0, and the nearest `long`
    if it is none. -/
def strtol (s : List UInt8) : Int := max (-(2 ^ 63)) (min (number (scanned s)) (2 ^ 63 - 1))

/-- `atoi`, which drops the upper half of a `long`. -/
def atoi (s : List UInt8) : Int32 := Int32.ofInt (strtol s)

/-- `DEFAULT_PORT`. -/
def defaultPort : UInt16 := 51111

/-- What `getopt` returns. -/
inductive Opt where
  | port (optarg : List UInt8)
  | verbose
  /-- An option that is neither, or `-p` without its argument. -/
  | other
  deriving DecidableEq, Repr

/-- The loop of `parseParameters`. `none` is its `cleanExit`. -/
def parseParameters (sPort : UInt16) : List Opt → Option UInt16
  | [] => some sPort
  | .port optarg :: rest =>
      let sPort := UInt16.ofInt (atoi optarg).toInt
      -- `sPort < 0` compares two `int`s.
      if (sPort.toNat : Int) < 0 then none else parseParameters sPort rest
  | .verbose :: rest => parseParameters sPort rest
  -- `usage` prints and returns.
  | .other :: rest => parseParameters sPort rest

/-- The port of a server that is started with these options. -/
def serverPort (opts : List Opt) : Option UInt16 := parseParameters defaultPort opts

/-! ### The client -/

/-- `%d`. -/
def decimal : Int → List UInt8
  | .ofNat n => (Nat.toDigits 10 n).map fun ch => UInt8.ofNat ch.toNat
  | .negSucc n => 45 :: (Nat.toDigits 10 (n + 1)).map fun ch => UInt8.ofNat ch.toNat

/-- What `snprintf` leaves in `portStr`, of six bytes with the null byte. -/
def portStr (port : Int) : List UInt8 := (decimal port).take 5

/-- What becomes of an address. -/
inductive Attempt where
  | noSocket
  /-- `connect` succeeds, or is in progress. -/
  | connected
  | refused
  deriving DecidableEq, Repr

/-- What `IPUtilConnect` returns and what it leaves behind. -/
structure Connecting where
  /-- The socket that is returned; `none` is -1. -/
  sd : Option Nat
  /-- The sockets that have been made and closed. -/
  made : Nat
  closed : List Nat
  /-- The lists of addresses that have been got and given back. -/
  resolved : Nat
  freed : Nat
  deriving DecidableEq, Repr

/-- The loop over the addresses, behind `made` sockets. -/
def connectLoop (made : Nat) (closed : List Nat) : List Attempt → Option Nat × Nat × List Nat
  | [] => (none, made, closed)
  | .noSocket :: rest => connectLoop made closed rest
  | .connected :: _ => (some made, made + 1, closed)
  | .refused :: rest => connectLoop (made + 1) (closed ++ [made]) rest

/-- `IPUtilConnect`. The addresses are those of `getaddrinfo` for `portStr`. -/
def ipUtilConnect (getaddrinfo : List UInt8 → Option (List Attempt)) (port : Int) : Connecting :=
  match getaddrinfo (portStr port) with
  | none => { sd := none, made := 0, closed := [], resolved := 0, freed := 0 }
  | some res => match connectLoop 0 [] res with
    -- `freeaddrinfo` stands behind the return.
    | (none, made, closed) =>
        { sd := none, made := made, closed := closed, resolved := 1, freed := 0 }
    | (some sd, made, closed) =>
        { sd := some sd, made := made, closed := closed, resolved := 1, freed := 1 }

end Address

end EpollServer
