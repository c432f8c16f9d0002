import EpollServer.Theory.Numbers

/-!
# The Same Port

Where a server listens, for any command line, and what a client leaves behind
that tries to come to it.

No argument of `-p` is refused: the test for a negative port is made after the
number has been cut to 16 bits, and no port is negative then. So the server
listens on the port that is left, or on port 0 if the argument is no number. A
port that a client prints fits its buffer, and a server that is given the same
text is there (`port_read`).

A client closes the socket of every address but the one it returns. The list of
addresses is given back only behind a connection (`connect_accounted`).

## Theorems

* `parseParameters_last`: The last `-p` counts.
* `serverPort_eq`: The port of a server, with and without `-p`.
* `ofInt_atoi`: Cutting twice is cutting once.
* `portStr_whole`: A port fits into `portStr`.
* `port_read`: The port of a server.
* `connectLoop_accounted`, `connectLoop_first`: The loop over the addresses.
* `connect_accounted`: The sockets and the list of addresses.
-/

namespace EpollServer

namespace Address

open Library (isSpace isDigit digitsValue stoi)

/-! ### The server -/

/-- The options are taken in their order. -/
theorem parseParameters_append (opts rest : List Opt) : ∀ sPort : UInt16,
    parseParameters sPort (opts ++ rest) =
      (parseParameters sPort opts).bind fun port => parseParameters port rest := by
  induction opts with
  | nil => exact fun sPort => rfl
  | cons opt opts ih =>
      intro sPort
      cases opt with
      | port optarg =>
          simp only [List.cons_append, parseParameters, ih]
          split <;> rfl
      | verbose | other => rw [List.cons_append, parseParameters, parseParameters, ih]

/-- The last `-p` counts, and none is refused. -/
theorem parseParameters_last (opts : List Opt) (text : List UInt8) : ∀ sPort : UInt16,
    parseParameters sPort (opts ++ [.port text]) = some (UInt16.ofInt (atoi text).toInt) := by
  -- `sPort` is unsigned, so the test for a negative one is never met.
  have hport : ∀ p : UInt16, ¬ (p.toNat : Int) < 0 := fun p => by omega
  induction opts with
  | nil =>
      intro sPort
      rw [List.nil_append, parseParameters, if_neg (hport _), parseParameters]
  | cons opt opts ih =>
      intro sPort
      cases opt with
      | port optarg => rw [List.cons_append, parseParameters, if_neg (hport _), ih]
      | verbose | other => rw [List.cons_append, parseParameters, ih]

/-- A server without `-p` listens on the default port, and one with it on that
    of the last `-p`, wherever it stands. -/
theorem serverPort_eq (opts : List Opt) :
    ((∀ text, .port text ∉ opts) → serverPort opts = some defaultPort) ∧
      ∀ text rest, (∀ text', .port text' ∉ rest) →
        serverPort (opts ++ .port text :: rest) = some (UInt16.ofInt (atoi text).toInt) := by
  -- Options without a port leave it as it is.
  have hkeeps : ∀ (opts : List Opt) (sPort : UInt16), (∀ text, .port text ∉ opts) →
      parseParameters sPort opts = some sPort := by
    intro opts
    induction opts with
    | nil => exact fun _ _ => rfl
    | cons opt opts ih =>
        intro sPort hnone
        have hrest := fun text hmem => hnone text (List.mem_cons_of_mem opt hmem)
        cases opt with
        | port optarg => exact absurd List.mem_cons_self (hnone optarg)
        | verbose | other => rw [parseParameters, ih sPort hrest]
  refine ⟨hkeeps opts defaultPort, fun text rest hrest => ?_⟩
  have hlast := parseParameters_last opts text defaultPort
  rw [serverPort, show opts ++ .port text :: rest = (opts ++ [.port text]) ++ rest by simp]
  rw [parseParameters_append, hlast, Option.bind_some, hkeeps rest _ hrest]

/-- Cut to 32 bits and then to 16, a number is cut to 16. -/
theorem ofInt_atoi (text : List UInt8) :
    UInt16.ofInt (atoi text).toInt = UInt16.ofInt (strtol text) := by
  rw [atoi, Int32.toInt_ofInt, UInt16.ofInt, UInt16.ofInt]
  congr 2
  unfold Int.bmod
  have hsize : (Int32.size : Int) = 2 ^ 32 := rfl
  rw [hsize]
  dsimp only
  split <;> omega

theorem toNat_ofInt (z : Int) : ((UInt16.ofInt z).toNat : Int) = z % 2 ^ 16 := by
  have hlt : (z % 2 ^ 16).toNat < UInt16.size := by
    have hsize : UInt16.size = 2 ^ 16 := rfl
    omega
  rw [UInt16.ofInt, UInt16.toNat_ofNat_of_lt' hlt]
  omega

/-- A port has five digits at most. -/
theorem portStr_whole (p : UInt16) : portStr p.toNat = decimal p.toNat := by
  have hlt := p.toNat_lt
  have hdigits : (Nat.toDigits 10 p.toNat).length ≤ 5 :=
    (Nat.length_toDigits_le_iff (by decide) (by decide)).mpr (by omega)
  refine List.take_of_length_le (Nat.le_trans (Nat.le_of_eq ?_) hdigits)
  exact List.length_map (fun ch : Char => UInt8.ofNat ch.toNat)

/-- For every command line that ends with `-p`: it is accepted. A text that
    begins with a number gives that number cut to 16 bits, another one port 0,
    and the text a client prints for a port gives this port. -/
theorem port_read (sPort : UInt16) (opts : List Opt) (text : List UInt8) :
    ∃ port, parseParameters sPort (opts ++ [.port text]) = some port ∧
      (∀ z, Begins text z → -(2 ^ 63) ≤ z → z < 2 ^ 63 → (port.toNat : Int) = z % 2 ^ 16) ∧
      ((∀ z, ¬ Begins text z) → port = 0) ∧
      ∀ p : UInt16, text = portStr p.toNat → port = p := by
  refine ⟨UInt16.ofInt (strtol text), ?_, fun z hz hlow hhigh => ?_, fun hnone => ?_, ?_⟩
  · rw [parseParameters_last, ofInt_atoi]
  · -- The port is what `strtol` read, cut to sixteen bits.
    rw [strtol_of_begins text z hz hlow hhigh, toNat_ofInt]
  · rw [strtol_of_not_begins text hnone]
    rfl
  · rintro p rfl
    have hlt := p.toNat_lt
    -- What the server prints for a port is a decimal number with nothing behind it.
    have hbegins : Begins (portStr p.toNat) p.toNat := by
      have hread := begins_decimal p.toNat [] (fun _ h => by cases h)
      rw [List.append_nil] at hread
      rw [portStr_whole]
      exact hread
    rw [strtol_of_begins _ _ hbegins (by omega) (by omega)]
    refine UInt16.toNat_inj.mp (Int.natCast_inj.mp ?_)
    rw [toNat_ofInt]
    omega

/-! ### The client -/

/-- The sockets made are those closed and the one that is connected. -/
theorem connectLoop_accounted (res : List Attempt) : ∀ made : Nat,
    (connectLoop made (List.range made) res).2.2 ++
        (connectLoop made (List.range made) res).1.toList =
      List.range (connectLoop made (List.range made) res).2.1 := by
  induction res with
  | nil => exact fun made => List.append_nil _
  | cons attempt rest ih =>
      intro made
      cases attempt with
      | noSocket => exact ih made
      | connected => exact List.range_succ.symm
      | refused =>
          -- The socket is closed before the next one is made.
          rw [connectLoop, ← List.range_succ]
          exact ih (made + 1)

theorem connectLoop_none (res : List Attempt) (h : .connected ∉ res) :
    ∀ (made : Nat) (closed : List Nat), (connectLoop made closed res).1 = none := by
  induction res with
  | nil => exact fun made closed => rfl
  | cons attempt rest ih =>
      intro made closed
      rw [List.mem_cons, not_or] at h
      cases attempt with
      | noSocket => exact ih h.2 made closed
      | connected => exact absurd rfl h.1
      | refused => exact ih h.2 (made + 1) (closed ++ [made])

/-- The first address that is connected ends the loop. -/
theorem connectLoop_first (pre rest : List Attempt) (h : .connected ∉ pre) :
    ∀ (made : Nat) (closed : List Nat),
      (connectLoop made closed (pre ++ .connected :: rest)).1 =
        some (made + pre.count .refused) := by
  induction pre with
  | nil => exact fun made closed => rfl
  | cons attempt pre ih =>
      -- A refused address costs a descriptor, one without a socket does not.
      intro made closed
      rw [List.mem_cons, not_or] at h
      cases attempt with
      | noSocket =>
          rw [List.cons_append, connectLoop, ih h.2]
          rfl
      | connected => exact absurd rfl h.1
      | refused =>
          rw [List.cons_append, connectLoop, ih h.2, List.count_cons_self]
          congr 1
          omega

/-- With addresses it is the loop that decides. -/
theorem ipUtilConnect_some (getaddrinfo : List UInt8 → Option (List Attempt)) (port : Int)
    (res : List Attempt) (h : getaddrinfo (portStr port) = some res) :
    ipUtilConnect getaddrinfo port =
      { sd := (connectLoop 0 [] res).1, made := (connectLoop 0 [] res).2.1,
        closed := (connectLoop 0 [] res).2.2, resolved := 1,
        freed := if (connectLoop 0 [] res).1 = none then 0 else 1 } := by
  simp only [ipUtilConnect, h]
  split
  · rename_i made closed hrun
    simp only [hrun, if_true]
  · rename_i sd made closed hrun
    simp only [hrun, reduceCtorEq, if_false]

/-- For every answer of `getaddrinfo` and every port: of the sockets
    `IPUtilConnect` has made, all but the one it returns are closed, each once;
    it returns the socket of the first address that can be connected, and -1 if
    there is none; and it gives the list of addresses back if and only if it
    returns a socket. -/
theorem connect_accounted (getaddrinfo : List UInt8 → Option (List Attempt)) (port : Int) :
    (ipUtilConnect getaddrinfo port).closed ++ (ipUtilConnect getaddrinfo port).sd.toList =
        List.range (ipUtilConnect getaddrinfo port).made ∧
      (∀ pre rest, getaddrinfo (portStr port) = some (pre ++ .connected :: rest) →
        .connected ∉ pre → (ipUtilConnect getaddrinfo port).sd = some (pre.count .refused)) ∧
      ((∀ res, getaddrinfo (portStr port) = some res → .connected ∉ res) →
        (ipUtilConnect getaddrinfo port).sd = none) ∧
      ((ipUtilConnect getaddrinfo port).freed = 1 ↔
        (ipUtilConnect getaddrinfo port).sd ≠ none) := by
  cases hres : getaddrinfo (portStr port) with
  | none =>
      rw [ipUtilConnect, hres]
      refine ⟨rfl, fun _ _ h => ?_, fun _ => rfl, ?_⟩
      · exact absurd h (Option.some_ne_none _).symm
      · exact iff_of_false Nat.zero_ne_one (fun hne => hne rfl)
  | some res =>
      -- The loop over the addresses decides; the list is freed only behind a connection.
      rw [ipUtilConnect_some getaddrinfo port res hres]
      refine ⟨connectLoop_accounted res 0, fun pre rest h hpre => ?_, fun hnone => ?_, ?_⟩
      · rw [Option.some.inj h, connectLoop_first pre rest hpre, Nat.zero_add]
      · exact connectLoop_none res (hnone res rfl) 0 []
      · by_cases hsd : (connectLoop 0 [] res).1 = none
        · simp only [hsd, if_true, Nat.zero_ne_one, ne_eq, not_true_eq_false]
        · simp only [hsd, if_false, ne_eq, not_false_eq_true]

end Address

end EpollServer
