import EpollServer.Lib.Machine
import EpollServer.Lib.Partial
import EpollServer.Core.Socket
import EpollServer.Core.Transfer

/-!
# Bytes Accounted For

Whether `IPUtilSendData` and `IPUtilReceiveData` return, and whether what they
return agrees with the bytes that were sent and received.

Both loops are transfers in parts, so what they sent is a front of the buffer
and what they received is a front of what arrived. A count that is returned is
the length of that front. -1 is returned in two cases: at the first call, when
nothing was moved, and behind calls that moved bytes. Then the sender does not
know what is on the wire, and the bytes of the receiver are lost, although the
same functions return the count when the socket blocks at that place. And while
`IPUtilReceiveData` is left when `recv` gives nothing, `IPUtilSendData` calls
`send` again.

`transfers_accounted_iff` says that nothing else goes wrong. Of the callers in
`amilink.cpp` `readPhysicalFrame` asks for one byte, which cannot come in parts,
and `amilinkHeartbeat` compares the count with the length, which shows every
cut. The others do not look at what is returned.

## Main definitions

* `sendPart`, `recvPart`: The calls as parts of a transfer.
* `value`: The return value.
* `SendAccounted`, `ReceiveAccounted`: The functions return, and what they
  return agrees with what they did.
* `poll`: The byte of a call for one byte.

## Theorems

* `sendLoop_eq`, `recvLoop_eq`: The loops are transfers.
* `receive_ends`: `IPUtilReceiveData` returns.
* `transfers_accounted_iff`: When the bytes are accounted for.
* `receive_accounted_of_le_one`: Calls for one byte.
* `received_eq_poll`: Such a call, for `readPhysicalFrame`.
* `send_whole_iff`: The count is the length if and only if all was sent.
* `reaches_of_ipUtilSendData`: The senders of a connection run the same loop.
-/

namespace EpollServer

namespace Socket

open Wire (SendOutcome)

/-- A call of `send` as a part of the transfer. -/
def sendPart : SendOutcome → Partial.Outcome
  | .took n => .offers n
  | .again => .stops
  | .error => .fails

/-- A call of `recv` as a part of the transfer. -/
def recvPart : RecvOutcome → Partial.Outcome
  | .got bytes => if bytes.length = 0 then .stops else .offers bytes.length
  | .again => .stops
  | .error => .fails

/-- The return value. -/
def value : Partial.Exit × Nat → Int
  | (.counted, n) => n
  | (.failed, _) => -1

/-- The bytes at the other end, in order. -/
def arriving (outcomes : List RecvOutcome) : List UInt8 :=
  outcomes.flatMap fun
    | .got bytes => bytes
    | _ => []

/-- What a receiver is left with: the return value, the buffer, and the bytes. -/
def receipt (buffer stream : List UInt8) (r : Partial.Exit × Nat) :
    Int × List UInt8 × List UInt8 :=
  (value r, stream.take r.2 ++ buffer.drop r.2, stream.take r.2)

/-! ### The loops as transfers -/

/-- What was sent is the front of the buffer, as far as the transfer came. -/
theorem sendLoop_eq (buffer : List UInt8) (outcomes : List SendOutcome) : ∀ total : Nat,
    total ≤ buffer.length → sendLoop buffer total (buffer.take total) outcomes =
      (Partial.transfer buffer.length total (outcomes.map sendPart)).map
        fun r => (value r, buffer.take r.2) := by
  induction outcomes with
  | nil =>
      intro total hle
      rw [sendLoop, List.map_nil, Partial.transfer]
      split <;> rfl
  | cons outcome outcomes ih =>
      intro total hle
      -- The test of the loop.
      by_cases hmore : total < buffer.length
      · rw [List.map_cons]
        cases outcome with
        | took n =>
            have hlength : ((buffer.drop total).take n).length = min n (buffer.length - total) := by
              rw [List.length_take, List.length_drop]
            have htaken : buffer.take total ++ (buffer.drop total).take n =
                buffer.take (total + min n (buffer.length - total)) := by
              rw [List.take_add, ← List.length_drop, ← List.take_eq_take_min]
            rw [sendLoop, if_pos hmore, sendPart, Partial.transfer_offers hmore,
              ← ih _ (by omega)]
            simp only [hlength, htaken]
        | again =>
            rw [sendLoop, if_pos hmore, sendPart, Partial.transfer_stops hmore]
            rfl
        | error =>
            rw [sendLoop, if_pos hmore, sendPart, Partial.transfer_fails hmore]
            rfl
      · rw [Partial.transfer_done hmore]
        exact if_neg hmore

/-- Writing behind what was received. -/
theorem splice_received (received read buffer : List UInt8) :
    Splice.splice (received ++ buffer.drop received.length) read received.length =
      received ++ read ++ buffer.drop (received ++ read).length := by
  rw [Splice.splice, List.take_left, List.length_append, ← List.drop_drop, List.drop_left,
    List.drop_drop]

/-- A call that cuts off what is there cuts it behind the buffer. -/
theorem take_cut (received bytes rest : List UInt8) (m n : Nat)
    (hn : n ≤ received.length + m) :
    (received ++ bytes.take m ++ rest).take n = (received ++ (bytes ++ rest)).take n := by
  by_cases hm : bytes.length ≤ m
  · rw [List.take_of_length_le hm, List.append_assoc]
  · have hlength : n ≤ (received ++ bytes.take m).length := by
      rw [List.length_append, List.length_take]
      omega
    have hsplit : received ++ (bytes ++ rest) =
        received ++ bytes.take m ++ (bytes.drop m ++ rest) := by
      rw [List.append_assoc, ← List.append_assoc (bytes.take m), List.take_append_drop]
    rw [hsplit, List.take_append_of_le_length hlength, List.take_append_of_le_length hlength]

/-- Where the loop ends, the bytes so far are the ones received. -/
theorem receipt_received (buffer received rest : List UInt8) (exit : Partial.Exit) :
    receipt buffer (received ++ rest) (exit, received.length) =
      (value (exit, received.length), received ++ buffer.drop received.length, received) := by
  rw [receipt, List.take_left]

/-- What was received is the front of the bytes at the other end, as far as the
    transfer came, and the front of the buffer. -/
theorem recvLoop_eq (buffer : List UInt8) (outcomes : List RecvOutcome) :
    ∀ received : List UInt8, received.length ≤ buffer.length →
      recvLoop buffer.length received.length (received ++ buffer.drop received.length) received
          outcomes =
        (Partial.transfer buffer.length received.length (outcomes.map recvPart)).map
          (receipt buffer (received ++ arriving outcomes)) := by
  induction outcomes with
  | nil =>
      intro received hle
      rw [recvLoop, List.map_nil, Partial.transfer]
      split
      · rfl
      · rw [Option.map_some, receipt_received]
        rfl
  | cons outcome outcomes ih =>
      intro received hle
      by_cases hmore : received.length < buffer.length
      · rw [List.map_cons]
        cases outcome with
        | got bytes =>
            have hread : (bytes.take (buffer.length - received.length)).length =
                min bytes.length (buffer.length - received.length) := by
              rw [List.length_take, Nat.min_comm]
            -- `recv` of no byte is the end of the stream.
            by_cases hnone : bytes.length = 0
            · rw [recvLoop, if_pos hmore, if_pos (by omega), recvPart, if_pos hnone,
                Partial.transfer_stops hmore, Option.map_some, receipt_received]
              rfl
            · have hnext := ih (received ++ bytes.take (buffer.length - received.length))
                (by rw [List.length_append]; omega)
              rw [recvLoop, if_pos hmore, if_neg (by omega), recvPart, if_neg hnone,
                Partial.transfer_offers hmore, splice_received]
              simp only [List.length_append, hread] at hnext ⊢
              rw [hnext]
              refine Option.map_congr ?_
              intro r hr
              have hbounds := Partial.transfer_bounds _ (by omega) hr
              have hcut := take_cut received bytes (arriving outcomes)
                (buffer.length - received.length) r.2 (by omega)
              rw [receipt, receipt, hcut]
              rfl
        | again =>
            rw [recvLoop, if_pos hmore, recvPart, Partial.transfer_stops hmore, Option.map_some,
              receipt_received]
            rfl
        | error =>
            rw [recvLoop, if_pos hmore, recvPart, Partial.transfer_fails hmore, Option.map_some,
              receipt_received]
            rfl
      · rw [Partial.transfer_done hmore, Option.map_some, receipt_received]
        exact if_neg hmore

theorem ipUtilSendData_eq (buffer : List UInt8) (outcomes : List SendOutcome) :
    ipUtilSendData buffer outcomes =
      (Partial.transfer buffer.length 0 (outcomes.map sendPart)).map
        fun r => (value r, buffer.take r.2) :=
  sendLoop_eq buffer outcomes 0 (Nat.zero_le _)

theorem ipUtilReceiveData_eq (buffer : List UInt8) (outcomes : List RecvOutcome) :
    ipUtilReceiveData buffer outcomes =
      (Partial.transfer buffer.length 0 (outcomes.map recvPart)).map
        (receipt buffer (arriving outcomes)) :=
  recvLoop_eq buffer outcomes [] (Nat.zero_le _)

theorem length_arriving (outcomes : List RecvOutcome) :
    (arriving outcomes).length = Partial.offered (outcomes.map recvPart) := by
  induction outcomes with
  | nil => rfl
  | cons outcome outcomes ih =>
      rw [arriving, List.flatMap_cons, List.length_append, List.map_cons, Partial.offered_cons,
        ← ih, arriving]
      cases outcome with
      | got bytes =>
          simp only [recvPart]
          split <;> simp only [Partial.Outcome.offer, *]
      | again => rfl
      | error => rfl

/-! ### Accounts -/

/-- What is returned agrees with what was sent. -/
def SendTrue (buffer : List UInt8) (r : Int × List UInt8) : Prop :=
  (r.1 = -1 ∧ r.2 = []) ∨ ∃ n : Nat, r.1 = n ∧ n ≤ buffer.length ∧ r.2 = buffer.take n

/-- For a sequence of outcomes `IPUtilSendData` returns, and what it returns
    agrees with what it sent. -/
def SendAccounted (buffer : List UInt8) (f : Nat → SendOutcome) : Prop :=
  (∃ N r, ipUtilSendData buffer (Partial.first f N) = some r) ∧
    ∀ N r, ipUtilSendData buffer (Partial.first f N) = some r → SendTrue buffer r

/-- What is returned agrees with what was received of a stream, and with what
    the buffer holds in front of its old bytes. -/
def ReceiveTrue (buffer stream : List UInt8) (r : Int × List UInt8 × List UInt8) : Prop :=
  (r.1 = -1 ∧ r.2.1 = buffer ∧ r.2.2 = []) ∨
    ∃ n : Nat, r.1 = n ∧ n ≤ buffer.length ∧ r.2.1 = r.2.2 ++ buffer.drop n ∧
      r.2.2.length = n ∧ r.2.2 = stream.take n

/-- For a sequence of outcomes `IPUtilReceiveData` returns, and what it returns
    agrees with what it received. -/
def ReceiveAccounted (buffer : List UInt8) (g : Nat → RecvOutcome) : Prop :=
  (∃ N r, ipUtilReceiveData buffer (Partial.first g N) = some r) ∧
    ∀ N r, ipUtilReceiveData buffer (Partial.first g N) = some r →
      ReceiveTrue buffer (arriving (Partial.first g N)) r

theorem sendTrue_iff {buffer : List UInt8} {r : Partial.Exit × Nat} (hr : r.2 ≤ buffer.length) :
    SendTrue buffer (value r, buffer.take r.2) ↔ (r.1 = .failed → r.2 = 0) := by
  rcases r with ⟨exit, n⟩
  cases exit with
  | counted =>
      refine iff_of_true (.inr ⟨n, rfl, hr, rfl⟩) ?_
      simp only [reduceCtorEq, false_implies]
  | failed =>
      -- It returns -1, which is no count.
      constructor
      · rintro (⟨_, hnil⟩ | ⟨k, hk, _⟩) _
        · rw [← List.length_eq_zero_iff, List.length_take] at hnil
          omega
        · simp only [value] at hk
          omega
      · intro h
        rw [h rfl]
        exact .inl ⟨rfl, rfl⟩

theorem receiveTrue_iff {buffer stream : List UInt8} {r : Partial.Exit × Nat}
    (hr : r.2 ≤ buffer.length) (hstream : r.2 ≤ stream.length) :
    ReceiveTrue buffer stream (receipt buffer stream r) ↔ (r.1 = .failed → r.2 = 0) := by
  have hlength : (stream.take r.2).length = r.2 := by
    rw [List.length_take, Nat.min_eq_left hstream]
  -- Only the failure exit can lose what came before it.
  rcases r with ⟨exit, n⟩
  cases exit with
  | counted =>
      refine iff_of_true (.inr ⟨n, rfl, hr, rfl, hlength, rfl⟩) ?_
      simp only [reduceCtorEq, false_implies]
  | failed =>
      constructor
      · rintro (⟨_, _, hnil⟩ | ⟨k, hk, _⟩) _
        · rw [← hlength]
          exact List.length_eq_zero_iff.mpr hnil
        · simp only [receipt, value] at hk
          omega
      · intro h
        rw [receipt, h rfl]
        exact .inl ⟨rfl, rfl, rfl⟩

theorem sendAccounted_iff (buffer : List UInt8) (f : Nat → SendOutcome) :
    SendAccounted buffer f ↔ Partial.Accounted buffer.length fun i => sendPart (f i) := by
  simp only [SendAccounted, ipUtilSendData_eq, Partial.map_first]
  refine Partial.accounted_map_iff _ (fun _ r => (value r, buffer.take r.2))
    (fun _ => SendTrue buffer) ?_
  intro N r hr
  exact sendTrue_iff (Partial.transfer_bounds _ (Nat.zero_le _) hr).2.1

theorem receiveAccounted_iff (buffer : List UInt8) (g : Nat → RecvOutcome) :
    ReceiveAccounted buffer g ↔ Partial.Accounted buffer.length fun i => recvPart (g i) := by
  simp only [ReceiveAccounted, ipUtilReceiveData_eq, Partial.map_first]
  refine Partial.accounted_map_iff _ (fun N => receipt buffer (arriving (Partial.first g N)))
    (fun N => ReceiveTrue buffer (arriving (Partial.first g N))) ?_
  intro N r hr
  have hbounds := Partial.transfer_bounds _ (Nat.zero_le _) hr
  refine receiveTrue_iff hbounds.2.1 ?_
  rw [length_arriving, Partial.map_first]
  omega

/-- `IPUtilReceiveData` returns: a call that does not end it gives a byte. -/
theorem receive_ends (length : Nat) (g : Nat → RecvOutcome) :
    Partial.Ends length fun i => recvPart (g i) := by
  refine Partial.ends_of_offers ?_
  -- A `recv` that lets the loop go on has put at least one byte into the buffer.
  intro i hgoes
  cases hg : g i with
  | got bytes =>
      rw [hg, recvPart] at hgoes
      rw [recvPart]
      split
      · rename_i hnone
        rw [if_pos hnone] at hgoes
        exact absurd hgoes Bool.false_ne_true
      · rename_i hsome
        exact Nat.one_le_iff_ne_zero.mpr hsome
  | again =>
      rw [hg] at hgoes
      exact absurd hgoes Bool.false_ne_true
  | error =>
      rw [hg] at hgoes
      exact absurd hgoes Bool.false_ne_true

/-- `IPUtilSendData` accounts for its bytes if and only if its calls come to an
    end, and no error comes behind bytes that were sent; `IPUtilReceiveData` if
    and only if no error comes behind bytes that were received. -/
theorem transfers_accounted_iff (buffer : List UInt8) (f : Nat → SendOutcome)
    (g : Nat → RecvOutcome) :
    (SendAccounted buffer f ↔
        Partial.Ends buffer.length (fun i => sendPart (f i)) ∧
          Partial.FailsAtOnce buffer.length fun i => sendPart (f i)) ∧
      (ReceiveAccounted buffer g ↔
        Partial.FailsAtOnce buffer.length fun i => recvPart (g i)) := by
  constructor
  · rw [sendAccounted_iff, Partial.accounted_iff]
  · rw [receiveAccounted_iff, Partial.accounted_iff]
    exact and_iff_right (receive_ends buffer.length g)

/-- An error behind a part of the buffer, in both directions, and a `send` that
    takes nothing for ever. -/
theorem transfers_unaccounted :
    ¬ SendAccounted [1, 2] (fun i => if i = 0 then .took 1 else .error) ∧
      ¬ ReceiveAccounted [0, 0, 0] (fun i => if i = 0 then .got [7] else .error) ∧
      ¬ SendAccounted [1] (fun _ => .took 0) := by
  refine ⟨?_, ?_, ?_⟩
  · -- One byte is sent, and -1 returned.
    rintro ⟨_, h⟩
    have hsent := h 2 (-1, [1]) (by decide)
    unfold SendTrue at hsent
    rcases hsent with ⟨_, hnil⟩ | ⟨n, hn, _⟩
    · exact absurd hnil (List.cons_ne_nil _ _)
    · simp only at hn
      omega
  · rintro ⟨_, h⟩
    have hreceived := h 2 (-1, [7, 0, 0], [7]) (by decide)
    unfold ReceiveTrue at hreceived
    rcases hreceived with ⟨_, _, hnil⟩ | ⟨n, hn, _⟩
    · exact absurd hnil (List.cons_ne_nil _ _)
    · simp only at hn
      omega
  · -- A socket that takes nothing keeps the loop going for ever.
    rw [sendAccounted_iff, Partial.accounted_iff]
    rintro ⟨hends, _⟩
    exact Partial.not_ends_of_idle Nat.one_pos (fun _ => rfl) hends

/-! ### The callers -/

/-- A buffer of one byte is received whole or not at all. -/
theorem receive_accounted_of_le_one {buffer : List UInt8} (hlength : buffer.length ≤ 1)
    (g : Nat → RecvOutcome) : ReceiveAccounted buffer g := by
  rw [receiveAccounted_iff, Partial.accounted_iff]
  exact ⟨receive_ends buffer.length g, Partial.failsAtOnce_of_le_one hlength _⟩

/-- `IPUtilSendData` returns the length if and only if it has sent the buffer:
    the caller that compares the two sees every cut. -/
theorem send_whole_iff {buffer sent : List UInt8} {outcomes : List SendOutcome} {n : Int}
    (h : ipUtilSendData buffer outcomes = some (n, sent)) :
    n = buffer.length ↔ sent = buffer := by
  rw [ipUtilSendData_eq, Option.map_eq_some_iff] at h
  rcases h with ⟨⟨exit, count⟩, hr, heq⟩
  have hbounds := Partial.transfer_bounds _ (Nat.zero_le _) hr
  rw [Prod.mk.injEq] at heq
  rw [← heq.1, ← heq.2]
  have hwhole : buffer.take count = buffer ↔ count = buffer.length := by
    rw [List.take_eq_self_iff]
    omega
  rw [hwhole]
  cases exit with
  | counted => exact Int.ofNat_inj
  | failed =>
      have hlt := Partial.lt_of_failed hr
      simp only [value]
      omega

/-- The byte of a call of `IPUtilReceiveData` for one byte, as `readPhysicalFrame`
    finds it. -/
def poll (r : Int × List UInt8 × List UInt8) : Transfer.Poll :=
  if r.1 < 1 then none else r.2.1.head?

/-- For one byte nothing is lost: the poll is what was received. -/
theorem received_eq_poll {ch : UInt8} {outcomes : List RecvOutcome}
    {r : Int × List UInt8 × List UInt8} (h : ipUtilReceiveData [ch] outcomes = some r) :
    r.2.2 = (poll r).toList := by
  rw [ipUtilReceiveData_eq, Option.map_eq_some_iff] at h
  rcases h with ⟨⟨exit, count⟩, hr, rfl⟩
  have hbounds := Partial.transfer_bounds _ (Nat.zero_le _) hr
  rw [← length_arriving, List.length_singleton] at hbounds
  -- An error comes before the byte.
  have hfailed : exit = .failed → count = 0 := by
    rintro rfl
    exact Nat.lt_one_iff.mp (Partial.lt_of_failed hr)
  rcases Nat.le_one_iff_eq_zero_or_eq_one.mp hbounds.2.1 with rfl | rfl
  · cases exit with
    | counted => rfl
    | failed => rfl
  · cases exit with
    | counted =>
        cases hstream : arriving outcomes with
        | nil =>
            simp only [hstream, List.length_nil] at hbounds
            omega
        | cons b rest => rfl
    | failed => exact absurd (hfailed rfl) Nat.one_ne_zero

/-- The return value of `IPUtilSendData`, as the senders of a connection see it. -/
def sendResult (n : Int) : Wire.SendResult := if n < 0 then .failed else .totalSent n.toNat

theorem sendResult_counted (n : Nat) : sendResult (value (.counted, n)) = .totalSent n :=
  if_neg (Int.not_lt.mpr (Int.natCast_nonneg n))

/-- The loop, as the senders of a connection run it. -/
theorem reaches_return (enc : Wire.Encoding) (op : Wire.Operation) (s : Wire.State)
    (outcomes : List SendOutcome) : ∀ {total : Nat} {r : Partial.Exit × Nat},
      Partial.transfer (enc.frame op).length total (outcomes.map sendPart) = some r →
      (Wire.machine enc).ReachesBy (fun _ a => ∃ outcome, a = .send outcome)
        (Wire.loopSending enc op total s)
        (Wire.returnSent enc op r.2 (sendResult (value r)) s) := by
  -- Induction on the outcomes, each one step of the machine.
  induction outcomes with
  | nil =>
      intro total r h
      rw [Wire.loopSending]
      by_cases hmore : total < (enc.frame op).length
      · rw [List.map_nil, Partial.transfer, if_pos hmore] at h
        simp only [reduceCtorEq] at h
      · rw [Partial.transfer_done hmore, Option.some.injEq] at h
        rw [if_neg hmore, ← h, sendResult_counted]
        exact Machine.ReachesBy.refl
  | cons outcome outcomes ih =>
      intro total r h
      rw [Wire.loopSending]
      by_cases hmore : total < (enc.frame op).length
      · rw [if_pos hmore]
        rw [List.map_cons] at h
        cases outcome with
        -- A positive outcome shortens what is left, and the loop condition is tested again.
        | took n =>
            rw [sendPart, Partial.transfer_offers hmore] at h
            refine Machine.reachesBy_head ⟨.took (min n ((enc.frame op).length - total)), rfl⟩
              ?_ (ih h)
            simp only [Wire.machine, Wire.step, Wire.send]
            rw [if_pos (by omega)]
            unfold Wire.loopSending
            split <;> rfl
        | again =>
            rw [sendPart, Partial.transfer_stops hmore, Option.some.injEq] at h
            rw [← h, sendResult_counted]
            exact Machine.reachesBy_of_step ⟨.again, rfl⟩ rfl
        | error =>
            rw [sendPart, Partial.transfer_fails hmore, Option.some.injEq] at h
            rw [← h]
            exact Machine.reachesBy_of_step ⟨.error, rfl⟩ rfl
      · rw [Partial.transfer_done hmore, Option.some.injEq] at h
        rw [if_neg hmore, ← h, sendResult_counted]
        exact Machine.ReachesBy.refl

/-- What `IPUtilSendData` returns and sends is what the senders of a connection
    come to by calls of `send`. -/
theorem reaches_of_ipUtilSendData {enc : Wire.Encoding} {op : Wire.Operation}
    {outcomes : List SendOutcome} {n : Int} {sent : List UInt8}
    (h : ipUtilSendData (enc.frame op) outcomes = some (n, sent)) (s : Wire.State) :
    (Wire.machine enc).ReachesBy (fun _ a => ∃ outcome, a = .send outcome)
      (Wire.startSending enc op s) (Wire.returnSent enc op sent.length (sendResult n) s) := by
  rw [ipUtilSendData_eq, Option.map_eq_some_iff] at h
  rcases h with ⟨r, hr, heq⟩
  have hbounds := Partial.transfer_bounds _ (Nat.zero_le _) hr
  rw [Prod.mk.injEq] at heq
  rw [← heq.1, ← heq.2, List.length_take, Nat.min_eq_left hbounds.2.1]
  exact reaches_return enc op s outcomes hr

end Socket

end EpollServer
