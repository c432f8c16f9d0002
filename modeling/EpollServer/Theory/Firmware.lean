import EpollServer.Theory.Blocks

/-!
# Streaming a Firmware File

The loop of `handleFirmwareRequest`, which sends what it reads.

The length of the file is asked for once, and the loop counts down what is
left of it. Both counters have 32 bits and no sign. A `read` that fails gives
-1, which the loop takes for `2 ^ 32 - 1` bytes, and one that gives more than
is left, because the file has grown, takes the counter below 0. In both cases
a block goes out that is not within the total length. Otherwise the loop sends
consecutive blocks of what it reads, and ends.

So the condition is on the reads that the loop gets to (`ReadsFit`): a read is
made as long as all before it gave bytes, their blocks were acknowledged, and
something is left. A file that ends early gives 0, which is within the
condition and answered with the zero response.

## Main definitions

* `readTotal`: The bytes of some reads.
* `Streaming`: A read after which the loop goes on.
* `ReadsFit`: No read the loop gets to fails or gives more than is left.
* `Streamed`: What the loop is to send.

## Theorems

* `firmwareLoop_block`, `firmwareLoop_empty`, `firmwareLoop_done`: One pass.
* `firmwareLoop_streams`: The run of the loop, if the reads fit.
* `firmwareLoop_reaches`: The block of a read the loop gets to is sent.
* `handleFirmwareRequest_run`: The loop and what follows it.
* `streamed_iff`: The loop streams the file if and only if the reads fit.
-/

namespace EpollServer

namespace Requests

open Effect (bind_ok bind_error bind_congr_run)
open Push (MqsCldFile)

variable {ν : Type} (X : Context ν)

/-- The bytes of `k` reads, from one on. -/
def readTotal : Nat → Nat → Nat
  | _, 0 => 0
  | reads, k + 1 => (readBytes (X.reads reads)).length + readTotal (reads + 1) k

/-- A read that gives bytes, and a message that is acknowledged. -/
def Streaming (reads sends : Nat) : Prop :=
  readBytes (X.reads reads) ≠ [] ∧ acknowledged X sends = true

/-- No read the loop gets to fails or gives more than is left. -/
def ReadsFit (reads sends offset total : Nat) : Prop :=
  ∀ k, (∀ i < k, Streaming X (reads + i) (sends + i)) → offset + readTotal X reads k < total →
    ∃ bytes, X.reads (reads + k) = some bytes ∧
      offset + readTotal X reads k + bytes.val.length ≤ total

/-- The blocks that were sent since `w`, from an offset on, with their outcomes:
    consecutive blocks of what was read, and either all of them were
    acknowledged and reach the total length, or something has failed. -/
structure Sends (total offset : Nat) (w t : World ν X.layout.payloadMax)
    (blocks : List (MqsCldFile X.layout.payloadMax × UInt16)) (ok : Bool) : Prop where
  messages : t.view.messages = w.view.messages ++ blocks.map fun p => (.file p.1, p.2)
  consecutive : Consecutive total offset (blocks.map Prod.fst)
  payloads : blocks.map (fun p => payload p.1) =
    (List.range' w.reads blocks.length).map fun k => readBytes (X.reads k)
  finished : ok = true →
    (∀ p ∈ blocks, p.2 ≠ 0) ∧ offset + totalOf (blocks.map Prod.fst) = total
  failed : ok = false →
    (∃ p ∈ blocks, p.2 = 0) ∨ readBytes (X.reads (w.reads + blocks.length)) = []

/-- What is to be sent for a file of this length: such blocks, and the zero
    response after a failure. -/
def Streamed (filename : List UInt8) (total : Nat) (w : World ν X.layout.payloadMax) : Prop :=
  ∃ fuel t u blocks ok, handleFirmwareRequest X fuel filename w = .ok () t ∧
    Sends X total 0 w u blocks ok ∧
    (ok = true ∧ t.view.messages = u.view.messages ∨
      ok = false ∧ ∃ n, t.view.messages = u.view.messages ++ [(.file (zeroBlock _), n)])

variable {X}

/-! ### One pass -/

theorem toNat_readSize (hX : X.Lawful)
    (bytes : {bytes : List UInt8 // bytes.length ≤ X.layout.payloadMax}) :
    (readSize (some bytes)).toNat = bytes.val.length := by
  have hframe := hX.frame_lt
  have hblock := hX.block_le
  have hbytes := bytes.property
  exact toNat_ofNat_lt (by omega)

/-- Nothing is read. -/
theorem readSize_eq_zero (hX : X.Lawful) (r : ReadResult X.layout.payloadMax) :
    readSize r = 0 ↔ ∃ bytes, r = some bytes ∧ bytes.val = [] := by
  cases r with
  | none =>
      have hnone : (0xFFFFFFFF : UInt32) ≠ 0 := by decide
      exact ⟨fun h => absurd h hnone, fun ⟨_, h, _⟩ => absurd h.symm (Option.some_ne_none _)⟩
  | some bytes =>
      have hsize := toNat_readSize hX bytes
      constructor
      · intro h
        rw [h] at hsize
        exact ⟨bytes, rfl, List.length_eq_zero_iff.mp hsize.symm⟩
      · rintro ⟨b, hb, hnil⟩
        rw [Option.some.injEq] at hb
        rw [← UInt32.toNat_inj, hsize, hb, hnil]
        rfl

/-- The block of a read. -/
def blockRead (total offset : UInt32) (r : ReadResult X.layout.payloadMax)
    (data : Vector UInt8 X.layout.payloadMax) : MqsCldFile X.layout.payloadMax :=
  { offset := offset, length := readSize r, totalLength := total,
    data := overwrite (readBytes r) data }

/-- The loop is left. -/
theorem firmwareLoop_done (total remain offset : UInt32) (ok : Bool) (fuel : Nat)
    (data : Vector UInt8 X.layout.payloadMax) (w : World ν X.layout.payloadMax)
    (h : ¬ (0 < remain ∧ ok = true)) :
    firmwareLoop X total (fuel + 1) remain offset ok data w = .ok ok w := by
  rw [firmwareLoop, if_neg h]
  rfl

/-- A pass that reads nothing. -/
theorem firmwareLoop_empty (total remain offset : UInt32) (fuel : Nat)
    (data : Vector UInt8 X.layout.payloadMax) (w : World ν X.layout.payloadMax)
    (hremain : 0 < remain) (hsize : readSize (X.reads w.reads) = 0) :
    firmwareLoop X total (fuel + 2) remain offset true data w =
      .ok false { w with reads := w.reads + 1 } := by
  have hread : read X w = .ok (X.reads w.reads) { w with reads := w.reads + 1 } := rfl
  rw [firmwareLoop, if_pos ⟨hremain, rfl⟩, bind_ok _ hread]
  simp only [hsize]
  exact firmwareLoop_done total remain offset false fuel _ _ fun h => Bool.false_ne_true h.2

/-- A pass that sends a block. -/
theorem firmwareLoop_block (total remain offset : UInt32)
    (data : Vector UInt8 X.layout.payloadMax) (w : World ν X.layout.payloadMax)
    (hremain : 0 < remain) (hsize : readSize (X.reads w.reads) ≠ 0) :
    ∃ t, (∀ fuel, firmwareLoop X total (fuel + 1) remain offset true data w =
        firmwareLoop X total fuel (remain - readSize (X.reads w.reads))
          (offset + readSize (X.reads w.reads))
          (decide (0 < dataSent X w.sends (.file (blockRead total offset (X.reads w.reads) data))))
          (overwrite (readBytes (X.reads w.reads)) data) t) ∧
      t.view = { w.view.sent (.file (blockRead total offset (X.reads w.reads) data))
        (dataSent X w.sends (.file (blockRead total offset (X.reads w.reads) data))) with
        reads := w.reads + 1 } := by
  have hread : read X w = .ok (X.reads w.reads) { w with reads := w.reads + 1 } := rfl
  have hpos : 0 < readSize (X.reads w.reads) := UInt32.pos_iff_ne_zero.mpr hsize
  rcases setEvents_view .epollOut { w with reads := w.reads + 1 } with ⟨u, hu, huview⟩
  rcases amilinkSendMessage_view (.file (blockRead total offset (X.reads w.reads) data)) u with
    ⟨v, hv, hvview⟩
  rcases setEvents_view .epollIn v with ⟨t, ht, htview⟩
  have hsends : u.sends = w.sends := congrArg View.sends huview
  rw [hsends] at hv hvview
  refine ⟨t, fun fuel => ?_, ?_⟩
  · -- A pass reads, opens the mask, sends, and closes the mask; the views are added up.
    rw [firmwareLoop, if_pos ⟨hremain, rfl⟩, bind_ok _ hread]
    simp only [hpos, if_true]
    rw [bind_ok _ hu]
    change (amilinkSendMessage X
      (.file (blockRead total offset (X.reads w.reads) data)) >>= _) u = _
    rw [bind_ok _ hv, bind_ok _ ht]
  · rw [htview, hvview, huview]
    rfl

/-! ### The whole loop -/

/-- The condition behind a pass. -/
theorem readsFit_next {reads sends offset total : Nat} (h : ReadsFit X reads sends offset total)
    (hgoes : Streaming X reads sends) :
    ReadsFit X (reads + 1) (sends + 1) (offset + (readBytes (X.reads reads)).length) total := by
  intro k hstreaming hlt
  -- Read `k` from here is read `k + 1` from the pass before.
  have hnext := h (k + 1) (fun i hi => by
    cases i with
    | zero => exact hgoes
    | succ i =>
        have hi' := hstreaming i (by omega)
        rwa [Nat.add_assoc, Nat.add_comm 1, Nat.add_assoc, Nat.add_comm 1] at hi')
    (by rw [readTotal]; omega)
  rcases hnext with ⟨bytes, hbytes, hfits⟩
  refine ⟨bytes, by rwa [Nat.add_assoc, Nat.add_comm 1], ?_⟩
  rw [readTotal] at hfits
  omega

/-- A pass that sends a block within the total length. -/
theorem firmwareLoop_fits (hX : X.Lawful) {total left offset : Nat} (htotal : total < 2 ^ 32)
    (hsum : offset + left = total) (fuel : Nat) (data : Vector UInt8 X.layout.payloadMax)
    (w : World ν X.layout.payloadMax)
    (bytes : {bytes : List UInt8 // bytes.length ≤ X.layout.payloadMax})
    (hbytes : X.reads w.reads = some bytes) (hne : bytes.val ≠ [])
    (hfits : offset + bytes.val.length ≤ total) :
    ∃ block t, payload block = bytes.val ∧ block.length.toNat = bytes.val.length ∧
      (∀ rest, Consecutive total (offset + bytes.val.length) rest →
        Consecutive total offset (block :: rest)) ∧
      t.view = { w.view.sent (.file block) (dataSent X w.sends (.file block)) with
        reads := w.reads + 1 } ∧
      firmwareLoop X (UInt32.ofNat total) (fuel + 1) (UInt32.ofNat left) (UInt32.ofNat offset) true
          data w =
        firmwareLoop X (UInt32.ofNat total) fuel (UInt32.ofNat (left - bytes.val.length))
          (UInt32.ofNat (offset + bytes.val.length))
          (decide (0 < dataSent X w.sends (.file block))) (overwrite bytes.val data) t := by
  have hlen : 0 < bytes.val.length := List.length_pos_of_ne_nil hne
  have hread : readBytes (X.reads w.reads) = bytes.val := by
    rw [hbytes]
    rfl
  have hsize : readSize (X.reads w.reads) = UInt32.ofNat bytes.val.length := by
    rw [hbytes]
    rfl
  have hsizeNat : (readSize (X.reads w.reads)).toNat = bytes.val.length := by
    rw [hbytes]
    exact toNat_readSize hX bytes
  have hremain : (0 : UInt32) < UInt32.ofNat left := ofNat_pos (by omega) (by omega)
  have hpos : readSize (X.reads w.reads) ≠ 0 := by
    intro h0
    rw [h0, UInt32.toNat_zero] at hsizeNat
    omega
  rcases firmwareLoop_block (UInt32.ofNat total) (UInt32.ofNat left) (UInt32.ofNat offset) data w
    hremain hpos with ⟨t, hrun, hview⟩
  -- No number reaches `2 ^ 32`, so that those of the block are those of the loop.
  refine ⟨_, t, ?_, hsizeNat, fun rest hrest => ?_, hview, ?_⟩
  · change (overwrite (readBytes (X.reads w.reads)) data).toList.take
      (readSize (X.reads w.reads)).toNat = _
    rw [hsizeNat, hread]
    exact take_overwrite bytes.val data bytes.property
  · have hbytesMax := bytes.property
    rw [← hsizeNat] at hlen hbytesMax hfits hrest
    exact .cons (toNat_ofNat_lt (by omega)) hlen hbytesMax
      (toNat_ofNat_lt (by omega)) hfits hrest
  · rw [hrun fuel, hread, hsize, UInt32.ofNat_sub (by omega), UInt32.ofNat_add]

/-- A block in front of those of the passes behind it. -/
theorem sends_cons {total offset : Nat} {w t u : World ν X.layout.payloadMax} {ok : Bool}
    {block : MqsCldFile X.layout.payloadMax} {n : UInt16}
    {blocks : List (MqsCldFile X.layout.payloadMax × UInt16)} (hn : n ≠ 0)
    (hview : t.view = { w.view.sent (.file block) n with reads := w.reads + 1 })
    (hpayload : payload block = readBytes (X.reads w.reads))
    (hblock : ∀ rest, Consecutive total (offset + block.length.toNat) rest →
      Consecutive total offset (block :: rest))
    (h : Sends X total (offset + block.length.toNat) t u blocks ok) :
    Sends X total offset w u ((block, n) :: blocks) ok where
  -- The blocks before it are shifted by one message and one read.
  messages := by
    rw [h.messages, hview]
    simp only [View.sent, List.map_cons, List.append_assoc, List.cons_append, List.nil_append]
  consecutive := hblock _ h.consecutive
  payloads := by
    have hreads : t.reads = w.reads + 1 := congrArg View.reads hview
    rw [List.map_cons, List.length_cons, List.range'_succ, List.map_cons, h.payloads, hreads,
      hpayload]
  finished := by
    intro hok
    rcases h.finished hok with ⟨hall, htotal⟩
    refine ⟨fun p hp => ?_, ?_⟩
    · rcases List.mem_cons.mp hp with rfl | hp
      · exact hn
      · exact hall p hp
    · rw [← htotal, List.map_cons, totalOf, List.map_cons, List.sum_cons, Nat.add_assoc]
      rfl
  failed := by
    intro hok
    rcases h.failed hok with ⟨p, hp, hzero⟩ | hnone
    · exact .inl ⟨p, List.mem_cons_of_mem _ hp, hzero⟩
    · have hreads : t.reads = w.reads + 1 := congrArg View.reads hview
      rw [hreads] at hnone
      refine .inr ?_
      rw [List.length_cons, ← Nat.add_assoc, Nat.add_right_comm]
      exact hnone

/-- Nothing is sent at the end. -/
theorem sends_nil (total : Nat) (w : World ν X.layout.payloadMax) :
    Sends X total total w w [] true :=
  ⟨(List.append_nil _).symm, .nil _, rfl,
    fun _ => ⟨fun _ hp => absurd hp List.not_mem_nil, rfl⟩, fun h => absurd h.symm (by decide)⟩

/-- Nothing is sent where the file ends. -/
theorem sends_empty (total offset : Nat) (w : World ν X.layout.payloadMax)
    (h : readBytes (X.reads w.reads) = []) :
    Sends X total offset w { w with reads := w.reads + 1 } [] false :=
  ⟨(List.append_nil _).symm, .nil _, rfl, fun hok => absurd hok (by decide), fun _ => .inr h⟩

/-- A block that is not acknowledged is the last one. -/
theorem sends_refused {total offset : Nat} {w t : World ν X.layout.payloadMax}
    {block : MqsCldFile X.layout.payloadMax}
    (hview : t.view = { w.view.sent (.file block) 0 with reads := w.reads + 1 })
    (hpayload : payload block = readBytes (X.reads w.reads))
    (hblock : Consecutive total offset [block]) : Sends X total offset w t [(block, 0)] false where
  messages := congrArg View.messages hview
  consecutive := hblock
  payloads := by
    simp only [List.map_cons, List.map_nil, List.length_cons, List.length_nil, Nat.zero_add,
      List.range'_one, hpayload]
  finished := fun hok => absurd hok (by decide)
  failed := fun _ => .inl ⟨_, List.mem_cons_self, rfl⟩

/-- The run of the loop from a state with `left` bytes to go, if the reads fit. -/
theorem firmwareLoop_streams (hX : X.Lawful) (total : Nat) (htotal : total < 2 ^ 32) :
    ∀ (left offset fuel : Nat) (data : Vector UInt8 X.layout.payloadMax)
      (w : World ν X.layout.payloadMax), offset + left = total → left + 2 ≤ fuel →
      ReadsFit X w.reads w.sends offset total →
    ∃ ok t blocks,
      firmwareLoop X (UInt32.ofNat total) fuel (UInt32.ofNat left) (UInt32.ofNat offset) true
        data w = .ok ok t ∧ Sends X total offset w t blocks ok := by
  intro left
  -- Strong induction on the bytes that are left, since a read may take any number of them.
  induction left using Nat.strong_induction_on with
  | _ left ih =>
      intro offset fuel data w hsum hfuel hfit
      rcases Nat.exists_eq_add_of_le' hfuel with ⟨extra, rfl⟩
      by_cases hleft : left = 0
      · -- Nothing is left.
        have hoffset : offset = total := by omega
        rw [hleft, hoffset]
        exact ⟨true, w, [], firmwareLoop_done _ _ _ _ _ _ _ (by decide), sends_nil total w⟩
      -- The read of this pass lies inside the file.
      rcases hfit 0 (fun i hi => absurd hi (Nat.not_lt_zero i))
        (by rw [readTotal]; omega) with ⟨bytes, hbytes, hfits⟩
      rw [Nat.add_zero] at hbytes
      rw [readTotal, Nat.add_zero] at hfits
      by_cases hempty : bytes.val = []
      · -- The file ends here.
        have hremain : (0 : UInt32) < UInt32.ofNat left := ofNat_pos (by omega) (by omega)
        refine ⟨false, { w with reads := w.reads + 1 }, [], ?_, sends_empty total offset w ?_⟩
        · exact firmwareLoop_empty _ _ _ (extra + left) data w hremain
            ((readSize_eq_zero hX _).mpr ⟨bytes, hbytes, hempty⟩)
        · rw [hbytes]
          exact hempty
      have hlen : 0 < bytes.val.length := List.length_pos_of_ne_nil hempty
      have hread : readBytes (X.reads w.reads) = bytes.val := by
        rw [hbytes]
        rfl
      rcases firmwareLoop_fits hX htotal hsum (extra + left + 1) data w bytes hbytes hempty hfits
        with ⟨block, t, hpayload, hlength, hblock, hview, hrun⟩
      rw [← hread] at hpayload
      rw [← hlength] at hblock
      by_cases hsent : dataSent X w.sends (.file block) = 0
      · -- The block is not acknowledged.
        rw [hsent] at hview
        refine ⟨false, t, [(block, 0)], ?_, sends_refused hview hpayload (hblock [] (.nil _))⟩
        change firmwareLoop X (UInt32.ofNat total) (extra + left + 1 + 1) (UInt32.ofNat left)
          (UInt32.ofNat offset) true data w = _
        rw [hrun, hsent]
        exact firmwareLoop_done _ _ _ false _ _ t fun h => Bool.false_ne_true h.2
      · -- The loop goes on behind the block.
        have hack : acknowledged X w.sends = true := (dataSent_ne_zero hX w.sends block
          (.inl (by rw [hlength]; exact bytes.property))).mp hsent
        have hnext := readsFit_next hfit ⟨by rw [hread]; exact hempty, hack⟩
        have hreads : t.reads = w.reads + 1 := congrArg View.reads hview
        have hsends : t.sends = w.sends + 1 := congrArg View.sends hview
        rw [hread, ← hreads, ← hsends] at hnext
        rcases ih (left - bytes.val.length) (by omega) (offset + bytes.val.length)
          (extra + left + 1) (overwrite bytes.val data) t (by omega) (by omega) hnext with
          ⟨ok, u, rest, hloop, hrest⟩
        rw [← hlength] at hrest
        refine ⟨ok, u, (block, _) :: rest, ?_, sends_cons hsent hview hpayload hblock hrest⟩
        have hok : decide (0 < dataSent X w.sends (.file block)) = true :=
          decide_eq_true (UInt16.pos_iff_ne_zero.mpr hsent)
        change firmwareLoop X (UInt32.ofNat total) (extra + left + 1 + 1) (UInt32.ofNat left)
          (UInt32.ofNat offset) true data w = _
        rw [hrun, hok]
        exact hloop

/-- The loop adds messages. -/
theorem firmwareLoop_messages (total : UInt32) : ∀ (fuel : Nat) (remain offset : UInt32) (ok : Bool)
    (data : Vector UInt8 X.layout.payloadMax) (w t : World ν X.layout.payloadMax) (ok' : Bool),
    firmwareLoop X total fuel remain offset ok data w = .ok ok' t →
      ∃ M, t.view.messages = w.view.messages ++ M := by
  intro fuel
  induction fuel with
  | zero =>
      intro remain offset ok data w t ok' h
      cases h
  | succ fuel ih =>
      intro remain offset ok data w t ok' h
      by_cases hgoes : 0 < remain ∧ ok = true
      · -- The loop goes on, with or without a block.
        rcases hgoes with ⟨hremain, rfl⟩
        by_cases hsize : readSize (X.reads w.reads) = 0
        · have hread : read X w = .ok (X.reads w.reads) { w with reads := w.reads + 1 } := rfl
          rw [firmwareLoop, if_pos ⟨hremain, rfl⟩, bind_ok _ hread] at h
          simp only [hsize] at h
          rcases ih _ _ _ _ _ _ _ h with ⟨M, hM⟩
          exact ⟨M, hM⟩
        · rcases firmwareLoop_block total remain offset data w hremain hsize with ⟨u, hrun, hview⟩
          rw [hrun fuel] at h
          rcases ih _ _ _ _ _ _ _ h with ⟨M, hM⟩
          rw [hview] at hM
          exact ⟨_, by rw [hM]; exact List.append_assoc _ _ _⟩
      · rw [firmwareLoop_done total remain offset ok fuel data w hgoes] at h
        cases h
        exact ⟨[], (List.append_nil _).symm⟩

/-- The block of a read the loop gets to is sent, whatever was read. -/
theorem firmwareLoop_reaches (hX : X.Lawful) (total : Nat) (htotal : total < 2 ^ 32) :
    ∀ (k left offset fuel : Nat) (data : Vector UInt8 X.layout.payloadMax)
      (w t : World ν X.layout.payloadMax) (ok : Bool), offset + left = total →
      offset + readTotal X w.reads k < total →
      (∀ i < k, Streaming X (w.reads + i) (w.sends + i)) →
      readSize (X.reads (w.reads + k)) ≠ 0 →
      firmwareLoop X (UInt32.ofNat total) fuel (UInt32.ofNat left) (UInt32.ofNat offset) true
        data w = .ok ok t →
    ∃ M block n, t.view.messages = w.view.messages ++ M ∧ (.file block, n) ∈ M ∧
      block.offset.toNat = offset + readTotal X w.reads k ∧
      block.length = readSize (X.reads (w.reads + k)) := by
  intro k
  induction k with
  | zero =>
      -- The read is that of the next pass.
      intro left offset fuel data w t ok hsum hlt _ hsize hrun
      rw [readTotal, Nat.add_zero] at hlt
      rw [Nat.add_zero] at hsize
      have hremain : (0 : UInt32) < UInt32.ofNat left := ofNat_pos (by omega) (by omega)
      cases fuel with
      | zero => cases hrun
      | succ fuel =>
          rcases firmwareLoop_block (UInt32.ofNat total) (UInt32.ofNat left) (UInt32.ofNat offset)
            data w hremain hsize with ⟨u, hu, hview⟩
          rw [hu fuel] at hrun
          rcases firmwareLoop_messages _ _ _ _ _ _ _ _ _ hrun with ⟨M, hM⟩
          rw [hview] at hM
          refine ⟨_, _, _, by rw [hM]; exact List.append_assoc _ _ _, List.mem_cons_self, ?_, ?_⟩
          · rw [readTotal, Nat.add_zero]
            exact toNat_ofNat_lt (by omega)
          · rw [Nat.add_zero]
            rfl
  | succ k ih =>
      -- The next pass sends a block that fits, and the read is behind it.
      intro left offset fuel data w t ok hsum hlt hstreaming hsize hrun
      have hfirst := hstreaming 0 (Nat.succ_pos k)
      rw [Nat.add_zero, Nat.add_zero] at hfirst
      rw [readTotal] at hlt
      cases hbytes : X.reads w.reads with
      | none => exact absurd (by rw [hbytes]; rfl) hfirst.1
      | some bytes =>
          have hread : readBytes (X.reads w.reads) = bytes.val := by
            rw [hbytes]
            rfl
          rw [hread] at hlt
          have hne : bytes.val ≠ [] := by
            rw [← hread]
            exact hfirst.1
          cases fuel with
          | zero => cases hrun
          | succ fuel =>
              rcases firmwareLoop_fits hX htotal hsum fuel data w bytes hbytes hne (by omega) with
                ⟨block, u, _, hlength, _, hview, hu⟩
              have hsent : dataSent X w.sends (.file block) ≠ 0 :=
                (dataSent_ne_zero hX w.sends block
                  (.inl (by rw [hlength]; exact bytes.property))).mpr hfirst.2
              rw [hu, decide_eq_true (UInt16.pos_iff_ne_zero.mpr hsent)] at hrun
              have hreads : u.reads = w.reads + 1 := congrArg View.reads hview
              have hsends : u.sends = w.sends + 1 := congrArg View.sends hview
              have hcount : ∀ a i : Nat, a + 1 + i = a + (i + 1) := fun a i => by omega
              rcases ih (left - bytes.val.length) (offset + bytes.val.length) fuel _ u t ok
                (by omega) (by rw [hreads]; omega)
                (fun i hi => by
                  rw [hreads, hsends, hcount, hcount]
                  exact hstreaming (i + 1) (by omega))
                (by rw [hreads, hcount]; exact hsize) hrun with
                ⟨M, last, n, hM, hmem, hoffset, hlast⟩
              rw [hreads] at hoffset hlast
              rw [hview] at hM
              refine ⟨_, last, n, by rw [hM]; exact List.append_assoc _ _ _,
                List.mem_cons_of_mem _ hmem, ?_, by rw [hlast, hcount]⟩
              rw [hoffset, readTotal, hread, Nat.add_assoc]

/-! ### The request -/

/-- A file that can be opened and is of this length. -/
structure Opened (X : Context ν) (filename : List UInt8) (total : Nat)
    (w : World ν X.layout.payloadMax) : Prop where
  openable : X.openable (Library.path filename) = true
  length : (X.seeks w.seeks).bmod (2 ^ 32) = total
  seekable : 0 ≤ (X.seeks (w.seeks + 1)).bmod (2 ^ 32)

theorem Opened.lt {filename : List UInt8} {total : Nat} {w : World ν X.layout.payloadMax}
    (h : Opened X filename total w) : total < 2 ^ 31 := by
  have hlt := Int.bmod_lt (x := X.seeks w.seeks) (m := 2 ^ 32) (by decide)
  rw [h.length] at hlt
  omega

theorem ofInt_natCast (n : Nat) : UInt32.ofInt (n : Int) = UInt32.ofNat n := by
  refine UInt32.toNat_inj.mp ?_
  unfold UInt32.ofInt
  rw [UInt32.toNat_ofNat', UInt32.toNat_ofNat']
  omega

/-- What follows the loop. -/
def afterLoop (ok : Bool) : X.M Unit := if ok then pure () else fileErrorResponse X

/-- A request for such a file is the loop and what follows it. -/
theorem handleFirmwareRequest_run {filename : List UInt8} {total : Nat}
    {w : World ν X.layout.payloadMax} (h : Opened X filename total w) (fuel : Nat) :
    handleFirmwareRequest X fuel filename w =
      (firmwareLoop X (UInt32.ofNat total) fuel (UInt32.ofNat total) (UInt32.ofNat 0) true
        (Vector.replicate _ 0) >>= afterLoop) { w with seeks := w.seeks + 2 } := by
  have hfirst : lseek X w = .ok (total : Int) { w with seeks := w.seeks + 1 } := by
    rw [← h.length]
    rfl
  have hsecond : lseek X { w with seeks := w.seeks + 1 } =
    .ok ((X.seeks (w.seeks + 1)).bmod (2 ^ 32)) { w with seeks := w.seeks + 2 } := rfl
  have hsend : sendFirmware X fuel filename w =
      firmwareLoop X (UInt32.ofNat total) fuel (UInt32.ofNat total) (UInt32.ofNat 0) true
        (Vector.replicate _ 0) { w with seeks := w.seeks + 2 } := by
    rw [sendFirmware, if_pos h.openable, bind_ok _ hfirst, if_neg (by omega), bind_ok _ hsecond,
      if_neg (not_lt.mpr h.seekable), ofInt_natCast]
    rfl
  exact bind_congr_run afterLoop hsend

/-- The zero response follows a loop that is left without `ok`. -/
theorem afterLoop_view (ok : Bool) (u : World ν X.layout.payloadMax) :
    ∃ t, afterLoop ok u = .ok () t ∧
      (ok = true ∧ t.view.messages = u.view.messages ∨
        ok = false ∧ ∃ n, t.view.messages = u.view.messages ++ [(.file (zeroBlock _), n)]) := by
  cases ok with
  | true => exact ⟨u, rfl, .inl ⟨rfl, rfl⟩⟩
  | false =>
      rcases fileErrorResponse_view u with ⟨t, ht, hview⟩
      exact ⟨t, ht, .inr ⟨rfl, _, by rw [hview]; rfl⟩⟩

/-- Of what is sent for a file every block is within the total length. -/
theorem within_of_streamed {filename : List UInt8} {total : Nat} {w : World ν X.layout.payloadMax}
    (h : Streamed X filename total w) :
    ∃ fuel t M, handleFirmwareRequest X fuel filename w = .ok () t ∧
      t.view.messages = w.view.messages ++ M ∧
      ∀ block n, (.file block, n) ∈ M → block.offset.toNat + block.length.toNat ≤ total := by
  rcases h with ⟨fuel, t, u, blocks, ok, hrun, hsends, hend⟩
  have hwithin := within_of_consecutive hsends.consecutive
  -- Every block lies in front of the end, since the blocks follow each other up to it.
  have hblocks : ∀ block n, ((.file block, n) : Response X.layout.payloadMax × UInt16) ∈
      blocks.map (fun p => (.file p.1, p.2)) → block.offset.toNat + block.length.toNat ≤ total := by
    intro block n hmem
    rcases List.mem_map.mp hmem with ⟨p, hp, heq⟩
    rw [Prod.mk.injEq, Response.file.injEq] at heq
    rw [← heq.1]
    exact hwithin p.1 (List.mem_map.mpr ⟨p, hp, rfl⟩)
  rcases hend with ⟨_, hmessages⟩ | ⟨_, n, hmessages⟩
  · exact ⟨fuel, t, _, hrun, by rw [hmessages, hsends.messages], hblocks⟩
  · refine ⟨fuel, t, _, hrun, by rw [hmessages, hsends.messages, List.append_assoc],
      fun block m hmem => ?_⟩
    rcases List.mem_append.mp hmem with hmem | hmem
    · exact hblocks block m hmem
    · rw [List.mem_singleton, Prod.mk.injEq, Response.file.injEq] at hmem
      rw [hmem.1]
      exact Nat.zero_le total

/-- The reads fit if the file is streamed: otherwise a block is beyond the total
    length. -/
theorem readsFit_of_streamed (hX : X.Lawful) {filename : List UInt8} {total : Nat}
    {w : World ν X.layout.payloadMax} (h : Opened X filename total w)
    (hstreamed : Streamed X filename total w) : ReadsFit X w.reads w.sends 0 total := by
  have htotal := h.lt
  intro k hstreaming hlt
  rcases within_of_streamed hstreamed with ⟨fuel, t, M, hrun, hM, hwithin⟩
  rw [handleFirmwareRequest_run h] at hrun
  -- A read that gives nothing is within the condition. Any other sends a block.
  by_cases hsize : readSize (X.reads (w.reads + k)) = 0
  · rcases (readSize_eq_zero hX _).mp hsize with ⟨bytes, hbytes, hnil⟩
    refine ⟨bytes, hbytes, ?_⟩
    rw [hnil, List.length_nil]
    omega
  cases hloop : firmwareLoop X (UInt32.ofNat total) fuel (UInt32.ofNat total) (UInt32.ofNat 0) true
      (Vector.replicate _ 0) { w with seeks := w.seeks + 2 } with
  | error e u =>
      rw [bind_error _ hloop] at hrun
      cases hrun
  | ok ok u =>
      rw [bind_ok _ hloop] at hrun
      rcases firmwareLoop_reaches hX total (by omega) k total 0 fuel _
        { w with seeks := w.seeks + 2 } u ok (Nat.zero_add _) hlt hstreaming hsize hloop with
        ⟨M', block, n, hM', hmem, hoffset, hlength⟩
      -- The block is one of those the run has left.
      have hin : (.file block, n) ∈ M := by
        rcases afterLoop_view ok u with ⟨t', ht', hend⟩
        rw [ht'] at hrun
        cases hrun
        have hprefix : ∃ tail, t.view.messages = u.view.messages ++ tail := by
          rcases hend with ⟨_, heq⟩ | ⟨_, m, heq⟩
          · exact ⟨[], by rw [heq, List.append_nil]⟩
          · exact ⟨_, heq⟩
        rcases hprefix with ⟨tail, htail⟩
        rw [hM, hM', List.append_assoc] at htail
        rw [List.append_cancel_left htail]
        exact List.mem_append_left _ hmem
      -- It is within the total length, and so was the read.
      have hfits := hwithin block n hin
      rw [hoffset, hlength] at hfits
      change 0 + readTotal X w.reads k + (readSize (X.reads (w.reads + k))).toNat ≤ total at hfits
      cases hbytes : X.reads (w.reads + k) with
      | none =>
          rw [hbytes] at hfits
          change _ + (2 ^ 32 - 1) ≤ total at hfits
          omega
      | some bytes =>
          rw [hbytes, toNat_readSize hX] at hfits
          exact ⟨bytes, rfl, hfits⟩

/-- The file is streamed if the reads fit. -/
theorem streamed_of_readsFit (hX : X.Lawful) {filename : List UInt8} {total : Nat}
    {w : World ν X.layout.payloadMax} (h : Opened X filename total w)
    (hfit : ReadsFit X w.reads w.sends 0 total) : Streamed X filename total w := by
  have htotal := h.lt
  rcases firmwareLoop_streams hX total (by omega) total 0 (total + 2) (Vector.replicate _ 0)
    { w with seeks := w.seeks + 2 } (Nat.zero_add _) (le_refl _) hfit with
    ⟨ok, u, blocks, hloop, hsends⟩
  rcases afterLoop_view ok u with ⟨t, ht, hend⟩
  refine ⟨total + 2, t, u, blocks, ok, ?_,
    ⟨hsends.messages, hsends.consecutive, hsends.payloads, hsends.finished, hsends.failed⟩, hend⟩
  rw [handleFirmwareRequest_run h, bind_ok _ hloop]
  exact ht

/-- A firmware file is streamed if and only if no read the loop gets to fails or
    gives more than is left. -/
theorem streamed_iff (hX : X.Lawful) (filename : List UInt8) (total : Nat)
    (w : World ν X.layout.payloadMax) (h : Opened X filename total w) :
    Streamed X filename total w ↔ ReadsFit X w.reads w.sends 0 total :=
  ⟨readsFit_of_streamed hX h, streamed_of_readsFit hX h⟩

/-- A server with a file of three bytes, of which a `read` gives this. -/
def fileServer (result : ReadResult quietServer.layout.payloadMax) : Context UInt32 :=
  { quietServer with openable := fun _ => true, seeks := fun _ => 3, reads := fun _ => result }

theorem fileServer_lawful (result : ReadResult quietServer.layout.payloadMax) :
    (fileServer result).Lawful :=
  ⟨quietServer_lawful.1, quietServer_lawful.2, quietServer_lawful.3, quietServer_lawful.4,
    quietServer_lawful.5⟩

theorem fileServer_opened (result : ReadResult quietServer.layout.payloadMax)
    (filename : List UInt8) : Opened (fileServer result) filename 3 (openedWorld _) :=
  ⟨rfl, rfl, show (0 : Int) ≤ (3 : Int).bmod (2 ^ 32) by decide⟩

/-- A file that is read at once. -/
theorem streamed_three :
    Streamed (fileServer (some ⟨[1, 2, 3], by decide⟩)) (bytesOf "a.dfu") 3 (openedWorld _) := by
  refine (streamed_iff (fileServer_lawful _) _ 3 _ (fileServer_opened _ _)).mpr ?_
  intro k _ hlt
  cases k with
  | zero => exact ⟨⟨[1, 2, 3], by decide⟩, rfl, by decide⟩
  | succ k =>
      rw [readTotal] at hlt
      change 0 + (3 + _) < 3 at hlt
      omega

/-- A file that cannot be read. -/
theorem unreadable_not_streamed :
    ¬ Streamed (fileServer none) (bytesOf "a.dfu") 3 (openedWorld _) := by
  intro hstreamed
  have hfit := readsFit_of_streamed (fileServer_lawful _) (fileServer_opened _ _) hstreamed
  rcases hfit 0 (fun i hi => absurd hi (Nat.not_lt_zero i)) (by decide) with ⟨bytes, hbytes, _⟩
  exact absurd hbytes.symm (Option.some_ne_none bytes)

end Requests

end EpollServer
