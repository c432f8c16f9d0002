import EpollServer.Theory.Assembly.Buffer

/-!
# The Header of a Transfer

When the data counts used at the end of a transfer agree with the buffer.

The counts are checked once, on the block at offset 0, and used at the end, as
they stand in the buffer then. Two things can come between. The check is made
modulo 2^32, so counts too large for any buffer can pass it. And a later block
may be copied over the bytes of the counts.

Both can be seen from the blocks. Counts whose size is below 2^32 are what the
check takes them for, and a later block leaves them alone if it covers none of
their bytes, or carries there what is in the buffer already (`CountsKept`). In
a run of such blocks the size of the buffer is always the one the counts in it
ask for (`Fits`). Outside of it the very next block breaks this: a first block
can be completed by an empty one at the end of the buffer, with counts that do
not fit, and a later block has put other counts in the place of those that
were checked.

What the code assumes about the structures of `mqs.h` is in `Layout.Lawful`:
they are not empty, and the counts lie in the header. Which of its bytes they
are is `Layout.CountsAt`.

## Main definitions

* `Layout.Lawful`: What holds of the structures of `mqs.h`.
* `Layout.CountsAt`: The bytes of the data counts.
* `requiredLength`: The bytes a raw data set takes by its counts.
* `Consistent`: The data points of a set lie in the buffer.
* `Accepted`: The blocks the check accepts, by their fields.
* `CountsKept`: The guard of the runs whose transfers are consistent.
* `Fits`, `Roomy`: The size is that of the counts, and the header fits it.

## Theorems

* `declaredLength_toNat`: Without a wrap, a first block declares what it needs.
* `accepted_iff`: The check accepts these blocks.
* `consistent_iff`: Consistency is a bound on the required length.
* `counts_splice`: When a copy leaves the counts as they are.
* `fits_receive`: A block that meets the guard keeps the counts fitting.
* `committed_consistent`: The runs whose transfers are consistent.
* `header_overwritten`: A second block that rewrites the counts.
-/

namespace EpollServer

namespace Push

open Splice

variable {ν : Type}

/-- What holds of the structures of `mqs.h`: no structure is empty, and the
    data counts are read from the header. -/
structure Layout.Lawful (L : Layout ν) : Prop where
  sizeofRawDataSet_pos : 0 < L.sizeofRawDataSet
  sizeofRawDataPoint_pos : 0 < L.sizeofRawDataPoint
  header : ∀ m m' : List UInt8, m.take L.sizeofRawDataSet = m'.take L.sizeofRawDataSet →
    (L.rawDataSet m).base.dataCount = (L.rawDataSet m').base.dataCount ∧
      (L.rawDataSet m).afterExposure.dataCount = (L.rawDataSet m').afterExposure.dataCount

/-- The bytes a raw data set takes by its counts. -/
def requiredLength (L : Layout ν) (D : RawDataSet ν) : Nat :=
  L.sizeofRawDataSet +
    (D.base.dataCount.toNat + D.afterExposure.dataCount.toNat) * L.sizeofRawDataPoint

/-- The data points of both sweeps lie within `n` bytes. -/
def Consistent (L : Layout ν) (D : RawDataSet ν) (n : Nat) : Prop :=
  ∀ k, k < D.base.dataCount.toNat ∨
      (D.base.dataCount.toNat ≤ k ∧
        k < D.base.dataCount.toNat + D.afterExposure.dataCount.toNat) →
    L.sizeofRawDataSet + (k + 1) * L.sizeofRawDataPoint ≤ n

/-- The raw data set in the buffer is consistent with the recorded size. -/
def ConsistentBuffer (L : Layout ν) (u : Session ν) : Prop :=
  Consistent L (L.rawDataSet (u.rawDataSetAssemblyBuffer.getD [])) u.maxAssemblyLength.toNat

/-- The two data counts of a raw data set in memory. -/
def dataCounts (L : Layout ν) (memory : List UInt8) : UInt32 × UInt32 :=
  ((L.rawDataSet memory).base.dataCount, (L.rawDataSet memory).afterExposure.dataCount)

/-- The bytes of the header at `fields` are those of the data counts. -/
structure Layout.CountsAt (L : Layout ν) (fields : List Nat) : Prop where
  header : ∀ i ∈ fields, i < L.sizeofRawDataSet
  bytes : ∀ m m' : List UInt8, L.sizeofRawDataSet ≤ m.length → m.length = m'.length →
    ((∀ i ∈ fields, m.getD i 0 = m'.getD i 0) ↔ dataCounts L m = dataCounts L m')

/-- The fields of a block that is accepted: its end is not behind the total
    length, in 32 bits, which is the declared one for a first block, and for a
    later one that of the transfer. -/
def Accepted (L : Layout ν) (s : Session ν) (block : MqsCldFile L.payloadMax) : Prop :=
  block.offset + block.length ≤ block.totalLength ∧
    (block.offset = 0 → L.sizeofRawDataSet ≤ block.length.toNat ∧
      block.totalLength = declaredLength L block) ∧
    (block.offset ≠ 0 → block.totalLength = s.maxAssemblyLength)

/-- If the block is accepted: at offset 0, its counts need less than 2^32
    bytes; elsewhere, it carries for every byte of the counts that it covers the
    one that is in the buffer. -/
def CountsKept (L : Layout ν) (fields : List Nat) (s : Session ν) : Request L → Prop
  | .rawDataPush block =>
      Accepted L s block →
        (block.offset = 0 → requiredLength L (L.rawDataSet block.data.toList) < 2 ^ 32) ∧
          (block.offset ≠ 0 → ∀ i ∈ fields, block.offset.toNat ≤ i →
            i < block.offset.toNat + block.length.toNat →
            block.data.toList.getD (i - block.offset.toNat) 0 =
              (s.rawDataSetAssemblyBuffer.getD []).getD i 0)
  | _ => True

/-- The counts in the buffer are those its size was computed from. -/
def Fits (L : Layout ν) (s : Session ν) : Prop :=
  ∀ buffer, s.rawDataSetAssemblyBuffer = some buffer →
    requiredLength L (L.rawDataSet buffer) = s.maxAssemblyLength.toNat

/-- The header fits the recorded size. -/
def Roomy (L : Layout ν) (s : Session ν) : Prop :=
  ∀ buffer, s.rawDataSetAssemblyBuffer = some buffer →
    L.sizeofRawDataSet ≤ s.maxAssemblyLength.toNat

/-- What the check accepts can be read off the fields. -/
theorem accepted_iff (L : Layout ν) (env : Environment) (s : Session ν)
    (block : MqsCldFile L.payloadMax) :
    (∃ t, checkAssemblyBuffer L env block s = .ok true t) ↔ Accepted L s block := by
  constructor
  · rintro ⟨t, h⟩
    rcases checkAssemblyBuffer_accepts L env block s t h with
      ⟨hzero, hlong, hle, hdecl, _⟩ | ⟨hne, hsum, hmax, _⟩
    · refine ⟨?_, fun _ => ⟨hlong, hdecl⟩, fun hne => absurd hzero hne⟩
      rw [hzero, UInt32.zero_add]
      exact hle
    · exact ⟨hsum, fun hzero => absurd hzero hne, fun _ => hmax⟩
  · rintro ⟨hsum, hfirst, hlater⟩
    rw [checkAssemblyBuffer_eq, if_pos hsum]
    by_cases hzero : block.offset = 0
    · rw [if_pos hzero, if_pos (hfirst hzero)]
      exact ⟨_, rfl⟩
    · rw [if_neg hzero, decide_eq_true (hlater hzero)]
      exact ⟨_, rfl⟩

/-! ### Lengths -/

/-- Sets with the same header need the same length. -/
theorem requiredLength_congr (L : Layout ν) (hL : L.Lawful) (m m' : List UInt8)
    (h : m.take L.sizeofRawDataSet = m'.take L.sizeofRawDataSet) :
    requiredLength L (L.rawDataSet m) = requiredLength L (L.rawDataSet m') := by
  rcases hL.header m m' h with ⟨hbase, hafter⟩
  rw [requiredLength, requiredLength, hbase, hafter]

theorem requiredLength_of_dataCounts (L : Layout ν) (m m' : List UInt8)
    (h : dataCounts L m = dataCounts L m') :
    requiredLength L (L.rawDataSet m) = requiredLength L (L.rawDataSet m') := by
  rcases Prod.mk.inj h with ⟨hbase, hafter⟩
  rw [requiredLength, requiredLength, hbase, hafter]

/-- Without a wrap, a first block declares what it needs. -/
theorem declaredLength_toNat (L : Layout ν) (hL : L.Lawful) (block : MqsCldFile L.payloadMax)
    (h : requiredLength L (L.rawDataSet block.data.toList) < 2 ^ 32) :
    (declaredLength L block).toNat = requiredLength L (L.rawDataSet block.data.toList) := by
  unfold requiredLength at h ⊢
  -- A product below 2^32 keeps the sum of the counts below it.
  have hcounts := Nat.le_mul_of_pos_right
    ((L.rawDataSet block.data.toList).base.dataCount.toNat +
      (L.rawDataSet block.data.toList).afterExposure.dataCount.toNat) hL.sizeofRawDataPoint_pos
  have hsum : ((L.rawDataSet block.data.toList).base.dataCount +
      (L.rawDataSet block.data.toList).afterExposure.dataCount).toNat =
      (L.rawDataSet block.data.toList).base.dataCount.toNat +
        (L.rawDataSet block.data.toList).afterExposure.dataCount.toNat := by
    rw [UInt32.toNat_add]
    exact Nat.mod_eq_of_lt (by omega)
  rw [declaredLength, hsum, UInt32.toNat_ofNat']
  exact Nat.mod_eq_of_lt h

/-- With room for the header, consistency is a bound on the required
    length. -/
theorem consistent_iff (L : Layout ν) (D : RawDataSet ν) (n : Nat)
    (hroom : L.sizeofRawDataSet ≤ n) : Consistent L D n ↔ requiredLength L D ≤ n := by
  unfold Consistent requiredLength
  constructor
  · intro h
    by_cases hcount : D.base.dataCount.toNat + D.afterExposure.dataCount.toNat = 0
    · rw [hcount, Nat.zero_mul]
      exact hroom
    · -- The last point ends where the set does.
      have hlast := h (D.base.dataCount.toNat + D.afterExposure.dataCount.toNat - 1) (by omega)
      rw [Nat.sub_add_cancel (by omega)] at hlast
      exact hlast
  · intro h k hk
    have hle : k + 1 ≤ D.base.dataCount.toNat + D.afterExposure.dataCount.toNat := by omega
    have hmul := Nat.mul_le_mul_right L.sizeofRawDataPoint hle
    omega

/-- The header of a first block is the one in the buffer afterwards. -/
theorem header_of_first (L : Layout ν) (block : MqsCldFile L.payloadMax) (buffer : List UInt8)
    (hzero : block.offset = 0) (hlong : L.sizeofRawDataSet ≤ block.length.toNat)
    (hpayload : block.length.toNat ≤ L.payloadMax) :
    (splice buffer block.payload block.offset.toNat).take L.sizeofRawDataSet =
      block.data.toList.take L.sizeofRawDataSet := by
  have hoff : block.offset.toNat = 0 := by rw [hzero]; rfl
  have hlen := length_payload block hpayload
  rw [hoff, splice, List.take_zero, List.nil_append,
    List.take_append_of_le_length (by rw [hlen]; exact hlong), MqsCldFile.payload, List.take_take,
    Nat.min_eq_left hlong]

/-- A copy leaves the counts as they are exactly if it carries for each of their
    bytes the one that is there. -/
theorem counts_splice (L : Layout ν) (fields : List Nat) (hfields : L.CountsAt fields)
    (block : MqsCldFile L.payloadMax) (buffer : List UInt8)
    (hroom : L.sizeofRawDataSet ≤ buffer.length)
    (hin : block.offset.toNat + block.length.toNat ≤ buffer.length)
    (hpayload : block.length.toNat ≤ L.payloadMax) :
    dataCounts L (splice buffer block.payload block.offset.toNat) = dataCounts L buffer ↔
      ∀ i ∈ fields, block.offset.toNat ≤ i → i < block.offset.toNat + block.length.toNat →
        block.data.toList.getD (i - block.offset.toNat) 0 = buffer.getD i 0 := by
  have hlen := length_payload block hpayload
  have hfits : block.offset.toNat + block.payload.length ≤ buffer.length := by rw [hlen]; exact hin
  -- The counts are the same exactly when the bytes they are read from are.
  have hbytes := hfields.bytes (splice buffer block.payload block.offset.toNat) buffer
    (by rw [length_splice _ _ _ hfits]; exact hroom) (length_splice _ _ _ hfits)
  rw [← hbytes]
  refine forall₂_congr (fun i hi => ?_)
  rw [List.getD_eq_getElem?_getD, getElem?_splice _ _ _ _ hfits, hlen]
  by_cases hcover : block.offset.toNat ≤ i ∧ i < block.offset.toNat + block.length.toNat
  · rw [if_pos hcover, MqsCldFile.payload, List.getElem?_take_of_lt (by omega),
      ← List.getD_eq_getElem?_getD]
    exact ⟨fun h _ _ => h, fun h => h hcover.1 hcover.2⟩
  · -- The byte is not covered.
    rw [if_neg hcover, ← List.getD_eq_getElem?_getD]
    exact iff_of_true rfl (fun hlow hhigh => absurd ⟨hlow, hhigh⟩ hcover)

/-! ### Runs -/

theorem roomy_receive (L : Layout ν) (env : Environment) (s u : Session ν)
    (block : MqsCldFile L.payloadMax) (complete : Bool) (hs : Roomy L s)
    (h : receiveBlock L env block s = .ok complete u) : Roomy L u := by
  rcases receiveBlock_ok L env block s u complete h with ⟨_, rfl, _⟩ | ⟨t, hcheck, hcopy, _⟩
  · exact hs
  · rcases (copyBlock_ok L block t u).mp hcopy with ⟨buffer, hbuffer, _, _, rfl⟩
    intro _ _
    rcases checkAssemblyBuffer_accepts L env block s t hcheck with
      ⟨_, hlong, hlen, _, rfl⟩ | ⟨_, _, _, rfl⟩
    · exact Nat.le_trans hlong (UInt32.le_iff_toNat_le.mp hlen)
    · exact hs buffer hbuffer

/-- The length required by the header of a first block, and what any other block
    that is copied was copied to. -/
theorem required_of_receive (L : Layout ν) (hL : L.Lawful) (env : Environment) (s t u : Session ν)
    (block : MqsCldFile L.payloadMax) (hcheck : checkAssemblyBuffer L env block s = .ok true t)
    (hcopy : copyBlock L block t = .ok () u) :
    (block.offset = 0 ∧ requiredLength L (L.rawDataSet (u.rawDataSetAssemblyBuffer.getD [])) =
        requiredLength L (L.rawDataSet block.data.toList) ∧
      u.maxAssemblyLength = declaredLength L block) ∨
    (block.offset ≠ 0 ∧ ∃ buffer, s.rawDataSetAssemblyBuffer = some buffer ∧
      block.offset.toNat + block.length.toNat ≤ buffer.length ∧
      block.length.toNat ≤ L.payloadMax ∧
      u.rawDataSetAssemblyBuffer = some (splice buffer block.payload block.offset.toNat) ∧
      u.maxAssemblyLength = s.maxAssemblyLength) := by
  rcases (copyBlock_ok L block t u).mp hcopy with ⟨buffer, hbuffer, hin, hpayload, rfl⟩
  rcases checkAssemblyBuffer_accepts L env block s t hcheck with
    ⟨hzero, hlong, _, hdecl, rfl⟩ | ⟨hne, _, _, rfl⟩
  · -- The first block brings the counts with it; a later one is laid over what was there.
    refine Or.inl ⟨hzero, ?_, hdecl⟩
    exact requiredLength_congr L hL _ _
      (header_of_first L block buffer hzero hlong hpayload)
  · exact Or.inr ⟨hne, buffer, hbuffer, hin, hpayload, rfl, rfl⟩

/-- A block that meets the guard keeps the counts fitting. -/
theorem fits_receive (L : Layout ν) (hL : L.Lawful) (fields : List Nat)
    (hfields : L.CountsAt fields) (env : Environment) (s u : Session ν)
    (block : MqsCldFile L.payloadMax) (complete : Bool) (hsized : Sized s)
    (hs : Fits L s ∧ Roomy L s) (hguard : CountsKept L fields s (.rawDataPush block))
    (h : receiveBlock L env block s = .ok complete u) : Fits L u := by
  rcases receiveBlock_ok L env block s u complete h with ⟨_, rfl, _⟩ | ⟨t, hcheck, hcopy, _⟩
  · exact hs.1
  · rcases hguard ((accepted_iff L env s block).mp ⟨t, hcheck⟩) with ⟨hfirst, hlater⟩
    intro buffer hbuffer
    rcases required_of_receive L hL env s t u block hcheck hcopy with
      ⟨hzero, hreq, hmax⟩ | ⟨hne, old, hold, hin, hpayload, hnew, hmax⟩
    · -- The counts are those of the block, and they were checked without a wrap.
      rw [hbuffer, Option.getD_some] at hreq
      rw [hreq, hmax, declaredLength_toNat L hL block (hfirst hzero)]
    · -- A later block keeps the bytes of the counts, so the required length is as before.
      have hlater' := hlater hne
      rw [hold, Option.getD_some] at hlater'
      have hroom : L.sizeofRawDataSet ≤ old.length := by
        rw [length_of_sized s old hsized hold]
        exact hs.2 old hold
      have hsame := (counts_splice L fields hfields block old hroom hin hpayload).mpr hlater'
      rw [hnew, Option.some.injEq] at hbuffer
      rw [← hbuffer, hmax, requiredLength_of_dataCounts L _ _ hsame]
      exact hs.1 old hold

/-- A transfer that was stored, or untouched, leaves nothing to fit. -/
theorem fits_step (L : Layout ν) (hL : L.Lawful) (fields : List Nat)
    (hfields : L.CountsAt fields) (env : Environment) (s u : Session ν) (r : Request L)
    (hs : Sized s ∧ Fits L s ∧ Roomy L s) (hguard : CountsKept L fields s r)
    (hstep : (sessions L env).step s r = some u) : Sized u ∧ Fits L u ∧ Roomy L u := by
  refine ⟨sized_step L env s u r hs.1 hstep, ?_⟩
  by_cases hraw : ∃ block, r = .rawDataPush block
  · rcases hraw with ⟨block, rfl⟩
    rcases rawDataPush_step L env s u block hstep with hreceive | ⟨t, hreceive, hstore⟩
    · exact ⟨fits_receive L hL fields hfields env s u block false hs.1 hs.2 hguard hreceive,
        roomy_receive L env s u block false hs.2.2 hreceive⟩
    · rcases storeTransfer_runs L env t with ⟨E, F, b, _, hrun, _⟩
      rw [hrun, EStateM.Result.ok.injEq] at hstore
      rw [← hstore.2]
      -- There is no buffer afterwards.
      constructor
      · intro buffer hbuffer
        simp only [reduceCtorEq] at hbuffer
      · intro buffer hbuffer
        simp only [reduceCtorEq] at hbuffer
  · have hother : ∀ block, r ≠ .rawDataPush block := fun block hr => hraw ⟨block, hr⟩
    rcases (bystander_step L env s u r hother hstep).1 with ⟨hbuffer, hmax, _⟩
    have hkept := hs.2
    unfold Fits Roomy at hkept ⊢
    rw [hbuffer, hmax]
    exact hkept

theorem fits_of_reachesBy (L : Layout ν) (hL : L.Lawful) (fields : List Nat)
    (hfields : L.CountsAt fields) (env : Environment) (s : Session ν)
    (h : (sessions L env).ReachesBy (CountsKept L fields) (Session.opened ν) s) :
    Sized s ∧ Fits L s ∧ Roomy L s := by
  refine Machine.invariant (I := fun s => Sized s ∧ Fits L s ∧ Roomy L s) h ⟨rfl, ?_, ?_⟩
    (fun t r u ht hr hstep => fits_step L hL fields hfields env t u r ht hr hstep)
  · intro buffer hbuffer
    simp only [Session.opened, reduceCtorEq] at hbuffer
  · intro buffer hbuffer
    simp only [Session.opened, reduceCtorEq] at hbuffer

/-- A block behind the header covers no byte of the counts. -/
theorem countsKept_behind (L : Layout ν) (hL : L.Lawful) (fields : List Nat)
    (hfields : L.CountsAt fields) (s : Session ν)
    (block : MqsCldFile L.payloadMax) (hbehind : L.sizeofRawDataSet ≤ block.offset.toNat) :
    CountsKept L fields s (.rawDataPush block) := by
  have hpos := hL.sizeofRawDataSet_pos
  refine fun _ => ⟨fun hzero => ?_, fun _ i hi hlow _ => ?_⟩
  · have hoff : block.offset.toNat = 0 := by rw [hzero]; rfl
    omega
  · have hheader := hfields.header i hi
    omega

/-- The empty block at the end of the buffer. -/
def emptyLast (L : Layout ν) (n : UInt32) : MqsCldFile L.payloadMax :=
  ⟨n, 0, n, Vector.replicate L.payloadMax 0⟩

/-- It completes the transfer as it stands. -/
theorem receive_emptyLast (L : Layout ν) (hL : L.Lawful) (env : Environment) (s : Session ν)
    (buffer : List UInt8) (hsized : Sized s) (hroom : Roomy L s)
    (hbuffer : s.rawDataSetAssemblyBuffer = some buffer) :
    receiveBlock L env (emptyLast L s.maxAssemblyLength) s = .ok true s := by
  have hpos := hL.sizeofRawDataSet_pos
  have hroom' := hroom buffer hbuffer
  have hne : s.maxAssemblyLength ≠ 0 := by
    intro hzero
    rw [hzero] at hroom'
    have hz : (0 : UInt32).toNat = 0 := rfl
    omega
  -- The empty block names the total of the first one, and ends at it.
  have hlen := length_of_sized s buffer hsized hbuffer
  have hcheck : checkAssemblyBuffer L env (emptyLast L s.maxAssemblyLength) s = .ok true s := by
    rw [checkAssemblyBuffer_eq]
    simp only [emptyLast, UInt32.add_zero, if_pos (UInt32.le_refl _), if_neg hne, decide_true]
  have hcopy : copyBlock L (emptyLast L s.maxAssemblyLength) s = .ok () s := by
    refine (copyBlock_ok L _ s s).mpr ⟨buffer, hbuffer, ?_, Nat.zero_le _, ?_⟩
    · have hz : (0 : UInt32).toNat = 0 := rfl
      simp only [emptyLast, hz]
      omega
    · have hnil : (emptyLast L s.maxAssemblyLength).payload = [] := rfl
      rw [hnil, splice, List.append_nil, List.length_nil, Nat.add_zero, List.take_append_drop,
        ← hbuffer]
  have hreceive := receiveBlock_of_copy L env _ s s s hcheck hcopy
  rw [hreceive]
  simp only [emptyLast, UInt32.add_zero, decide_true]

/-- A copied first block outside the guard leaves counts that do not fit, and one
    behind it has replaced the counts. -/
theorem counts_of_unsafe (L : Layout ν) (hL : L.Lawful) (fields : List Nat)
    (hfields : L.CountsAt fields) (env : Environment) (s t u : Session ν)
    (block : MqsCldFile L.payloadMax) (hsized : Sized s) (hroom : Roomy L s)
    (hcheck : checkAssemblyBuffer L env block s = .ok true t)
    (hcopy : copyBlock L block t = .ok () u)
    (hguard : ¬CountsKept L fields s (.rawDataPush block)) :
    (block.offset = 0 → u.maxAssemblyLength.toNat <
        requiredLength L (L.rawDataSet (u.rawDataSetAssemblyBuffer.getD []))) ∧
      (block.offset ≠ 0 → dataCounts L (u.rawDataSetAssemblyBuffer.getD []) ≠
        dataCounts L (s.rawDataSetAssemblyBuffer.getD [])) := by
  rcases required_of_receive L hL env s t u block hcheck hcopy with
    ⟨hzero, hreq, _⟩ | ⟨hne, old, hold, hin, hpayload, hnew, _⟩
  · -- A first block outside the guard declares less than its counts need.
    refine ⟨fun _ => ?_, fun hne => absurd hzero hne⟩
    by_contra hle
    refine hguard (fun _ => ⟨fun _ => ?_, fun hne => absurd hzero hne⟩)
    have hlt := u.maxAssemblyLength.toNat_lt
    omega
  · -- A later one outside the guard changes a byte of the counts.
    refine ⟨fun hzero => absurd hzero hne, fun _ hsame => ?_⟩
    rw [hnew, hold, Option.getD_some, Option.getD_some] at hsame
    have hlong : L.sizeofRawDataSet ≤ old.length := by
      rw [length_of_sized s old hsized hold]
      exact hroom old hold
    refine hguard (fun _ => ⟨fun hzero => absurd hzero hne, fun _ => ?_⟩)
    rw [hold, Option.getD_some]
    exact (counts_splice L fields hfields block old hlong hin hpayload).mp hsame

/-- In every run whose first blocks have counts that need less than 2^32 bytes
    and whose later blocks carry no other bytes over them, a transfer is stored
    only if its data points lie in the buffer, whose size is still that of the
    counts. The next block that is copied and does not meet this, if it is a
    first one, makes it possible to store a transfer whose data points do not
    lie there; if it is a later one, it replaces the counts that were checked. A
    block behind the header always meets it. -/
theorem committed_consistent (L : Layout ν) (hL : L.Lawful) (fields : List Nat)
    (hfields : L.CountsAt fields) (env : Environment) (s : Session ν)
    (h : (sessions L env).ReachesBy (CountsKept L fields) (Session.opened ν) s)
    (block : MqsCldFile L.payloadMax) :
    (∀ u, CountsKept L fields s (.rawDataPush block) →
      receiveBlock L env block s = .ok true u →
      ConsistentBuffer L u ∧
        requiredLength L (L.rawDataSet (u.rawDataSetAssemblyBuffer.getD [])) =
          u.maxAssemblyLength.toNat) ∧
    (∀ u complete, ¬CountsKept L fields s (.rawDataPush block) →
      receiveBlock L env block s = .ok complete u →
      (block.offset = 0 → ¬ConsistentBuffer L u ∧
        (complete = true ∨ ∃ last, receiveBlock L env last u = .ok true u)) ∧
      (block.offset ≠ 0 → dataCounts L (u.rawDataSetAssemblyBuffer.getD []) ≠
        dataCounts L (s.rawDataSetAssemblyBuffer.getD []))) ∧
    (L.sizeofRawDataSet ≤ block.offset.toNat → CountsKept L fields s (.rawDataPush block)) := by
  rcases fits_of_reachesBy L hL fields hfields env s h with ⟨hsized, hfits, hroom⟩
  refine ⟨?_, ?_, countsKept_behind L hL fields hfields s block⟩
  · intro u hguard hreceive
    have hroom' := roomy_receive L env s u block true hroom hreceive
    have hfits' := fits_receive L hL fields hfields env s u block true hsized ⟨hfits, hroom⟩ hguard
      hreceive
    unfold ConsistentBuffer
    -- A completed transfer has been copied into a buffer.
    rcases receiveBlock_ok L env block s u true hreceive with ⟨hf, _⟩ | ⟨t, _, hcopy, _⟩
    · exact absurd hf.symm Bool.false_ne_true
    · rcases (copyBlock_ok L block t u).mp hcopy with ⟨buffer, _, _, _, rfl⟩
      have hsame := hfits' _ rfl
      exact ⟨(consistent_iff L _ _ (hroom' _ rfl)).mpr hsame.le, hsame⟩
  · intro u complete hguard hreceive
    have hroom' := roomy_receive L env s u block complete hroom hreceive
    have hsized' := sized_of_receive L env s u block complete hsized hreceive
    rcases receiveBlock_ok L env block s u complete hreceive with
      ⟨_, _, hreject⟩ | ⟨t, hcheck, hcopy, _⟩
    · -- The guard says nothing about a rejected block.
      refine absurd (fun haccepted => ?_) hguard
      rcases (accepted_iff L env s block).mpr haccepted with ⟨t, ht⟩
      rw [hreject, EStateM.Result.ok.injEq] at ht
      exact absurd ht.1 Bool.false_ne_true
    · rcases counts_of_unsafe L hL fields hfields env s t u block hsized hroom hcheck hcopy hguard
        with ⟨hover, hreplaced⟩
      refine ⟨fun hzero => ?_, hreplaced⟩
      rcases (copyBlock_ok L block t u).mp hcopy with ⟨buffer, _, _, _, hu⟩
      have hbuffer : u.rawDataSetAssemblyBuffer =
          some (splice buffer block.payload block.offset.toNat) := by rw [hu]
      refine ⟨fun hcons => ?_, ?_⟩
      · have hle := (consistent_iff L _ _ (hroom' _ hbuffer)).mp hcons
        have hlt := hover hzero
        omega
      · cases complete with
        | true => exact Or.inl rfl
        | false => exact Or.inr ⟨_, receive_emptyLast L hL env u _ hsized' hroom' hbuffer⟩

theorem word_congr (m m' : List UInt8) (n i : Nat) (h : m.take n = m'.take n) (hi : i + 3 < n) :
    word m i = word m' i := by
  have hbyte : ∀ j, j < n → m.getD j 0 = m'.getD j 0 := by
    intro j hj
    rw [List.getD_eq_getElem?_getD, List.getD_eq_getElem?_getD, ← List.getElem?_take_of_lt hj, h,
      List.getElem?_take_of_lt hj]
  unfold word
  rw [hbyte i (by omega), hbyte (i + 1) (by omega), hbyte (i + 2) (by omega), hbyte (i + 3) hi]

theorem packedLayout_lawful : packedLayout.Lawful := by
  refine ⟨by decide, by decide, fun m m' h => ⟨?_, ?_⟩⟩
  · exact word_congr m m' 28 4 h (by decide)
  · exact word_congr m m' 28 16 h (by decide)

theorem word_toNat (m : List UInt8) (i : Nat) :
    (word m i).toNat = (m.getD i 0).toNat + (m.getD (i + 1) 0).toNat * 256 +
      (m.getD (i + 2) 0).toNat * 65536 + (m.getD (i + 3) 0).toNat * 16777216 := by
  have h0 := (m.getD i 0).toNat_lt
  have h1 := (m.getD (i + 1) 0).toNat_lt
  have h2 := (m.getD (i + 2) 0).toNat_lt
  have h3 := (m.getD (i + 3) 0).toNat_lt
  simp only [word, UInt32.toNat_add, UInt32.toNat_mul, UInt8.toNat_toUInt32, UInt32.reduceToNat]
  omega

/-- The bytes of a 32-bit field are those of its value. -/
theorem word_inj (m m' : List UInt8) (i : Nat) :
    word m i = word m' i ↔ m.getD i 0 = m'.getD i 0 ∧ m.getD (i + 1) 0 = m'.getD (i + 1) 0 ∧
      m.getD (i + 2) 0 = m'.getD (i + 2) 0 ∧ m.getD (i + 3) 0 = m'.getD (i + 3) 0 := by
  have hlt : ∀ (m : List UInt8) (j : Nat), (m.getD j 0).toNat < 256 :=
    fun m j => (m.getD j 0).toNat_lt
  have h0 := hlt m i
  have h1 := hlt m (i + 1)
  have h2 := hlt m (i + 2)
  have h0' := hlt m' i
  have h1' := hlt m' (i + 1)
  have h2' := hlt m' (i + 2)
  simp only [← UInt32.toNat_inj, ← UInt8.toNat_inj, word_toNat]
  omega

theorem packedLayout_countsAt : packedLayout.CountsAt [4, 5, 6, 7, 16, 17, 18, 19] := by
  refine ⟨by decide, fun m m' _ _ => ?_⟩
  rw [show (dataCounts packedLayout m = dataCounts packedLayout m') ↔
    word m 4 = word m' 4 ∧ word m 16 = word m' 16 from Prod.mk.injEq _ _ _ _ ▸ Iff.rfl,
    word_inj, word_inj]
  simp only [List.forall_mem_cons, List.not_mem_nil, false_imp_iff, implies_true, and_true,
    and_assoc]

/-- The point of `onePointHeader`. -/
def onePointRest : MqsCldFile packedLayout.payloadMax := ⟨28, 8, 36, Vector.replicate 64 0⟩

/-- A transfer of two blocks, the second of which begins behind the header. -/
theorem committed_consistent_two : ∃ s u,
    (sessions packedLayout allSucceed).execute (Session.opened UInt32)
      [.rawDataPush onePointHeader] = some s ∧
    receiveBlock packedLayout allSucceed onePointRest s = .ok true u ∧
    ConsistentBuffer packedLayout u := by
  have hfirst : CountsKept packedLayout [4, 5, 6, 7, 16, 17, 18, 19] (Session.opened UInt32)
      (.rawDataPush onePointHeader) :=
    fun _ => ⟨fun _ => by decide +kernel, fun hne => absurd rfl hne⟩
  refine ⟨_, _, rfl, rfl, ((committed_consistent packedLayout packedLayout_lawful
    [4, 5, 6, 7, 16, 17, 18, 19] packedLayout_countsAt allSucceed _
    (Machine.reachesBy_of_step hfirst rfl) onePointRest).1 _ ?_ rfl).1⟩
  exact countsKept_behind packedLayout packedLayout_lawful _ packedLayout_countsAt _ onePointRest
    (by decide)

/-- Bytes 4 to 35 of a set, all of them 2. -/
def twosOverHeader : MqsCldFile packedLayout.payloadMax := ⟨4, 32, 36, Vector.replicate 64 2⟩

/-- The second block writes over the counts and completes the transfer. -/
theorem header_overwritten : ∃ s u,
    (sessions packedLayout allSucceed).execute (Session.opened UInt32)
      [.rawDataPush onePointHeader] = some s ∧
    receiveBlock packedLayout allSucceed twosOverHeader s = .ok true u ∧
    ¬ ConsistentBuffer packedLayout u := by
  refine ⟨_, _, rfl, rfl, fun hcons => ?_⟩
  exact absurd (hcons 1 (Or.inl (by decide +kernel))) (by decide +kernel)

end Push

end EpollServer
