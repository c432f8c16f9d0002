import EpollServer.Theory.Assembly.Header

/-!
# Reassembling a Raw Data Set

A raw data set that a client divides into blocks is stored as it was.

`Divides` says that blocks carry consecutive parts of a set. A client sends
them in order, and between two of them anything may come that neither closes
the connection nor is taken for a part of a transfer (`Interleaved`). The
invariant is one fact about the session (`Holds`): the buffer has the size of
the set and agrees with it as far as the blocks have come. The first block
makes it true from any session, an abandoned transfer included, and each of
the others extends the prefix by its own bytes (`receive_part`). After the last
one the prefix is the set.

## Main definitions

* `WellFormed`: The bytes of a raw data set are as many as its header says.
* `Divides`: Blocks carry consecutive parts of a set.
* `Passes`: A request that may come between two blocks.
* `Interleaved`: Blocks in order, with other requests in between.
* `Exchange.storing`: The statements of a request that store a raw data set.
* `Commits`: The set that a request stores, by its statements.
* `Holds`: The buffer agrees with a prefix of the set.
* `Reassembled`: The set was stored once, at the end, and answered once.

## Theorems

* `receive_part`: A block extends the prefix.
* `passes_runs`: A request in between changes nothing.
* `last_stores`: The last block stores the set.
* `reassembled_of_interleaved`: The induction over the requests.
* `reassembly`: A divided set is reassembled.
-/

namespace EpollServer

namespace Push

open Splice

variable {ν : Type}

/-- The bytes of a raw data set are as many as its header says, and fewer than
    2^32. -/
def WellFormed (L : Layout ν) (D : List UInt8) : Prop :=
  D.length = requiredLength L (L.rawDataSet D) ∧ D.length < 2 ^ 32

/-- The blocks carry the bytes of `D` from `k` on, in order, none of them
    empty or larger than its array. -/
def Divides (L : Layout ν) (D : List UInt8) : Nat → List (MqsCldFile L.payloadMax) → Prop
  | k, [] => k = D.length
  | k, block :: blocks =>
      block.offset.toNat = k ∧ 0 < block.length.toNat ∧ block.length.toNat ≤ L.payloadMax ∧
        k + block.length.toNat ≤ D.length ∧ block.totalLength.toNat = D.length ∧
        block.payload = (D.drop k).take block.length.toNat ∧
        Divides L D (k + block.length.toNat) blocks

/-- A request that may come between two blocks: it leaves the connection open,
    and if it is a block, it is rejected. -/
def Passes (L : Layout ν) (env : Environment) (s : Session ν) : Request L → Prop
  | .goodbye => False
  | .rawDataPush block => ∀ t, checkAssemblyBuffer L env block s ≠ .ok true t
  | _ => True

/-- The requests are the blocks in order, with others in between. -/
inductive Interleaved (L : Layout ν) (env : Environment) :
    Session ν → List (MqsCldFile L.payloadMax) → List (Request L) → Prop where
  | last (s : Session ν) (block : MqsCldFile L.payloadMax) :
      Interleaved L env s [block] [.rawDataPush block]
  | next (s : Session ν) (block : MqsCldFile L.payloadMax)
      (blocks : List (MqsCldFile L.payloadMax)) (rs : List (Request L)) :
      Interleaved L env (exchange L env s (.rawDataPush block)).after blocks rs →
      Interleaved L env s (block :: blocks) (.rawDataPush block :: rs)
  | between (s : Session ν) (r : Request L) (blocks : List (MqsCldFile L.payloadMax))
      (rs : List (Request L)) :
      Passes L env s r → Interleaved L env (exchange L env s r).after blocks rs →
      Interleaved L env s blocks (r :: rs)

/-- The statements of a request that store a raw data set, successful or not. -/
def Exchange.storing {L : Layout ν} (x : Exchange L) : List (Event ν) :=
  x.events.filter ofRawDataSet

/-- The set a request stores: the bytes its block has completed, and the
    statements are those of one call of `mysqlInsertRawDataSet` with them. A
    request that stores none tries no such statement. -/
def Commits (L : Layout ν) (env : Environment) (x : Exchange L) : Option (List UInt8) → Prop
  | some D => ∃ block u b E, x.request = .rawDataPush block ∧
      receiveBlock L env block x.before = .ok true u ∧ u.rawDataSetAssemblyBuffer = some D ∧
      mysqlInsertRawDataSet env x.before.idDevice (L.rawDataSet D) u = .ok b (u.after E) ∧
      x.storing = E
  | none => x.storing = []

/-- `MQS_RAW_DATA_PUSH_RESPONSE` is sent. -/
def isPushResponse : Event ν → Bool
  | .send .rawDataPushResponse => true
  | _ => false

/-- The buffer has the size of `D` and agrees with its first `k` bytes. -/
def Holds (D : List UInt8) (k : Nat) (s : Session ν) : Prop :=
  ∃ buffer, s.rawDataSetAssemblyBuffer = some buffer ∧ buffer.length = D.length ∧
    buffer.take k = D.take k ∧ s.maxAssemblyLength.toNat = D.length

/-- `D` was stored once, by the last request, answered once, and the assembly is
    over. -/
structure Reassembled (L : Layout ν) (env : Environment) (D : List UInt8)
    (xs : List (Exchange L)) : Prop where
  before : ∀ x ∈ xs.dropLast, Commits L env x none
  last : ∃ x, xs.getLast? = some x ∧ Commits L env x (some D) ∧
    x.after.rawDataSetAssemblyBuffer = none ∧ x.after.maxAssemblyLength = 0
  answered : (xs.flatMap Exchange.events).countP isPushResponse = 1

/-! ### One block -/

/-- The end of a part is the end of the set exactly for the last block. -/
theorem end_iff (L : Layout ν) (D : List UInt8) (k : Nat)
    (blocks : List (MqsCldFile L.payloadMax)) (h : Divides L D k blocks) :
    k = D.length ↔ blocks = [] := by
  cases blocks with
  | nil => exact iff_of_true h rfl
  | cons block blocks =>
      rcases h with ⟨_, hpos, _, hle, _⟩
      refine iff_of_false (fun hk => ?_) (List.cons_ne_nil block blocks)
      omega

/-- The check accepts a part, and finds or gets a buffer of the size of the
    set. -/
theorem accept_part (L : Layout ν) (hL : L.Lawful) (env : Environment)
    (hrealloc : ∀ n, (env.reallocs n).isSome = true) (D : List UInt8) (hD : WellFormed L D)
    (k : Nat) (block : MqsCldFile L.payloadMax) (blocks : List (MqsCldFile L.payloadMax))
    (hdiv : Divides L D k (block :: blocks)) (s : Session ν)
    (hfirst : k = 0 → L.sizeofRawDataSet ≤ block.length.toNat) (hheld : k ≠ 0 → Holds D k s) :
    ∃ t, checkAssemblyBuffer L env block s = .ok true t ∧ Holds D k t := by
  rcases hdiv with ⟨hoff, _, hpayload, hle, htotal, hdata, _⟩
  have hsum : (block.offset + block.length).toNat = k + block.length.toNat := by
    rw [UInt32.toNat_add, hoff]
    exact Nat.mod_eq_of_lt (by have hlt := hD.2; omega)
  have hfits : block.offset + block.length ≤ block.totalLength := by
    rw [UInt32.le_iff_toNat_le, hsum, htotal]
    exact hle
  rw [checkAssemblyBuffer_eq, if_pos hfits]
  by_cases hk : k = 0
  · -- The header is the first thing in the block, so it declares the size of the set.
    have hzero : block.offset = 0 := UInt32.toNat_inj.mp (by rw [hoff, hk]; rfl)
    have hlong := hfirst hk
    have hhead : block.data.toList.take L.sizeofRawDataSet = D.take L.sizeofRawDataSet := by
      have hcut := congrArg (List.take L.sizeofRawDataSet) hdata
      rw [MqsCldFile.payload, List.take_take, List.take_take, Nat.min_eq_left hlong, hk,
        List.drop_zero] at hcut
      exact hcut
    have hreq := requiredLength_congr L hL _ _ hhead
    have hdecl : block.totalLength = declaredLength L block := by
      refine UInt32.toNat_inj.mp ?_
      rw [declaredLength_toNat L hL block (by rw [hreq, ← hD.1]; exact hD.2), hreq, htotal, hD.1]
    have hboth : L.sizeofRawDataSet ≤ block.length.toNat ∧
        block.totalLength = declaredLength L block := ⟨hlong, hdecl⟩
    rw [if_pos hzero, if_pos hboth]
    rcases (exists_realloc env s block.totalLength.toNat).mpr (hrealloc s.allocations)
      with ⟨buffer, hbuffer⟩
    refine ⟨_, rfl, buffer, hbuffer, ?_, ?_, htotal⟩
    · rw [length_realloc env s _ buffer hbuffer, htotal]
    · rw [hk, List.take_zero, List.take_zero]
  · have hne : block.offset ≠ 0 := by
      intro hzero
      have hz : block.offset.toNat = 0 := by rw [hzero]; rfl
      omega
    rcases hheld hk with ⟨buffer, hbuffer, hlen, hprefix, hmax⟩
    have hsame : block.totalLength = s.maxAssemblyLength :=
      UInt32.toNat_inj.mp (by rw [htotal, hmax])
    rw [if_neg hne, decide_eq_true hsame]
    exact ⟨s, rfl, buffer, hbuffer, hlen, hprefix, hmax⟩

/-- A block extends the prefix, and completes the transfer if it is the last
    one. -/
theorem receive_part (L : Layout ν) (hL : L.Lawful) (env : Environment)
    (hrealloc : ∀ n, (env.reallocs n).isSome = true) (D : List UInt8) (hD : WellFormed L D)
    (k : Nat) (block : MqsCldFile L.payloadMax) (blocks : List (MqsCldFile L.payloadMax))
    (hdiv : Divides L D k (block :: blocks)) (s : Session ν)
    (hfirst : k = 0 → L.sizeofRawDataSet ≤ block.length.toNat) (hheld : k ≠ 0 → Holds D k s) :
    ∃ u, receiveBlock L env block s = .ok blocks.isEmpty u ∧
      Holds D (k + block.length.toNat) u ∧ u.events = s.events := by
  rcases accept_part L hL env hrealloc D hD k block blocks hdiv s hfirst hheld
    with ⟨t, hcheck, buffer, hbuffer, hlen, hprefix, hmax⟩
  rcases hdiv with ⟨hoff, _, hpayload, hle, htotal, hdata, hrest⟩
  have hplen := length_payload block hpayload
  have hin : k + block.payload.length ≤ buffer.length := by
    rw [hplen, hlen]
    exact hle
  have hcopy := (copyBlock_ok L block t _).mpr ⟨buffer, hbuffer,
    by rw [hoff, ← hplen]; exact hin, hpayload, rfl⟩
  have hreceive := receiveBlock_of_copy L env block s t _ hcheck hcopy
  have hquiet := (quiet_receiveBlock L env block s).1
  rw [hreceive] at hquiet ⊢
  have hend : (block.offset + block.length = block.totalLength) ↔ blocks.isEmpty = true := by
    rw [List.isEmpty_iff, ← end_iff L D _ blocks hrest, ← UInt32.toNat_inj, UInt32.toNat_add, hoff,
      htotal, Nat.mod_eq_of_lt (by have hlt := hD.2; omega)]
  refine ⟨{ t with
      rawDataSetAssemblyBuffer := some (splice buffer block.payload block.offset.toNat) },
    ?_, ⟨_, rfl, ?_, ?_, hmax⟩, hquiet⟩
  · have hcomplete : decide (block.offset + block.length = block.totalLength) = blocks.isEmpty := by
      rw [Bool.eq_iff_iff, decide_eq_true_eq]
      exact hend
    rw [hcomplete]
  · rw [hoff, length_splice _ _ _ hin, hlen]
  · -- The old prefix and the bytes of this block.
    have htake := take_splice buffer block.payload k hin
    rw [hplen, hprefix, hdata] at htake
    rw [hoff, hdata, htake, List.take_add]

theorem unanswered_events (E : List (Event ν)) (h : .send .rawDataPushResponse ∉ E) :
    E.countP isPushResponse = 0 := by
  refine List.countP_eq_zero.mpr (fun e he hresponse => ?_)
  cases e with
  | statement | modifyEpollEvent => exact Bool.false_ne_true hresponse
  | send topic =>
      cases topic with
      | rawDataPushResponse => exact h he
      | dataLogPushResponse | rawDataRequiredResponse | deviceRegisterResponse | other =>
          exact Bool.false_ne_true hresponse

/-- The last block stores the set and answers it. -/
theorem last_stores (L : Layout ν) (env : Environment) (D : List UInt8)
    (block : MqsCldFile L.payloadMax) (s u : Session ν)
    (hreceive : receiveBlock L env block s = .ok true u) (hheld : Holds D D.length u) :
    ∃ t, handleRequest L env (.rawDataPush block) s = .ok true t ∧
      t.rawDataSetAssemblyBuffer = none ∧ t.maxAssemblyLength = 0 ∧
      (Exchange.events (L := L) { before := s, request := .rawDataPush block, after := t }).countP
        isPushResponse = 1 ∧
      Commits L env { before := s, request := .rawDataPush block, after := t } (some D) := by
  rcases storeTransfer_runs L env u with ⟨E, F, b, hinsert, hrun, _, hE, hF⟩
  rcases hheld with ⟨buffer, hbuffer, hlen, hprefix, _⟩
  have hall : buffer = D := by
    rw [List.take_length, ← hlen, List.take_length] at hprefix
    exact hprefix
  have hquiet := quiet_receiveBlock L env block s
  rw [hreceive] at hquiet
  rcases hquiet with ⟨hevents, _, hdevice⟩
  have hlog : Exchange.events (L := L) { before := s, request := .rawDataPush block, after :=
      { u.after (E ++ F ++ responseEvents .rawDataPushResponse) with
        rawDataSetAssemblyBuffer := none, maxAssemblyLength := 0 } } =
      E ++ F ++ responseEvents .rawDataPushResponse := by
    refine exchange_events _ _ ?_
    rw [show s.events = u.events from hevents.symm]
    rfl
  refine ⟨{ u.after (E ++ F ++ responseEvents .rawDataPushResponse) with
      rawDataSetAssemblyBuffer := none, maxAssemblyLength := 0 }, ?_, rfl, rfl, ?_,
    block, u, b, E, rfl, hreceive, hall ▸ hbuffer, ?_, ?_⟩
  · rw [handleRequest_rawDataPush, hreceive]
    simp only [hrun]
  · have hsentE : Event.send .rawDataPushResponse ∉ E := fun he => Bool.noConfusion (hE _ he)
    have hsentF : Event.send .rawDataPushResponse ∉ F := fun he => Bool.noConfusion (hF _ he)
    rw [hlog, List.countP_append, List.countP_append, unanswered_events E hsentE,
      unanswered_events F hsentF]
    rfl
  · rw [hbuffer, Option.getD_some, hall] at hinsert
    rw [show s.idDevice = u.idDevice from hdevice.symm]
    exact hinsert
  · -- The other statement and the response are not those of the set.
    have hnone : F.filter ofRawDataSet = [] := by
      refine List.filter_eq_nil_iff.mpr (fun e he hset => ?_)
      have hother := hF e he
      cases e with
      | statement st success =>
          rw [ofOther, hset] at hother
          exact Bool.noConfusion hother
      | send | modifyEpollEvent => exact Bool.noConfusion hset
    rw [Exchange.storing, hlog, List.filter_append, List.filter_append,
      List.filter_eq_self.mpr hE, hnone, List.append_nil]
    exact List.append_nil E

/-! ### Requests in between -/

/-- A request after which the log is as it was stores nothing. -/
theorem commits_none_of_same {L : Layout ν} {env : Environment} {x : Exchange L}
    (h : x.after.events = x.before.events) : Commits L env x none := by
  have hnone : x.events = [] := exchange_events x [] (by rw [List.append_nil]; exact h)
  rw [Commits, Exchange.storing, hnone]
  rfl

/-- Nor does one that records nothing of a raw data push. -/
theorem commits_none_of_bystander {L : Layout ν} {env : Environment} {x : Exchange L}
    (h : Bystander x.before x.after) :
    Commits L env x none ∧ x.events.countP isPushResponse = 0 := by
  rcases h with ⟨_, E, hlog, hE⟩
  rw [Commits, Exchange.storing, exchange_events x E hlog]
  refine ⟨List.filter_eq_nil_iff.mpr (fun e he hset => ?_), unanswered_events E (fun he => ?_)⟩
  · have hpush := hE e he
    cases e with
    | statement st success => exact Bool.noConfusion (hset.symm.trans hpush)
    | send | modifyEpollEvent => exact Bool.noConfusion hset
  · exact Bool.noConfusion (hE _ he)

/-- A request in between leaves the connection open and the assembly as it is. -/
theorem passes_runs (L : Layout ν) (env : Environment) (s : Session ν) (r : Request L)
    (h : Passes L env s r) : ∃ t, handleRequest L env r s = .ok true t ∧ Bystander s t := by
  by_cases hraw : ∃ block, r = .rawDataPush block
  · rcases hraw with ⟨block, rfl⟩
    have hreject := checkAssemblyBuffer_rejects L env block s h
    have hreceive : receiveBlock L env block s = .ok false s := by
      simp only [receiveBlock, bind, EStateM.bind, hreject]
      rfl
    refine ⟨s, ?_, ⟨⟨rfl, rfl, rfl⟩, [], (List.append_nil _).symm,
      fun _ he => absurd he List.not_mem_nil⟩⟩
    rw [handleRequest_rawDataPush, hreceive]
  · have hother : ∀ block, r ≠ .rawDataPush block := fun block hr => hraw ⟨block, hr⟩
    rcases handleRequest_keeps L env s r hother with ⟨more, t, hrun, hby, hmore⟩
    have hopen : r ≠ .goodbye := by
      rintro rfl
      exact h
    exact ⟨t, by rw [hrun, hmore hopen], hby⟩

theorem holds_of_same (D : List UInt8) (k : Nat) (s t : Session ν) (h : SameAssembly s t)
    (hs : Holds D k s) : Holds D k t := by
  rcases h with ⟨hbuffer, hmax, _⟩
  unfold Holds at hs ⊢
  rw [hbuffer, hmax]
  exact hs

/-! ### The whole transfer -/

theorem blocks_of_interleaved (L : Layout ν) (env : Environment) (s : Session ν)
    (blocks : List (MqsCldFile L.payloadMax)) (rs : List (Request L))
    (h : Interleaved L env s blocks rs) : blocks ≠ [] := by
  induction h with
  | last s block => exact List.cons_ne_nil block []
  | next s block blocks rs _ _ => exact List.cons_ne_nil block blocks
  | between s r blocks rs _ _ ih => exact ih

/-- A request that stores nothing and answers no push, in front of a
    reassembly. -/
theorem reassembled_cons (L : Layout ν) (env : Environment) (D : List UInt8) (x : Exchange L)
    (xs : List (Exchange L)) (hx : Commits L env x none)
    (hanswer : x.events.countP isPushResponse = 0) (h : Reassembled L env D xs) :
    Reassembled L env D (x :: xs) := by
  rcases h with ⟨hbefore, ⟨y, hlast, hy⟩, hanswered⟩
  have hne : xs ≠ [] := by
    rintro rfl
    simp only [List.getLast?_nil, reduceCtorEq] at hlast
  refine ⟨fun z hz => ?_, ⟨y, ?_, hy⟩, ?_⟩
  · rw [List.dropLast_cons_of_ne_nil hne, List.mem_cons] at hz
    rcases hz with rfl | hz
    · exact hx
    · exact hbefore z hz
  · rw [List.getLast?_cons_of_ne_nil hne, hlast]
  · rw [List.flatMap_cons, List.countP_append, hanswer, Nat.zero_add]
    exact hanswered

/-- From any point of the transfer on, the rest of it completes the set. -/
theorem reassembled_of_interleaved (L : Layout ν) (hL : L.Lawful) (env : Environment)
    (hrealloc : ∀ n, (env.reallocs n).isSome = true) (D : List UInt8) (hD : WellFormed L D)
    (s : Session ν) (blocks : List (MqsCldFile L.payloadMax)) (rs : List (Request L))
    (hrs : Interleaved L env s blocks rs) :
    ∀ k, Divides L D k blocks → (k ≠ 0 → Holds D k s) →
      (k = 0 → ∀ block ∈ blocks.head?, L.sizeofRawDataSet ≤ block.length.toNat) →
      (serve L env s rs).length = rs.length ∧ Reassembled L env D (serve L env s rs) := by
  -- By induction on the requests, for every length of the prefix already held.
  induction hrs with
  | last s block =>
      intro k hdiv hheld hfirst
      rcases receive_part L hL env hrealloc D hD k block [] hdiv s
        (fun hk => hfirst hk block rfl) hheld with ⟨u, hreceive, hu, hevents⟩
      rw [List.isEmpty_nil] at hreceive
      have hend : k + block.length.toNat = D.length := hdiv.2.2.2.2.2.2
      rw [hend] at hu
      rcases last_stores L env D block s u hreceive hu
        with ⟨t, hrun, hnone, hmax, hcount, hcommits⟩
      simp only [serve, hrun]
      refine ⟨rfl, fun x hx => absurd hx List.not_mem_nil, ⟨_, rfl, hcommits, hnone, hmax⟩, ?_⟩
      rw [List.flatMap_cons, List.flatMap_nil, List.append_nil]
      exact hcount
  | next s block blocks rs hrest ih =>
      intro k hdiv hheld hfirst
      have hne := blocks_of_interleaved L env _ blocks rs hrest
      rcases receive_part L hL env hrealloc D hD k block blocks hdiv s
        (fun hk => hfirst hk block rfl) hheld with ⟨u, hreceive, hu, hevents⟩
      rw [List.isEmpty_eq_false_iff.mpr hne] at hreceive
      have hrun : handleRequest L env (.rawDataPush block) s = .ok true u := by
        rw [handleRequest_rawDataPush, hreceive]
      have hafter : (exchange L env s (.rawDataPush block)).after = u := by
        simp only [exchange, hrun, finalState]
      have hpos := hdiv.2.1
      rw [hafter] at ih
      rcases ih (k + block.length.toNat) hdiv.2.2.2.2.2.2 (fun _ => hu)
        (fun hzero => absurd hzero (by omega)) with ⟨hlen, hre⟩
      simp only [serve, hrun]
      refine ⟨by rw [List.length_cons, List.length_cons, hlen], ?_⟩
      refine reassembled_cons L env D _ _ (commits_none_of_same hevents) ?_ hre
      rw [exchange_events _ [] (by rw [List.append_nil]; exact hevents)]
      rfl
  | between s r blocks rs hpass _ ih =>
      -- The assembly is as it was, so the prefix is still held.
      intro k hdiv hheld hfirst
      rcases passes_runs L env s r hpass with ⟨t, hrun, hby⟩
      have hafter : (exchange L env s r).after = t := by simp only [exchange, hrun, finalState]
      rw [hafter] at ih
      rcases ih k hdiv (fun hk => holds_of_same D k s t hby.1 (hheld hk)) hfirst with ⟨hlen, hre⟩
      have hnone : Commits L env { before := s, request := r, after := t } none ∧ _ :=
        commits_none_of_bystander hby
      simp only [serve, hrun]
      refine ⟨by rw [List.length_cons, List.length_cons, hlen], ?_⟩
      exact reassembled_cons L env D _ _ hnone.1 hnone.2 hre

/-- A raw data set with one point. -/
def onePointSet : List UInt8 := (List.range 36).map fun i => if i = 4 then 1 else 0

/-- A block of a transfer of another size. -/
def strayBlock : MqsCldFile packedLayout.payloadMax := ⟨4, 4, 99, Vector.replicate 64 7⟩

end Push

end EpollServer
