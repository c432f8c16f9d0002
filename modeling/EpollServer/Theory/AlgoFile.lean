import EpollServer.Theory.Blocks
import EpollServer.Theory.Json

/-!
# Streaming an Algorithm File

The loops of `handleAlgoRequest`: the one that takes meat types from the file,
and the one that sends what was made of them.

The first is a filter that is left at its fifth match. Behind any meat types
found so far it adds the requested ones of the rest, up to five in all, and
that is the statement the induction needs. Each is copied by its six fields. A
meat type that has only these is copied as it is, since the members of an
object are in the order of their keys.

The second sends a string by slices. A pass with so many bytes to go is behind
the ones sent, so that a run of the loop adds consecutive slices from an offset
on, and the induction is on what is left. It ends at the end of the string or
with the first message that is not acknowledged. Then the zero response is the
last one.

## Main definitions

* `Library.sixFields`, `Library.requested`: What is copied, and of which entries.
* `Library.MeatTypeFormed`, `Library.AlgoFormed`: A file that is well formed.
* `Library.algoAnswer`: The object that is to be sent.
* `SlicesSent`: Slices of a string that were sent, and the end of a run.

## Theorems

* `Library.filterMeatTypes_eq`: What the first loop finds.
* `Library.sixFields_eq_self`: A meat type without other fields.
* `sendChunks_pass`, `sendChunks_done`: One pass of the second loop.
* `sendChunks_slices`: A run of it.
* `sendAlgoJson_ok`: From the first loop to the second.
* `algo_streamed`: The request.
-/

namespace EpollServer

namespace Library

variable {ν : Type}

/-- The fields of a meat type, in their order. -/
def sixKeys : List String := ["adjConstant", "cubic", "id", "linear", "max_days", "quadratic"]

/-- A meat type without its other fields. -/
def sixFields (meatType : Json ν) : Json ν :=
  .object (sixKeys.map fun key => (key, meatType.field key))

/-- Whether a meat type is one of these. -/
def requested (requestedIds : List Int) (meatType : Json ν) : Bool :=
  match meatType.field "id" with
  | .integer id => decide (id ∈ requestedIds)
  | _ => false

/-- An object with the six fields, of which the id is an `int`. -/
structure MeatTypeFormed (meatType : Json ν) : Prop where
  fields : ∀ key ∈ sixKeys, meatType.contains key = true
  id : ∃ n : Int, meatType.field "id" = .integer n ∧ -(2 ^ 31) ≤ n ∧ n < 2 ^ 31

/-- An object, or `null`, with such meat types. -/
structure AlgoFormed (originalJson : Json ν) : Prop where
  object : originalJson = .null ∨ ∃ members, originalJson = .object members
  meatTypes : ∀ meatType ∈ (originalJson.field "meat_types").elements, MeatTypeFormed meatType

/-- The meat types of the answer: the first five that are requested. -/
def requestedMeatTypes (requestedIds : List Int) (originalJson : Json ν) : List (Json ν) :=
  (((originalJson.field "meat_types").elements.filter (requested requestedIds)).take 5).map
    sixFields

/-- The object that is to be sent. -/
def algoAnswer (isAlgorithmNeeded : Bool) (requestedIds : List Int) (originalJson : Json ν) :
    Json ν :=
  .object ((if isAlgorithmNeeded then [("algorithm", originalJson.field "algorithm")] else []) ++
    [("meat_types", meatTypesJson (requestedMeatTypes requestedIds originalJson))])

/-! ### Meat types -/

variable {L : JsonLibrary ν}

/-- The six fields are copied. -/
theorem newMeatType_eq (hL : L.Documented) {meatType : Json ν} (h : MeatTypeFormed meatType) :
    newMeatType L meatType = .ok (sixFields meatType) := by
  have hfields := h.fields
  simp only [sixKeys, List.forall_mem_cons] at hfields
  rcases hfields with ⟨hadj, hcubic, hid, hlinear, hmax, hquadratic, _⟩
  unfold newMeatType
  rw [hL.indexConst _ _ hadj, hL.indexConst _ _ hcubic, hL.indexConst _ _ hid,
    hL.indexConst _ _ hlinear, hL.indexConst _ _ hmax, hL.indexConst _ _ hquadratic]
  rfl

/-- The test of the loop. -/
theorem getInt_id (hL : L.Documented) {meatType : Json ν} (requestedIds : List Int)
    (h : MeatTypeFormed meatType) :
    ∃ id, L.getInt (meatType.field "id") = .ok id ∧
      (id ∈ requestedIds ↔ requested requestedIds meatType = true) := by
  rcases h.id with ⟨n, hn, hlow, hhigh⟩
  refine ⟨n, ?_, ?_⟩
  · rw [hn, hL.getInt n hlow hhigh]
  · simp only [requested, hn, decide_eq_true_eq]

/-- Behind the meat types found so far, the loop adds the requested ones of the
    rest, up to five in all. -/
theorem filterMeatTypes_eq (hL : L.Documented) (requestedIds : List Int) :
    ∀ entries found : List (Json ν), (∀ meatType ∈ entries, MeatTypeFormed meatType) →
      found.length < 5 → filterMeatTypes L requestedIds entries found =
        .ok (found ++
          ((entries.filter (requested requestedIds)).take (5 - found.length)).map sixFields) := by
  -- Induction on the entries of the library; `found` holds what has been taken before.
  intro entries
  induction entries with
  | nil =>
      intro found _ _
      rw [List.filter_nil, List.take_nil, List.map_nil, List.append_nil]
      rfl
  | cons meatType rest ih =>
      intro found hformed hlt
      have hmeatType := hformed meatType List.mem_cons_self
      have hrest := fun entry hentry => hformed entry (List.mem_cons_of_mem _ hentry)
      rcases getInt_id hL requestedIds hmeatType with ⟨id, hid, hmem⟩
      have hidField := hL.indexConst _ _ (hmeatType.fields "id" (by decide))
      rw [filterMeatTypes, hidField]
      change (L.getInt (meatType.field "id") >>= _) = _
      rw [hid]
      change (if id ∈ requestedIds then _ else _) = _
      by_cases hin : id ∈ requestedIds
      · -- There is one meat type more, and room for one less.
        rw [if_pos hin, newMeatType_eq hL hmeatType, List.filter_cons_of_pos (hmem.mp hin),
          show 5 - found.length = (4 - found.length) + 1 by omega, List.take_succ_cons,
          List.map_cons]
        change (if 5 ≤ found.length + 1 then _ else _) = _
        by_cases hfull : 5 ≤ found.length + 1
        · -- The fifth match.
          rw [if_pos hfull, show 4 - found.length = 0 by omega, List.take_zero, List.map_nil]
          rfl
        · rw [if_neg hfull, ih _ hrest (by rw [List.length_append, List.length_singleton]; omega),
            List.length_append, List.length_singleton, List.append_assoc,
            show 5 - (found.length + 1) = 4 - found.length by omega]
          rfl
      · -- The entry is passed over.
        rw [if_neg hin, List.filter_cons_of_neg (mt hmem.mpr hin)]
        exact ih found hrest hlt

/-- Of keys that are distinct each gives its own value. -/
theorem lookup_of_mem : ∀ {members : List (String × Json ν)} {p : String × Json ν},
    (members.map Prod.fst).Nodup → p ∈ members → members.lookup p.1 = some p.2 := by
  intro members
  induction members with
  | nil => exact fun _ h => absurd h List.not_mem_nil
  | cons q rest ih =>
      intro p hnodup hmem
      rw [List.map_cons, List.nodup_cons] at hnodup
      rcases List.mem_cons.mp hmem with rfl | hmem
      · exact List.lookup_cons_self
      · -- The key is not that of the first member, which would be there twice.
        have hne : (p.1 == q.1) = false := by
          rw [beq_eq_false_iff_ne]
          rintro heq
          exact hnodup.1 (List.mem_map.mpr ⟨p, hmem, heq⟩)
        rw [List.lookup_cons, hne]
        exact ih hnodup.2 hmem

/-- A meat type that has only the six fields is copied as it is. -/
theorem sixFields_eq_self {meatType : Json ν} {members : List (String × Json ν)}
    (h : meatType = .object members) (hkeys : members.map Prod.fst = sixKeys) :
    sixFields meatType = meatType := by
  have hnodup : (members.map Prod.fst).Nodup := by
    rw [hkeys]
    decide
  have hfield : ∀ p ∈ members, (p.1, (Json.object members).field p.1) = p := fun p hp => by
    rw [Json.field, Json.members, lookup_of_mem hnodup hp]
    rfl
  rw [h, sixFields, ← hkeys, List.map_map, Json.object.injEq]
  calc members.map ((fun key => (key, (Json.object members).field key)) ∘ Prod.fst)
      = members.map id := List.map_congr_left hfield
    _ = members := List.map_id members

end Library

namespace Requests

open Effect (bind_ok)
open Library (Json AlgoFormed algoAnswer sixKeys sixFields)
open Push (MqsCldFile)

variable {ν : Type}

/-- The slices of a string that were sent since `w`, from an offset on, with
    what was returned for them. Either all were acknowledged and they are the
    rest of the string, or the last one was not and the zero response follows. -/
structure SlicesSent {P : Nat} (S : List UInt8) (offset : Nat) (w t : World ν P)
    (blocks : List (MqsCldFile P × UInt16)) : Prop where
  consecutive : Consecutive S.length offset (blocks.map Prod.fst)
  slices : ∀ p ∈ blocks, payload p.1 = (S.drop p.1.offset.toNat).take p.1.length.toNat
  ended :
    ((∀ p ∈ blocks, p.2 ≠ 0) ∧ (blocks.map fun p => payload p.1).flatten = S.drop offset ∧
      t.view.messages = w.view.messages ++ blocks.map fun p => (.file p.1, p.2)) ∨
    ∃ front block n, blocks = front ++ [(block, 0)] ∧ (∀ p ∈ front, p.2 ≠ 0) ∧
      t.view.messages =
        w.view.messages ++ blocks.map (fun p => (.file p.1, p.2)) ++ [(.file (zeroBlock P), n)]

variable (X : Context ν)

/-- The ids of the meat types of the company: those of the second query. -/
def idsRequested (w : World ν X.layout.payloadMax) : List Int :=
  (X.meatTypes (w.session.statements + 1)).rows

/-- The string that is to be sent. -/
def algoString (w : World ν X.layout.payloadMax) (originalJson : Json ν) : List UInt8 :=
  X.json.dump (algoAnswer w.isAlgorithmNeeded (idsRequested X w) originalJson)

variable {X}

/-! ### One pass -/

/-- The next slice of a string. -/
def sliceAt {P : Nat} (S : List UInt8) (offset size : Nat) (data : Vector UInt8 P) :
    MqsCldFile P :=
  { offset := UInt32.ofNat offset, length := UInt32.ofNat size,
    totalLength := UInt32.ofNat S.length, data := overwrite ((S.drop offset).take size) data }

/-- The whole string is sent. -/
theorem sendChunks_done (S : List UInt8) (offset fuel : Nat)
    (data : Vector UInt8 X.layout.payloadMax) (w : World ν X.layout.payloadMax) :
    sendChunks X S (fuel + 1) 0 offset data w = .ok () w := rfl

/-- A pass that sends a slice, and what follows it. -/
theorem sendChunks_pass (S : List UInt8) (remain offset : Nat)
    (data : Vector UInt8 X.layout.payloadMax) (w : World ν X.layout.payloadMax)
    (hremain : 0 < remain) :
    let block := sliceAt S offset (min remain X.layout.payloadMax) data
    ∃ t, t.view = w.view.sent (.file block) (dataSent X w.sends (.file block)) ∧
      ∀ fuel, sendChunks X S (fuel + 1) remain offset data w =
        if dataSent X w.sends (.file block) = 0 then fileErrorResponse X t
        else sendChunks X S fuel (remain - min remain X.layout.payloadMax)
          (offset + min remain X.layout.payloadMax) block.data t := by
  intro block
  -- The event mask is set before the block and, if it was sent, after it.
  rcases setEvents_view .epollOut w with ⟨u, hu, huview⟩
  have hsends : u.sends = w.sends := congrArg View.sends huview
  rcases amilinkSendMessage_view (.file block) u with ⟨v, hv, hvview⟩
  rw [hsends] at hv hvview
  by_cases hsent : dataSent X w.sends (.file block) = 0
  · refine ⟨v, by rw [hvview, huview], fun fuel => ?_⟩
    rw [sendChunks, if_pos hremain, bind_ok _ hu]
    change (amilinkSendMessage X (.file block) >>= _) u = _
    rw [bind_ok _ hv, if_pos hsent, if_pos hsent]
  · rcases setEvents_view .epollIn v with ⟨t, ht, htview⟩
    refine ⟨t, by rw [htview, hvview, huview], fun fuel => ?_⟩
    rw [sendChunks, if_pos hremain, bind_ok _ hu]
    change (amilinkSendMessage X (.file block) >>= _) u = _
    rw [bind_ok _ hv, if_neg hsent, if_neg hsent, bind_ok _ ht]
    rfl

/-- A slice is within the string, and has its bytes. -/
theorem sliceAt_spec {P : Nat} {S : List UInt8} (hshort : S.length < 2 ^ 32) {offset size : Nat}
    (data : Vector UInt8 P) (hpos : 0 < size) (hsize : size ≤ P)
    (hwithin : offset + size ≤ S.length) :
    (sliceAt S offset size data).length.toNat = size ∧
      payload (sliceAt S offset size data) =
        (S.drop (sliceAt S offset size data).offset.toNat).take size ∧
      payload (sliceAt S offset size data) ++ S.drop (offset + size) = S.drop offset ∧
      ∀ rest, Consecutive S.length (offset + size) rest →
        Consecutive S.length offset (sliceAt S offset size data :: rest) := by
  have hlength : (sliceAt S offset size data).length.toNat = size := toNat_ofNat_lt (by omega)
  have hoffset : (sliceAt S offset size data).offset.toNat = offset := toNat_ofNat_lt (by omega)
  have htotal : (sliceAt S offset size data).totalLength.toNat = S.length :=
    toNat_ofNat_lt (by omega)
  -- The slice lies inside the file, so it has all its bytes.
  have hslice : ((S.drop offset).take size).length = size := by
    rw [List.length_take, List.length_drop]
    omega
  have hpayload : payload (sliceAt S offset size data) = (S.drop offset).take size := by
    have htake := take_overwrite ((S.drop offset).take size) data (by rw [hslice]; exact hsize)
    rw [hslice] at htake
    rw [payload, hlength]
    exact htake
  refine ⟨hlength, by rw [hoffset]; exact hpayload, ?_, fun rest hrest => ?_⟩
  · rw [hpayload, ← List.drop_drop, List.take_append_drop]
  · rw [← hlength] at hpos hsize hwithin hrest
    exact .cons hoffset hpos hsize htotal hwithin hrest

/-! ### The whole loop -/

/-- A slice in front of those of the passes behind it. -/
theorem slicesSent_cons {P : Nat} {S : List UInt8} {offset size : Nat} {w t u : World ν P}
    {block : MqsCldFile P} {n : UInt16} {blocks : List (MqsCldFile P × UInt16)} (hn : n ≠ 0)
    (hview : t.view = w.view.sent (.file block) n)
    (hslice : payload block = (S.drop block.offset.toNat).take block.length.toNat)
    (happend : payload block ++ S.drop (offset + size) = S.drop offset)
    (hblock : ∀ rest, Consecutive S.length (offset + size) rest →
      Consecutive S.length offset (block :: rest))
    (h : SlicesSent S (offset + size) t u blocks) :
    SlicesSent S offset w u ((block, n) :: blocks) where
  consecutive := hblock _ h.consecutive
  slices := List.forall_mem_cons.mpr ⟨hslice, h.slices⟩
  ended := by
    have hmessages : t.view.messages = w.view.messages ++ [(.file block, n)] :=
      congrArg View.messages hview
    rcases h.ended with ⟨hall, hflatten, hsent⟩ | ⟨front, last, m, hlast, hfront, hsent⟩
    · -- All blocks were sent.
      refine .inl ⟨List.forall_mem_cons.mpr ⟨hn, hall⟩, ?_, ?_⟩
      · rw [List.map_cons, List.flatten_cons, hflatten]
        exact happend
      · rw [hsent, hmessages, List.map_cons, List.append_assoc]
        rfl
    · -- The first failed one ends it.
      refine .inr ⟨(block, n) :: front, last, m, ?_, List.forall_mem_cons.mpr ⟨hn, hfront⟩, ?_⟩
      · rw [hlast]
        rfl
      · rw [hsent, hmessages, List.map_cons, List.append_assoc _ [_]]
        rfl

/-- The run of the loop from a state with `remain` bytes to go. -/
theorem sendChunks_slices (hX : X.Lawful) (S : List UInt8) (hshort : S.length < 2 ^ 32) :
    ∀ (remain offset : Nat) (data : Vector UInt8 X.layout.payloadMax)
      (w : World ν X.layout.payloadMax), offset + remain = S.length →
    ∃ fuel t blocks, sendChunks X S fuel remain offset data w = .ok () t ∧
      SlicesSent S offset w t blocks := by
  intro remain
  induction remain using Nat.strong_induction_on with
  | _ remain ih =>
      intro offset data w hsum
      have hmax := hX.payloadMax_pos
      by_cases hremain : remain = 0
      · -- The string has been sent.
        refine ⟨1, w, [], ?_, .nil _, fun p hp => absurd hp List.not_mem_nil,
          .inl ⟨fun p hp => absurd hp List.not_mem_nil, ?_, (List.append_nil _).symm⟩⟩
        · rw [hremain]
          exact sendChunks_done S offset 0 data w
        · rw [List.drop_of_length_le (by omega)]
          rfl
      have hpos : 0 < min remain X.layout.payloadMax :=
        Nat.lt_min.mpr ⟨Nat.pos_of_ne_zero hremain, hmax⟩
      have hle : min remain X.layout.payloadMax ≤ remain := Nat.min_le_left _ _
      have hwithin : offset + min remain X.layout.payloadMax ≤ S.length := by omega
      -- One pass, with its slice.
      rcases sendChunks_pass S remain offset data w (Nat.pos_of_ne_zero hremain) with
        ⟨t, hview, hrun⟩
      rcases sliceAt_spec hshort data hpos (Nat.min_le_right _ _) hwithin with
        ⟨hlength, hslice, happend, hblock⟩
      generalize min remain X.layout.payloadMax = size at *
      generalize hslices : sliceAt S offset size data = block at *
      rw [← hlength] at hslice
      by_cases hsent : dataSent X w.sends (.file block) = 0
      · -- The slice is not acknowledged.
        rcases fileErrorResponse_view t with ⟨u, hu, huview⟩
        refine ⟨1, u, [(block, 0)], ?_, hblock [] (.nil _), ?_, .inr ⟨[], block,
          dataSent X t.sends (.file (zeroBlock _)), rfl, ?_, ?_⟩⟩
        · rw [hrun 0, if_pos hsent]
          exact hu
        · exact List.forall_mem_cons.mpr ⟨hslice, fun p hp => absurd hp List.not_mem_nil⟩
        · exact fun p hp => absurd hp List.not_mem_nil
        · rw [huview, hview, hsent]
          rfl
      · -- The loop goes on behind the slice.
        rcases ih (remain - size) (by omega) (offset + size) block.data t (by omega) with
          ⟨fuel, u, blocks, hrest, hslicesSent⟩
        refine ⟨fuel + 1, u, (block, dataSent X w.sends (.file block)) :: blocks, ?_,
          slicesSent_cons hsent hview hslice happend hblock hslicesSent⟩
        rw [hrun fuel, if_neg hsent]
        exact hrest

/-! ### The request -/

/-- The state behind the two queries. -/
def queried (w : World ν X.layout.payloadMax) : World ν X.layout.payloadMax :=
  { w with
    session := { w.session with statements := w.session.statements + 2 }
    log := w.log ++ [.query (.company w.session.idDevice)] ++
      [.query (.meatTypes ((X.companies w.session.statements).rows.headD 0))] }

theorem queried_view (w : World ν X.layout.payloadMax) : (queried w).view = w.view := by
  simp only [World.view, queried, List.filterMap_append, List.filterMap_cons, List.filterMap_nil,
    message?, List.append_nil]

theorem handleAlgoRequest_run (fuel : Nat) (filename : List UInt8)
    (w : World ν X.layout.payloadMax) :
    handleAlgoRequest X fuel filename w =
      catchException X (sendAlgoFile X fuel (idsRequested X w) filename) (fileErrorResponse X)
        (queried w) := rfl

/-- The algorithm is taken if it is needed. -/
theorem takeAlgorithm_eq (hjson : X.json.Documented) {originalJson : Json ν}
    (hobject : originalJson = .null ∨ ∃ members, originalJson = .object members)
    (w : World ν X.layout.payloadMax) :
    takeAlgorithm X originalJson w =
      .ok (if w.isAlgorithmNeeded then some (originalJson.field "algorithm") else none)
        { w with isAlgorithmNeeded := false } := by
  have hget : (get : X.M _) w = .ok w w := rfl
  rw [takeAlgorithm, bind_ok _ hget]
  by_cases hneeded : w.isAlgorithmNeeded = true
  · rw [if_pos hneeded, if_pos hneeded, hjson.index _ _ hobject]
    rfl
  · rw [if_neg hneeded, if_neg hneeded, ← Bool.eq_false_iff.mpr hneeded]
    rfl

/-- What is done with the meat types found. -/
theorem sendAlgoJson_ok (hjson : X.json.Documented) {originalJson : Json ν}
    (hobject : originalJson = .null ∨ ∃ members, originalJson = .object members)
    {requestedIds : List Int} {found : List (Json ν)}
    (hfound : Library.filterMeatTypes X.json requestedIds
      (originalJson.field "meat_types").elements [] = .ok found)
    (fuel : Nat) (w : World ν X.layout.payloadMax) :
    let S := X.json.dump (Library.answer
      (if w.isAlgorithmNeeded then some (originalJson.field "algorithm") else none) found)
    sendAlgoJson X fuel requestedIds originalJson w =
      sendChunks X S fuel S.length 0 (Vector.replicate _ 0)
        { w with isAlgorithmNeeded := false } := by
  intro S
  rw [sendAlgoJson, bind_ok _ (takeAlgorithm_eq hjson hobject w), hjson.index _ _ hobject]
  change (lift X (Library.filterMeatTypes X.json requestedIds (X.json.elements _) []) >>= _) _ = _
  rw [hjson.elements, hfound]
  rfl

/-- The answer for a file that is well formed. -/
theorem answer_eq (isAlgorithmNeeded : Bool) (requestedIds : List Int) (originalJson : Json ν) :
    Library.answer (if isAlgorithmNeeded then some (originalJson.field "algorithm") else none)
      (Library.requestedMeatTypes requestedIds originalJson) =
    algoAnswer isAlgorithmNeeded requestedIds originalJson := by
  cases isAlgorithmNeeded with
  | true => rfl
  | false => rfl

/-- A request for such a file sends slices of the one string. -/
theorem algo_streamed (hX : X.Lawful) (hjson : X.json.Documented) (filename : List UInt8)
    (originalJson : Json ν) (hfile : X.file (Library.path filename) = .json originalJson)
    (hformed : AlgoFormed originalJson) (w : World ν X.layout.payloadMax)
    (hshort : (algoString X w originalJson).length < 2 ^ 32) :
    (∃ fuel t blocks, handleAlgoRequest X fuel filename w = .ok () t ∧
      SlicesSent (algoString X w originalJson) 0 w t blocks) ∧
    ∀ meatType ∈ (originalJson.field "meat_types").elements,
      meatType.members.map Prod.fst = sixKeys → sixFields meatType = meatType := by
  refine ⟨?_, fun meatType hmem hkeys => ?_⟩
  · have hfound := Library.filterMeatTypes_eq hjson (idsRequested X w) _ [] hformed.meatTypes
      (Nat.succ_pos 4)
    rw [List.nil_append] at hfound
    rcases sendChunks_slices hX (algoString X w originalJson) hshort _ 0 (Vector.replicate _ 0)
      { queried w with isAlgorithmNeeded := false } (Nat.zero_add _) with
      ⟨fuel, t, blocks, hrun, hslices⟩
    have hbody : sendAlgoFile X fuel (idsRequested X w) filename (queried w) = .ok () t := by
      have hsend := sendAlgoJson_ok hjson hformed.object hfound fuel (queried w)
      have hanswer := answer_eq w.isAlgorithmNeeded (idsRequested X w) originalJson
      rw [algoString, ← hanswer] at hrun
      unfold sendAlgoFile
      rw [hfile]
      exact hsend.trans hrun
    -- The queries leave no message.
    have hmessages := congrArg View.messages (queried_view w)
    refine ⟨fuel, t, blocks, ?_, hslices.consecutive, hslices.slices, ?_⟩
    · rw [handleAlgoRequest_run, catchException, hbody]
    · rw [← hmessages]
      exact hslices.ended
  · -- Only an object has fields.
    have hfields := (hformed.meatTypes meatType hmem).fields
    cases meatType with
    | object members => exact Library.sixFields_eq_self rfl hkeys
    | _ => exact absurd (hfields "id" (by decide)) Bool.false_ne_true

/-- A meat type. -/
def sampleMeatType (id : Int) : Json UInt32 :=
  .object [("adjConstant", .float 1), ("cubic", .float 2), ("id", .integer id),
    ("linear", .float 3), ("max_days", .integer 21), ("quadratic", .float 4)]

/-- A file with two meat types. -/
def sampleLibrary : Json UInt32 :=
  .object [("meat_types", .array [sampleMeatType 6, sampleMeatType 7])]

theorem sampleMeatType_formed (id : Int) (hlow : -(2 ^ 31) ≤ id) (hhigh : id < 2 ^ 31) :
    Library.MeatTypeFormed (sampleMeatType id) where
  fields := by
    simp only [sixKeys, List.forall_mem_cons]
    exact ⟨rfl, rfl, rfl, rfl, rfl, rfl, fun _ hkey => absurd hkey List.not_mem_nil⟩
  id := ⟨id, rfl, hlow, hhigh⟩

theorem sampleLibrary_formed : AlgoFormed sampleLibrary where
  object := .inr ⟨_, rfl⟩
  meatTypes := List.forall_mem_cons.mpr ⟨sampleMeatType_formed 6 (by decide) (by decide),
    List.forall_mem_cons.mpr ⟨sampleMeatType_formed 7 (by decide) (by decide),
      fun _ hmeatType => absurd hmeatType List.not_mem_nil⟩⟩

/-- A server with this file. -/
def algoServer : Context UInt32 := { quietServer with file := fun _ => .json sampleLibrary }

theorem algoServer_lawful : algoServer.Lawful :=
  ⟨quietServer_lawful.1, quietServer_lawful.2, quietServer_lawful.3, quietServer_lawful.4,
    quietServer_lawful.5⟩

/-- One of the two meat types is requested, and sent. -/
theorem algo_streamed_sample :
    ∃ fuel t blocks, handleAlgoRequest algoServer fuel (bytesOf "a.algo") (openedWorld _) =
      .ok () t ∧ SlicesSent (dumpJson (.object [("meat_types", .array [sampleMeatType 7])])) 0
        (openedWorld _) t blocks :=
  (algo_streamed algoServer_lawful (Library.nlohmann_documented _ _) (bytesOf "a.algo")
    sampleLibrary rfl sampleLibrary_formed (openedWorld _) (by decide +kernel)).1

end Requests

end EpollServer
