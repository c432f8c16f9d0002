import EpollServer.Lib.Splice
import EpollServer.Theory.Blocks

/-!
# The Batches of a Company

What `handleDataFetchRequest` answers, for every company and every result of
the batch query.

The response has five entries. How many are filled is decided by the number of
the last row, which `getStructBatchCodesByCurrentDate` returns beside the codes,
and nothing compares it with five: the loop over a sixth row writes behind the
array. The two counts do agree. After `SQLException` the number is 0, whatever
was read before, and then all entries are cleared; otherwise all rows were
read.

So the answer is right if and only if the number of the last row is between 0
and 5. It is an `int`, so that this is the number of rows as long as there are
fewer than `2 ^ 31`.

## Main definitions

* `batchResult`: The rows of the query.
* `batchEntry`: The entry for a row.
* `BatchesAnswered`: The answer that is asked for.

## Theorems

* `copyBatches_fits`, `copyBatches_overruns`: The loop over the rows.
* `handleDataFetchRequest_run`: The request, from the result of its query.
* `batches_answered_iff`: When the answer is right.
-/

namespace EpollServer

namespace Requests

open Effect Splice

variable {ν : Type} (X : Context ν)

/-- The company of the device. -/
def company (w : World ν X.layout.payloadMax) : Int :=
  (X.companies w.session.statements).rows.headD 0

/-- The result of the batch query. It is not made for the company 0. -/
def batchResult (w : World ν X.layout.payloadMax) : ResultSet BatchRow :=
  if company X w = 0 then { rows := [], throws := false } else X.batches (w.session.statements + 1)

/-- The entry for a row: its meat type, its uid and its code, cut to the size of
    both arrays. -/
def batchEntry (row : BatchRow) : Batch :=
  { batchNumber := ((row.batchCode.takeWhile (· ≠ 0)).take 8).take X.sizeofBatchNumber
    meat_type := row.meatType
    batch_uid := row.batch_uid }

/-- The answer to a request for the batches: five entries, of which as many as
    the count says are filled, each with its row, and the others are cleared. -/
def BatchesAnswered (w : World ν X.layout.payloadMax) : Prop :=
  ∃ (t : World ν X.layout.payloadMax) (count : Nat) (batchStruct : List Batch) (n : UInt16),
    handleDataFetchRequest X w = .ok () t ∧
      t.view.messages = w.view.messages ++ [(.fetchTest count batchStruct, n)] ∧
      batchStruct.length = 5 ∧ count ≤ 5 ∧ count ≤ (batchResult X w).rows.length ∧
      (∀ i < count, batchStruct[i]? = (batchResult X w).rows[i]?.map (batchEntry X)) ∧
      ∀ i < 5, count ≤ i → batchStruct[i]? = some noBatch

/-- There is no company, or the query throws, or the number of its last row, cut
    to an `int`, is between 0 and 5. -/
def FewBatches (w : World ν X.layout.payloadMax) : Prop :=
  company X w = 0 ∨ (X.batches (w.session.statements + 1)).throws = true ∨
    0 ≤ ((X.batches (w.session.statements + 1)).rows.length : Int).bmod (2 ^ 32) ∧
      ((X.batches (w.session.statements + 1)).rows.length : Int).bmod (2 ^ 32) ≤ 5

variable {X}

/-! ### The loop -/

/-- The codes as `getStructBatchCodesByCurrentDate` returns them. -/
def codesOf (rows : List BatchRow) : List BatchRow :=
  rows.map fun row => { row with batchCode := (row.batchCode.takeWhile (· ≠ 0)).take 8 }

theorem copyBatches_row (row : BatchRow) (rows : List BatchRow) (i : Nat)
    (batchStruct : List Batch) (h : i < batchStruct.length) :
    copyBatches X i (codesOf (row :: rows)) batchStruct =
      copyBatches X (i + 1) (codesOf rows) (batchStruct.set i (batchEntry X row)) := by
  simp only [codesOf, List.map_cons, copyBatches, if_pos h]
  rfl

/-- Rows that fit are written one behind the other. -/
theorem copyBatches_fits : ∀ (rows : List BatchRow) (i : Nat) (batchStruct : List Batch),
    i + rows.length ≤ batchStruct.length →
    copyBatches X i (codesOf rows) batchStruct =
      .ok (splice batchStruct (rows.map (batchEntry X)) i) := by
  intro rows
  -- Induction on the rows: one entry for each.
  induction rows with
  | nil =>
      intro i batchStruct _
      rw [List.map_nil, splice, List.append_nil, List.length_nil, Nat.add_zero,
        List.take_append_drop]
      rfl
  | cons row rows ih =>
      intro i batchStruct h
      rw [List.length_cons] at h
      have hlt : i < batchStruct.length := by omega
      rw [copyBatches_row row rows i batchStruct hlt,
        ih (i + 1) _ (by rw [List.length_set]; omega), splice_set _ _ _ _ hlt, List.map_cons]

/-- One row more, and the loop leaves the array. -/
theorem copyBatches_overruns : ∀ (rows : List BatchRow) (i : Nat) (batchStruct : List Batch),
    i ≤ batchStruct.length → batchStruct.length < i + rows.length →
    copyBatches X i (codesOf rows) batchStruct = .error .undefined := by
  intro rows
  -- Induction on the rows; the entries run out before them.
  induction rows with
  | nil =>
      intro i batchStruct hle hlt
      rw [List.length_nil] at hlt
      omega
  | cons row rows ih =>
      intro i batchStruct hle hlt
      rw [List.length_cons] at hlt
      by_cases hin : i < batchStruct.length
      · rw [copyBatches_row row rows i batchStruct hin]
        exact ih (i + 1) _ (by rw [List.length_set]; omega) (by rw [List.length_set]; omega)
      · simp only [codesOf, List.map_cons, copyBatches, if_neg hin]
        rfl

/-! ### The request -/

/-- What the request knows of the batches. -/
def batchInfo (X : Context ν) (w : World ν X.layout.payloadMax) : BatchInfo :=
  { batchCodes := codesOf (batchResult X w).rows
    totalCount := if (batchResult X w).throws then 0
      else ((batchResult X w).rows.length : Int).bmod (2 ^ 32) }

theorem query_view (q : Query) (w : World ν X.layout.payloadMax) :
    ∃ t, query X q w = .ok w.session.statements t ∧ t.view = w.view ∧
      t.session.statements = w.session.statements + 1 := by
  refine ⟨_, rfl, ?_, rfl⟩
  simp only [World.view, View.mk.injEq, true_and]
  rw [List.filterMap_append]
  exact List.append_nil _

/-- The request, from the result of its queries. -/
theorem handleDataFetchRequest_run (w : World ν X.layout.payloadMax) :
    ∃ u : World ν X.layout.payloadMax, u.view = w.view ∧ handleDataFetchRequest X w =
      (fillBatches X (batchInfo X w) >>= fun batchStruct =>
        respond X (.fetchTest (batchInfo X w).totalCount batchStruct)) u := by
  have hget : (get : X.M _) w = .ok w w := rfl
  rcases query_view (X := X) (.company w.session.idDevice) w with ⟨t, ht, htview, htcount⟩
  have hcompany : getCompanyIDFromDevice X w.session.idDevice w = .ok (company X w) t := by
    rw [getCompanyIDFromDevice, bind_ok _ ht]
    rfl
  rw [handleDataFetchRequest, bind_ok _ hget, bind_ok _ hcompany, companyBatches]
  -- A device without a company has no batches, and no query is made for them.
  by_cases hzero : company X w = 0
  · have hinfo : batchInfo X w = { batchCodes := [], totalCount := 0 } := by
      rw [batchInfo, batchResult, if_pos hzero]
      rfl
    refine ⟨t, htview, ?_⟩
    rw [if_pos hzero, hinfo]
    rfl
  · rcases query_view (X := X) (.batches (company X w)) t with ⟨u, hu, huview, _⟩
    have hbatches : getStructBatchCodesByCurrentDate X (company X w) t = .ok (batchInfo X w) u := by
      rw [getStructBatchCodesByCurrentDate, bind_ok _ hu, htcount, batchInfo, batchResult,
        if_neg hzero]
      rfl
    refine ⟨u, huview.trans htview, ?_⟩
    rw [if_neg hzero, bind_ok _ hbatches]

/-- The number of the last row is at most the number of rows. -/
theorem totalCount_le (X : Context ν) (w : World ν X.layout.payloadMax) :
    (batchInfo X w).totalCount.toNat ≤ (batchResult X w).rows.length := by
  simp only [batchInfo]
  by_cases hthrows : (batchResult X w).throws = true
  · rw [if_pos hthrows]
    exact Nat.zero_le _
  · rw [if_neg hthrows, Int.bmod_def]
    omega

theorem few_iff (w : World ν X.layout.payloadMax) :
    FewBatches X w ↔ 0 ≤ (batchInfo X w).totalCount ∧ (batchInfo X w).totalCount ≤ 5 := by
  rw [FewBatches]
  -- The three ways to few batches: no company, an exception, or few rows.
  by_cases hzero : company X w = 0
  · have hcount : (batchInfo X w).totalCount = 0 := by
      rw [batchInfo, batchResult, if_pos hzero]
      rfl
    rw [hcount]
    exact iff_of_true (.inl hzero) ⟨Int.le_refl 0, by omega⟩
  · have hresult : batchResult X w = X.batches (w.session.statements + 1) := if_neg hzero
    rw [← hresult]
    by_cases hthrows : (batchResult X w).throws = true
    · have hcount : (batchInfo X w).totalCount = 0 := if_pos hthrows
      rw [hcount]
      exact iff_of_true (.inr (.inl hthrows)) ⟨Int.le_refl 0, by omega⟩
    · have hcount : (batchInfo X w).totalCount =
          ((batchResult X w).rows.length : Int).bmod (2 ^ 32) := if_neg hthrows
      rw [hcount]
      exact ⟨fun h => (h.resolve_left hzero).resolve_left hthrows, fun h => .inr (.inr h)⟩

/-- The entries for up to five rows. -/
def filled (X : Context ν) (w : World ν X.layout.payloadMax) : List Batch :=
  splice (List.replicate 5 noBatch)
    (((batchResult X w).rows.take (batchInfo X w).totalCount.toNat).map (batchEntry X)) 0

/-- The codes the loop goes through. -/
theorem take_batchCodes (X : Context ν) (w : World ν X.layout.payloadMax) :
    (batchInfo X w).batchCodes.take (batchInfo X w).totalCount.toNat =
      codesOf ((batchResult X w).rows.take (batchInfo X w).totalCount.toNat) := by
  rw [batchInfo, codesOf, codesOf, List.map_take]

theorem fillBatches_fits (w u : World ν X.layout.payloadMax)
    (h : (batchInfo X w).totalCount ≤ 5) :
    fillBatches X (batchInfo X w) u = .ok (filled X w) u := by
  rw [fillBatches]
  by_cases hzero : (batchInfo X w).totalCount = 0
  · rw [if_pos hzero, filled, hzero]
    rfl
  · rw [if_neg hzero, take_batchCodes, copyBatches_fits _ 0 _ (by
      rw [List.length_take, List.length_replicate]
      omega)]
    rfl

theorem fillBatches_overruns (w u : World ν X.layout.payloadMax)
    (h : 5 < (batchInfo X w).totalCount) :
    fillBatches X (batchInfo X w) u = .error .undefined u := by
  have hle := totalCount_le X w
  have hlong : (List.replicate 5 noBatch).length <
      0 + ((batchResult X w).rows.take (batchInfo X w).totalCount.toNat).length := by
    rw [List.length_take, List.length_replicate]
    omega
  rw [fillBatches, if_neg (by omega), take_batchCodes,
    copyBatches_overruns _ 0 _ (Nat.zero_le _) hlong]
  rfl

theorem length_filled (w : World ν X.layout.payloadMax) (h : (batchInfo X w).totalCount ≤ 5) :
    (filled X w).length = 5 := by
  rw [filled, length_splice _ _ _ (by
    rw [List.length_map, List.length_take, List.length_replicate]
    omega), List.length_replicate]

/-- The entries in front of the count are the rows, and those behind it are
    cleared. -/
theorem getElem?_filled (w : World ν X.layout.payloadMax)
    (h : (batchInfo X w).totalCount ≤ 5) (i : Nat) :
    (filled X w)[i]? =
      if i < (batchInfo X w).totalCount.toNat then (batchResult X w).rows[i]?.map (batchEntry X)
      else (List.replicate 5 noBatch)[i]? := by
  have hle := totalCount_le X w
  have hlen : (((batchResult X w).rows.take (batchInfo X w).totalCount.toNat).map
      (batchEntry X)).length = (batchInfo X w).totalCount.toNat := by
    rw [List.length_map, List.length_take]
    omega
  rw [filled, getElem?_splice _ _ _ _ (by rw [hlen, List.length_replicate]; omega), hlen,
    Nat.zero_add, Nat.sub_zero]
  -- The entries in front are the rows, those behind as they were made.
  by_cases hi : i < (batchInfo X w).totalCount.toNat
  · rw [if_pos ⟨Nat.zero_le i, hi⟩, if_pos hi, List.getElem?_map, List.getElem?_take_of_lt hi]
  · rw [if_neg (fun hin => hi hin.2), if_neg hi]

/-- For every company and every result of the batch query, the answer is right
    if and only if the rows are few. -/
theorem batches_answered_iff (X : Context ν) (w : World ν X.layout.payloadMax) :
    BatchesAnswered X w ↔ FewBatches X w := by
  rw [few_iff]
  rcases handleDataFetchRequest_run (X := X) w with ⟨u, huview, hrun⟩
  have hle := totalCount_le X w
  by_cases hfew : (batchInfo X w).totalCount ≤ 5
  · rw [bind_ok _ (fillBatches_fits w u hfew)] at hrun
    rcases respond_view (.fetchTest (batchInfo X w).totalCount (filled X w)) u with
      ⟨t, ht, htview⟩
    rw [ht] at hrun
    have hmessages : t.view.messages = w.view.messages ++
        [(.fetchTest (batchInfo X w).totalCount (filled X w),
          dataSent X u.sends (.fetchTest (batchInfo X w).totalCount (filled X w)))] := by
      rw [htview, huview]
      rfl
    constructor
    · rintro ⟨t', count, batchStruct, n, hrun', hmessages', _⟩
      -- The count in the message is that of the request.
      rw [hrun, EStateM.Result.ok.injEq] at hrun'
      rw [← hrun'.2, hmessages] at hmessages'
      have hsame := List.append_cancel_left hmessages'
      simp only [List.cons.injEq, Prod.mk.injEq, Response.fetchTest.injEq] at hsame
      exact ⟨by omega, hfew⟩
    · rintro ⟨hpos, _⟩
      -- The count is not negative, so that it is a number of rows.
      have hcount : ((batchInfo X w).totalCount.toNat : Int) = (batchInfo X w).totalCount :=
        Int.toNat_of_nonneg hpos
      have hfive : (batchInfo X w).totalCount.toNat ≤ 5 := by omega
      refine ⟨t, (batchInfo X w).totalCount.toNat, filled X w,
        dataSent X u.sends (.fetchTest (batchInfo X w).totalCount (filled X w)), hrun, ?_,
        length_filled w hfew, hfive, hle, fun i hi => ?_, fun i hi hge => ?_⟩
      · rw [hcount]
        exact hmessages
      · rw [getElem?_filled w hfew, if_pos hi]
      · rw [getElem?_filled w hfew, if_neg (by omega), List.getElem?_replicate, if_pos hi]
  · rw [bind_error _ (fillBatches_overruns w u (by omega))] at hrun
    refine iff_of_false ?_ (fun h => hfew h.2)
    rintro ⟨t', count, batchStruct, n, hrun', _⟩
    rw [hrun] at hrun'
    simp only [reduceCtorEq] at hrun'

/-- A server whose batch query gives six rows. -/
def sixBatches : Context UInt32 :=
  { quietServer with batches := fun _ =>
      { rows := (List.range 6).map fun i => ⟨[65], UInt32.ofNat i, UInt32.ofNat i⟩
        throws := false } }

/-- With six batches the answer is not right. -/
theorem six_batches_not_answered : ¬ BatchesAnswered sixBatches (openedWorld _) := by
  rintro ⟨t, count, batchStruct, n, hrun, _⟩
  have hundefined : ∃ u, handleDataFetchRequest sixBatches (openedWorld _) =
      .error .undefined u := ⟨_, rfl⟩
  rcases hundefined with ⟨u, hu⟩
  rw [hu] at hrun
  simp only [reduceCtorEq] at hrun

end Requests

end EpollServer
