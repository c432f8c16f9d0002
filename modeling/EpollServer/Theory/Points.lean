import EpollServer.Theory.Inserts

/-!
# Where the Data Points Go

The rows of a raw data set that was stored without an exception.

Both sweeps have their points in one array, the second behind the first, and
each of the two loops reads its part of it from an offset. The rows are in the
order of the array again: the k-th of them holds the k-th point, under the id
of the sweep it belongs to and with its index there (`pointRow`). That needs no
more than that the counts do not wrap when they are added.

The ids come from the database. That a query for the last one gives the id of
the row inserted before it is a condition on the log of the run
(`AnswersLastId`), which then says what the two queries have returned.

## Main definitions

* `AnswersLastId`: Every query in a log gives the id of the last sweep.
* `pointRow`: The row of a point of the array.
* `StoredWhole`: The tables after a raw data set was stored.

## Theorems

* `answersLastId_append`: Two logs, one after the other.
* `ids_of_answersLastId`: The two queries of a run give the ids of its sweeps.
* `after_sweepEvents`: The tables after one sweep.
* `rows_of_slices`: The rows of two slices, in the order of the array.
* `points_stored`: A raw data set is stored without loss, overlap or mix-up.
-/

namespace EpollServer

namespace Push

variable {ν : Type}

/-- Every query for the last id that succeeds, from the `n`-th statement on,
    gives the id of the sweep that was inserted last. -/
def AnswersLastId (env : Environment) : Nat → Database ν → List (Event ν) → Prop
  | _, _, [] => True
  | n, db, e :: E =>
      (e = .statement .selectLastInsertId true →
        env.outcomes n = .done (db.sweeps.getLast?.map SweepRow.id)) ∧
      AnswersLastId env (n + (flags [e]).length) (db.record e) E

instance decidableAnswersLastId [DecidableEq ν] (env : Environment) :
    ∀ (n : Nat) (db : Database ν) (E : List (Event ν)), Decidable (AnswersLastId env n db E)
  | _, _, [] => isTrue trivial
  | n, db, e :: E =>
      have := decidableAnswersLastId env (n + (flags [e]).length) (db.record e) E
      inferInstanceAs (Decidable ((_ → _) ∧ _))

/-- The row of the `k`-th point of the array. -/
def RawDataSet.pointRow (rawDataSet : RawDataSet ν) (baseId afterExposureId : UInt32) (k : Nat) :
    PointRow ν :=
  if k < rawDataSet.base.dataCount.toNat then
    { raw_data_sweep_id := baseId, index := UInt32.ofNat k, point := rawDataSet.data k }
  else
    { raw_data_sweep_id := afterExposureId
      index := UInt32.ofNat (k - rawDataSet.base.dataCount.toNat), point := rawDataSet.data k }

/-- The tables after a raw data set was stored: two sweeps, a row for each point
    of the array, and the row of the data set refers to the sweeps. -/
structure StoredWhole (idDevice : UInt64) (rawDataSet : RawDataSet ν)
    (baseId afterExposureId : UInt32) (db db' : Database ν) : Prop where
  ids : baseId = db.nextSweepId ∧ afterExposureId = db.nextSweepId + 1
  sweeps : db'.sweeps = db.sweeps ++
    [{ id := baseId, startFrequency := rawDataSet.base.startFrequency,
       frequencyIncrement := rawDataSet.base.frequencyIncrement },
     { id := afterExposureId, startFrequency := rawDataSet.afterExposure.startFrequency,
       frequencyIncrement := rawDataSet.afterExposure.frequencyIncrement }]
  points : db'.points = db.points ++ (List.range
    (rawDataSet.base.dataCount.toNat + rawDataSet.afterExposure.dataCount.toNat)).map
      (rawDataSet.pointRow baseId afterExposureId)
  dataSets : db'.dataSets = db.dataSets.map fun row =>
    if row.isOf idDevice rawDataSet.idMeasurement then
      { row with sweeps := some (baseId, afterExposureId) }
    else row
  frequencies : db'.frequencies = db.frequencies

/-! ### The ids -/

theorem answersLastId_append (env : Environment) : ∀ (E F : List (Event ν)) (n : Nat)
    (db : Database ν), AnswersLastId env n db (E ++ F) ↔
      AnswersLastId env n db E ∧ AnswersLastId env (n + (flags E).length) (db.after E) F := by
  intro E
  induction E with
  | nil => exact fun F n db => ⟨fun h => ⟨trivial, h⟩, fun h => h.2⟩
  | cons e E ih =>
      intro F n db
      have hlen : (flags (e :: E)).length = (flags [e]).length + (flags E).length := by
        rw [← List.singleton_append, flags_append, List.length_append]
      rw [List.cons_append, AnswersLastId, AnswersLastId, ih, hlen, Nat.add_assoc, and_assoc]
      rfl

/-! ### The tables -/

/-- The rows that a loop over `n` points adds, from index `i` on. -/
theorem after_pointEvents_rows (rawDataSet : RawDataSet ν) (id dataOffset : UInt32) :
    ∀ (n i : Nat) (db : Database ν), dataOffset.toNat + i + n < 2 ^ 32 →
      db.after (pointEvents rawDataSet id dataOffset n (UInt32.ofNat i)) =
        { db with points := db.points ++ (List.range' i n).map fun j =>
            { raw_data_sweep_id := id, index := UInt32.ofNat j,
              point := rawDataSet.data (dataOffset.toNat + j) } } := by
  -- Induction on the points; below 2 ^ 32 no index wraps.
  intro n
  induction n with
  | zero =>
      intro i db _
      rw [List.range'_zero, List.map_nil, List.append_nil]
      rfl
  | succ n ih =>
      intro i db hlt
      have hindex : (dataOffset + UInt32.ofNat i).toNat = dataOffset.toNat + i := by
        rw [UInt32.toNat_add, UInt32.toNat_ofNat_of_lt' (by rw [UInt32.size]; omega)]
        exact Nat.mod_eq_of_lt (by omega)
      have hnext : UInt32.ofNat i + 1 = UInt32.ofNat (i + 1) := (UInt32.ofNat_add i 1).symm
      have hstep : db.after (pointEvents rawDataSet id dataOffset (n + 1) (UInt32.ofNat i)) =
          (db.execute (.insertDatapoint id (UInt32.ofNat i)
            (rawDataSet.data (dataOffset + UInt32.ofNat i).toNat))).after
              (pointEvents rawDataSet id dataOffset n (UInt32.ofNat i + 1)) := rfl
      rw [hstep, hnext, ih (i + 1) _ (by omega), hindex, List.range'_succ, List.map_cons]
      simp only [Database.execute, List.append_assoc, List.singleton_append]

/-- The tables after one sweep with all its points. -/
theorem after_sweepEvents (rawDataSet : RawDataSet ν) (sweep : RawDataSweep ν)
    (dataOffset id : UInt32) (db : Database ν)
    (h : dataOffset.toNat + sweep.dataCount.toNat < 2 ^ 32) :
    db.after (sweepEvents rawDataSet sweep dataOffset id) =
      { db.execute (.insertSweep sweep.startFrequency sweep.frequencyIncrement) with
        points := db.points ++ (List.range sweep.dataCount.toNat).map fun j =>
          { raw_data_sweep_id := id, index := UInt32.ofNat j,
            point := rawDataSet.data (dataOffset.toNat + j) } } := by
  have hrows := after_pointEvents_rows rawDataSet id dataOffset sweep.dataCount.toNat 0
    (db.execute (.insertSweep sweep.startFrequency sweep.frequencyIncrement)) (by omega)
  rw [sweepEvents, database_after_append, List.range_eq_range']
  exact hrows

/-- The queries of a log that stores a raw data set give the next two ids. -/
theorem ids_of_answersLastId (env : Environment) (idDevice : UInt64) (rawDataSet : RawDataSet ν)
    (n : Nat) (baseId afterExposureId : UInt32) (db : Database ν)
    (hcount : rawDataSet.base.dataCount.toNat + rawDataSet.afterExposure.dataCount.toNat < 2 ^ 32)
    (h : AnswersLastId env n db (storingEvents idDevice rawDataSet baseId afterExposureId)) :
    env.outcomes (n + 1) = .done (some db.nextSweepId) ∧
      env.outcomes (n + (2 + rawDataSet.base.dataCount.toNat) + 1) =
        .done (some (db.nextSweepId + 1)) := by
  rw [storingEvents, answersLastId_append, answersLastId_append, flags_sweepEvents,
    List.length_replicate] at h
  rcases h with ⟨⟨hbase, hafter⟩, _⟩
  rw [after_sweepEvents rawDataSet _ 0 baseId db (by rw [UInt32.toNat_zero]; omega)] at hafter
  -- The query is the second statement of a sweep.
  have hsecond := hbase.2.1 rfl
  have hsecond' := hafter.2.1 rfl
  rw [Database.record, Database.execute, List.getLast?_concat] at hsecond hsecond'
  exact ⟨hsecond, hsecond'⟩

/-- The rows of the two slices of the array are those of its points in order. -/
theorem rows_of_slices (rawDataSet : RawDataSet ν) (baseId afterExposureId : UInt32) :
    ((List.range rawDataSet.base.dataCount.toNat).map fun j =>
        { raw_data_sweep_id := baseId, index := UInt32.ofNat j,
          point := rawDataSet.data ((0 : UInt32).toNat + j) : PointRow ν }) ++
      ((List.range rawDataSet.afterExposure.dataCount.toNat).map fun j =>
        { raw_data_sweep_id := afterExposureId, index := UInt32.ofNat j,
          point := rawDataSet.data (rawDataSet.base.dataCount.toNat + j) }) =
      (List.range (rawDataSet.base.dataCount.toNat +
        rawDataSet.afterExposure.dataCount.toNat)).map
          (rawDataSet.pointRow baseId afterExposureId) := by
  rw [List.range_add, List.map_append, List.map_map]
  congr 1
  · refine List.map_congr_left (fun j hj => ?_)
    rw [RawDataSet.pointRow, if_pos (List.mem_range.mp hj), UInt32.toNat_zero, Nat.zero_add]
  · refine List.map_congr_left (fun j _ => ?_)
    rw [Function.comp_apply, RawDataSet.pointRow, if_neg (by omega), Nat.add_sub_cancel_left]

/-- A raw data set, stored without an exception and with the ids of its sweeps
    read back as they were given: two sweeps are added, every point of the
    array has its own row, the data set refers to the sweeps, and nothing else
    has changed. -/
theorem points_stored (env : Environment) (idDevice : UInt64) (rawDataSet : RawDataSet ν)
    (s : Session ν) (db : Database ν)
    (hcount : rawDataSet.base.dataCount.toNat + rawDataSet.afterExposure.dataCount.toNat < 2 ^ 32)
    (hsucceeds : Succeeding env s.statements (storingCount rawDataSet))
    (hids : ∀ b E, mysqlInsertRawDataSet env idDevice rawDataSet s = .ok b (s.after E) →
      AnswersLastId env s.statements db E) :
    ∃ E baseId afterExposureId,
      mysqlInsertRawDataSet env idDevice rawDataSet s = .ok true (s.after E) ∧
        StoredWhole idDevice rawDataSet baseId afterExposureId db (db.after E) := by
  rcases mysqlInsertRawDataSet_runs env idDevice rawDataSet s hsucceeds with ⟨b, a, hrun⟩
  rcases ids_of_answersLastId env idDevice rawDataSet s.statements b a db hcount (hids _ _ hrun)
    with ⟨hbase, hafter⟩
  -- The statements are the ones of a run without an exception, with the ids of the database.
  refine ⟨_, db.nextSweepId, db.nextSweepId + 1,
    mysqlInsertRawDataSet_ids env idDevice rawDataSet s _ _ hsucceeds hbase hafter, ?_⟩
  rw [storingEvents, database_after_append, database_after_append,
    after_sweepEvents rawDataSet _ 0 _ db (by rw [UInt32.toNat_zero]; omega),
    after_sweepEvents rawDataSet _ _ _ _ hcount]
  refine ⟨⟨rfl, rfl⟩, ?_, ?_, rfl, rfl⟩
  · simp only [Database.after, List.foldl_cons, List.foldl_nil, Database.record, Database.execute,
      Database.update, List.append_assoc, List.singleton_append, Option.getD_some]
  · rw [← rows_of_slices, ← List.append_assoc]
    rfl

/-- A raw data set with two points in the first sweep and one in the second. -/
def threePoints : RawDataSet Nat :=
  { idMeasurement := 5, base := ⟨2, 10, 1⟩, afterExposure := ⟨1, 20, 2⟩, data := fun k => ⟨k, k⟩ }

/-- A database that gives the ids 1 and 2 to the sweeps of `threePoints`. -/
def twoIds : Environment :=
  { outcomes := fun n => .done (if n = 1 then some 1 else if n = 5 then some 2 else none)
    reallocs := fun _ => none }

theorem points_stored_three :
    ∃ E baseId afterExposureId,
      mysqlInsertRawDataSet twoIds 7 threePoints (Session.opened Nat) =
        .ok true ((Session.opened Nat).after E) ∧
        StoredWhole 7 threePoints baseId afterExposureId (Database.empty Nat)
          ((Database.empty Nat).after E) := by
  refine points_stored twoIds 7 threePoints (Session.opened Nat) (Database.empty Nat) (by decide)
    (fun i _ => rfl) (fun b E hrun => ?_)
  rw [mysqlInsertRawDataSet_ids twoIds 7 threePoints (Session.opened Nat) (some 1) (some 2)
    (fun i _ => rfl) rfl rfl, EStateM.Result.ok.injEq] at hrun
  rw [← after_cancel _ _ _ hrun.2]
  decide

end Push

end EpollServer
