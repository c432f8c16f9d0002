import EpollServer.Core.Database
import EpollServer.Theory.Push

/-!
# What an Insert Leaves Behind

The tables after `mysqlInsertDataSet` and `mysqlInsertRawDataSet`, whatever
their statements come to.

Neither function undoes anything. Each statement takes effect by itself, and
the first exception only skips the rest of its own `try`. So a data set whose
second insert throws is half stored, and a raw data set leaves the sweeps and
the points that came before an exception.

What the result does say differs. That of `mysqlInsertDataSet` is exact: `true`
means both rows. That of `mysqlInsertRawDataSet` is the result of its last
statement alone, the one that makes the data set refer to its sweeps; `false`
means that the rows of the data sets are as before, and that nothing was added
but rows no data set refers to.

## Main definitions

* `RawDataSet.pointsFrom`: Consecutive data points.
* `DataSetOutcome`: The tables after `mysqlInsertDataSet`.
* `SweepAdded`: The tables after one sweep, complete or not.
* `RawDataSetOutcome`: The tables after `mysqlInsertRawDataSet`.

## Theorems

* `insertPoints_log`: The points up to the first that throws.
* `sweepAdded_of_run`: What one sweep adds.
* `insert_outcomes`: The tables after both functions.
* `insert_half_stored`: A data set of which one row stays.
-/

namespace EpollServer

namespace Push

variable {ν : Type}

/-- The first `k` data points behind an offset. -/
def RawDataSet.pointsFrom (rawDataSet : RawDataSet ν) (dataOffset : UInt32) (k : Nat) :
    List (RawDataPoint ν) :=
  (List.range k).map fun i => rawDataSet.data (dataOffset + UInt32.ofNat i).toNat

/-- The tables after `mysqlInsertDataSet`, by its result. -/
def DataSetOutcome (idDevice : UInt64) (dataSet : DataSet ν) (db db' : Database ν) : Bool → Prop
  | true =>
      db' = (db.execute (.insertDataSet idDevice dataSet)).execute (.insertDataSetRaw idDevice
        dataSet.idMeasurement dataSet.sweep1fs dataSet.sweep2fs dataSet.initFreq)
  | false => db' = db ∨ db' = db.execute (.insertDataSet idDevice dataSet)

/-- The tables after `insertRawDataSweepAndDatapoints`: at most the row of the
    sweep was added, and the points up to some index. -/
structure SweepAdded (rawDataSet : RawDataSet ν) (sweep : RawDataSweep ν) (dataOffset : UInt32)
    (db db' : Database ν) : Prop where
  dataSets : db'.dataSets = db.dataSets
  frequencies : db'.frequencies = db.frequencies
  sweeps : db'.sweeps = db.sweeps ∨
    db'.sweeps = (db.execute (.insertSweep sweep.startFrequency sweep.frequencyIncrement)).sweeps
  points : ∃ k ≤ sweep.dataCount.toNat, ∃ rows, db'.points = db.points ++ rows ∧
    rows.map PointRow.point = rawDataSet.pointsFrom dataOffset k

/-- The tables after `mysqlInsertRawDataSet`, by its result. -/
def RawDataSetOutcome (idDevice : UInt64) (rawDataSet : RawDataSet ν) (db db' : Database ν)
    (done : Bool) : Prop :=
  ∃ base afterExposure : Database ν, SweepAdded rawDataSet rawDataSet.base 0 db base ∧
    SweepAdded rawDataSet rawDataSet.afterExposure rawDataSet.base.dataCount base afterExposure ∧
    match done with
    | true => ∃ baseId afterExposureId, db' = afterExposure.execute
        (.updateDataSet baseId afterExposureId idDevice rawDataSet.idMeasurement)
    | false => db' = afterExposure

/-! ### The database and the log -/

theorem database_after_append (db : Database ν) (E F : List (Event ν)) :
    db.after (E ++ F) = (db.after E).after F := List.foldl_append

/-- A statement that is tried: either it is executed, or it throws and leaves
    nothing but its entry in the log. -/
theorem execute_cases (env : Environment) (st : Statement ν) (s : Session ν) :
    (∃ row, env.outcomes s.statements = .done row ∧
        execute env st s = .ok row (s.after [.statement st true])) ∨
      (env.outcomes s.statements = .exception ∧
        execute env st s = .error .thrown (s.after [.statement st false])) := by
  cases hout : env.outcomes s.statements with
  | done row =>
      refine Or.inl ⟨row, rfl, ?_⟩
      simp only [execute, hout, Outcome.succeeds]
      rfl
  | exception =>
      refine Or.inr ⟨rfl, ?_⟩
      simp only [execute, hout, Outcome.succeeds]
      rfl

/-- The points are inserted one after the other up to the first that throws. -/
theorem insertPoints_log (env : Environment) (rawDataSet : RawDataSet ν)
    (id dataOffset : UInt32) : ∀ (n : Nat) (i : UInt32) (s : Session ν),
    insertPoints env rawDataSet id dataOffset n i s =
        .ok () (s.after (pointEvents rawDataSet id dataOffset n i)) ∨
      ∃ k < n, ∃ st, insertPoints env rawDataSet id dataOffset n i s =
        .error .thrown (s.after (pointEvents rawDataSet id dataOffset k i ++
          [.statement st false])) := by
  -- Induction on the points; the first exception leaves the rows before it.
  intro n
  induction n with
  | zero =>
      intro i s
      refine Or.inl ?_
      rw [pointEvents, after_nil]
      rfl
  | succ n ih =>
      intro i s
      rcases execute_cases env (.insertDatapoint id i (rawDataSet.data (dataOffset + i).toNat)) s
        with ⟨row, -, hrow⟩ | ⟨-, hthrown⟩
      · -- The first point is stored, and the rest follows.
        simp only [insertPoints, bind, EStateM.bind, hrow]
        rcases ih (i + 1) (s.after [.statement (.insertDatapoint id i
          (rawDataSet.data (dataOffset + i).toNat)) true]) with hall | ⟨k, hk, st, hcut⟩
        · refine Or.inl ?_
          rw [hall, after_after]
          rfl
        · refine Or.inr ⟨k + 1, Nat.succ_lt_succ hk, st, ?_⟩
          rw [hcut, after_after]
          rfl
      · refine Or.inr ⟨0, Nat.succ_pos n,
          .insertDatapoint id i (rawDataSet.data (dataOffset + i).toNat), ?_⟩
        simp only [insertPoints, bind, EStateM.bind, hthrown]
        rfl

/-- The points a log of successful inserts adds. -/
theorem after_pointEvents (rawDataSet : RawDataSet ν) (id dataOffset : UInt32) :
    ∀ (k : Nat) (i : UInt32) (db : Database ν), ∃ rows,
      db.after (pointEvents rawDataSet id dataOffset k i) =
          { db with points := db.points ++ rows } ∧
      rows.map PointRow.point =
        (List.range k).map fun j => rawDataSet.data (dataOffset + (i + UInt32.ofNat j)).toNat := by
  -- Induction on the points: one row for each, with its index.
  intro k
  induction k with
  | zero =>
      intro i db
      refine ⟨[], ?_, rfl⟩
      rw [List.append_nil]
      rfl
  | succ k ih =>
      intro i db
      rcases ih (i + 1) (db.execute (.insertDatapoint id i
        (rawDataSet.data (dataOffset + i).toNat))) with ⟨rows, hdb, hrows⟩
      refine ⟨{ raw_data_sweep_id := id, index := i,
                point := rawDataSet.data (dataOffset + i).toNat } :: rows, ?_, ?_⟩
      · have hstep : db.after (pointEvents rawDataSet id dataOffset (k + 1) i) =
            (db.execute (.insertDatapoint id i (rawDataSet.data (dataOffset + i).toNat))).after
              (pointEvents rawDataSet id dataOffset k (i + 1)) := rfl
        rw [hstep, hdb]
        simp only [Database.execute, List.append_assoc, List.singleton_append]
      · rw [List.map_cons, hrows, List.range_succ_eq_map, List.map_cons, List.map_map]
        congr 1
        · rw [show UInt32.ofNat 0 = 0 from rfl, UInt32.add_zero]
        · refine List.map_congr_left (fun j _ => ?_)
          have hnext : i + 1 + UInt32.ofNat j = i + UInt32.ofNat (j + 1) := by
            rw [UInt32.ofNat_add, UInt32.add_assoc, UInt32.add_comm 1]
            rfl
          simp only [Function.comp_apply, Nat.succ_eq_add_one]
          rw [hnext]

/-- The log of `insertRawDatapoints`: all the points, or those before the first
    that throws. -/
theorem insertRawDatapoints_log (env : Environment) (rawDataSet : RawDataSet ν)
    (dataCount id dataOffset : UInt32) (s : Session ν) :
    ∃ b E, insertRawDatapoints env rawDataSet dataCount id dataOffset s = .ok b (s.after E) ∧
      (E = pointEvents rawDataSet id dataOffset dataCount.toNat 0 ∨
        ∃ k < dataCount.toNat, ∃ st,
          E = pointEvents rawDataSet id dataOffset k 0 ++ [.statement st false]) := by
  unfold insertRawDatapoints
  -- Without points nothing is executed, and the insert succeeds.
  by_cases hcount : dataCount > 0
  · rw [if_pos hcount]
    rcases insertPoints_log env rawDataSet id dataOffset dataCount.toNat 0 s
      with hall | ⟨k, hk, st, hcut⟩
    · refine ⟨true, _, ?_, Or.inl rfl⟩
      simp only [catchSql, bind, EStateM.bind, hall, pure, EStateM.pure]
    · refine ⟨false, _, ?_, Or.inr ⟨k, hk, st, rfl⟩⟩
      simp only [catchSql, bind, EStateM.bind, hcut]
  · have hzero : dataCount.toNat = 0 := by
      by_contra hne
      exact hcount (UInt32.lt_iff_toNat_lt.mpr (Nat.pos_of_ne_zero hne))
    rw [if_neg hcount]
    refine ⟨true, [], by rw [after_nil]; rfl, Or.inl ?_⟩
    rw [hzero]
    rfl

/-- The points of a sweep up to some index are added, and nothing else. -/
theorem insertRawDatapoints_adds (env : Environment) (rawDataSet : RawDataSet ν)
    (dataCount id dataOffset : UInt32) (s : Session ν) (db : Database ν) :
    ∃ b E, insertRawDatapoints env rawDataSet dataCount id dataOffset s = .ok b (s.after E) ∧
      ∃ k ≤ dataCount.toNat, ∃ rows, db.after E = { db with points := db.points ++ rows } ∧
        rows.map PointRow.point = rawDataSet.pointsFrom dataOffset k := by
  have hadded : ∀ k, ∃ rows, db.after (pointEvents rawDataSet id dataOffset k 0) =
      { db with points := db.points ++ rows } ∧
      rows.map PointRow.point = rawDataSet.pointsFrom dataOffset k := by
    intro k
    rcases after_pointEvents rawDataSet id dataOffset k 0 db with ⟨rows, hdb, hrows⟩
    refine ⟨rows, hdb, ?_⟩
    rw [hrows, RawDataSet.pointsFrom]
    simp only [UInt32.zero_add]
  rcases insertRawDatapoints_log env rawDataSet dataCount id dataOffset s
    with ⟨b, E, hrun, rfl | ⟨k, hk, st, rfl⟩⟩
  · exact ⟨b, _, hrun, dataCount.toNat, le_rfl, hadded _⟩
  · refine ⟨b, _, hrun, k, hk.le, ?_⟩
    -- The exception adds nothing to what came before it.
    rw [database_after_append]
    exact hadded k

/-- A sweep is added, or nothing is. -/
theorem insertRawDataSweep_adds (env : Environment) (sweep : RawDataSweep ν) (s : Session ν)
    (db : Database ν) :
    ∃ id E, insertRawDataSweep env sweep s = .ok id (s.after E) ∧
      (db.after E = db ∨
        db.after E = db.execute (.insertSweep sweep.startFrequency sweep.frequencyIncrement)) := by
  unfold insertRawDataSweep
  -- The row is inserted first; only then is its id read back.
  rcases execute_cases env (.insertSweep sweep.startFrequency sweep.frequencyIncrement) s
    with ⟨row, -, hrow⟩ | ⟨-, hthrown⟩
  · rcases execute_cases env .selectLastInsertId (s.after
      [.statement (.insertSweep sweep.startFrequency sweep.frequencyIncrement) true])
      with ⟨idRow, -, hid⟩ | ⟨-, hthrown⟩
    · refine ⟨idRow.getD 0,
        [.statement (.insertSweep sweep.startFrequency sweep.frequencyIncrement) true,
          .statement .selectLastInsertId true], ?_, Or.inr rfl⟩
      simp only [catchSql, bind, EStateM.bind, hrow, hid, pure, EStateM.pure, after_after,
        List.singleton_append]
    · -- The row stays although its id could not be read.
      refine ⟨0, [.statement (.insertSweep sweep.startFrequency sweep.frequencyIncrement) true,
        .statement .selectLastInsertId false], ?_, Or.inr rfl⟩
      simp only [catchSql, bind, EStateM.bind, hrow, hthrown, after_after, List.singleton_append]
  · refine ⟨0, [.statement (.insertSweep sweep.startFrequency sweep.frequencyIncrement) false], ?_,
      Or.inl rfl⟩
    simp only [catchSql, bind, EStateM.bind, hthrown]

/-- What one sweep adds. -/
theorem sweepAdded_of_run (env : Environment) (rawDataSet : RawDataSet ν)
    (sweep : RawDataSweep ν) (dataOffset : UInt32) (s : Session ν) (db : Database ν) :
    ∃ id E, insertRawDataSweepAndDatapoints env rawDataSet sweep dataOffset s =
        .ok id (s.after E) ∧ SweepAdded rawDataSet sweep dataOffset db (db.after E) := by
  rcases insertRawDataSweep_adds env sweep s db with ⟨id, E, hE, hsweep⟩
  rcases insertRawDatapoints_adds env rawDataSet sweep.dataCount id dataOffset (s.after E)
    (db.after E) with ⟨b, F, hF, k, hk, rows, hdb, hrows⟩
  refine ⟨id, E ++ F, ?_, ?_⟩
  · simp only [insertRawDataSweepAndDatapoints, bind, EStateM.bind, hE, hF, pure, EStateM.pure,
      after_after]
  · rw [database_after_append, hdb]
    rcases hsweep with hnone | hone
    · rw [hnone]
      exact ⟨rfl, rfl, Or.inl rfl, k, hk, rows, rfl, hrows⟩
    · rw [hone]
      exact ⟨rfl, rfl, Or.inr rfl, k, hk, rows, rfl, hrows⟩

/-- The log of `mysqlInsertDataSet`, by the outcomes of its statements. -/
theorem mysqlInsertDataSet_cases (env : Environment) (idDevice : UInt64) (dataSet : DataSet ν)
    (s : Session ν) :
    ((∃ first second, env.outcomes s.statements = .done first ∧
        env.outcomes (s.statements + 1) = .done second) ∧
        mysqlInsertDataSet env idDevice dataSet s =
          .ok true (s.after (dataSetEvents idDevice dataSet))) ∨
      ((∃ first, env.outcomes s.statements = .done first ∧
          env.outcomes (s.statements + 1) = .exception) ∧
        mysqlInsertDataSet env idDevice dataSet s = .ok false (s.after
          [.statement (.insertDataSet idDevice dataSet) true,
            .statement (.insertDataSetRaw idDevice dataSet.idMeasurement dataSet.sweep1fs
              dataSet.sweep2fs dataSet.initFreq) false])) ∨
      (env.outcomes s.statements = .exception ∧
        mysqlInsertDataSet env idDevice dataSet s = .ok false (s.after
          [.statement (.insertDataSet idDevice dataSet) false])) := by
  unfold mysqlInsertDataSet
  -- Both rows are inserted, or the second throws, or the first.
  rcases execute_cases env (.insertDataSet idDevice dataSet) s
    with ⟨row, hout, hrow⟩ | ⟨hout, hthrown⟩
  · rcases execute_cases env (.insertDataSetRaw idDevice dataSet.idMeasurement dataSet.sweep1fs
      dataSet.sweep2fs dataSet.initFreq) (s.after
        [.statement (.insertDataSet idDevice dataSet) true])
      with ⟨row', hout', hrow'⟩ | ⟨hout', hthrown⟩
    · refine Or.inl ⟨⟨row, row', hout, hout'⟩, ?_⟩
      simp only [catchSql, bind, EStateM.bind, hrow, hrow', pure, EStateM.pure, after_after,
        List.singleton_append, dataSetEvents]
    · refine Or.inr (Or.inl ⟨⟨row, hout, hout'⟩, ?_⟩)
      simp only [catchSql, bind, EStateM.bind, hrow, hthrown, after_after, List.singleton_append]
  · refine Or.inr (Or.inr ⟨hout, ?_⟩)
    simp only [catchSql, bind, EStateM.bind, hthrown]

/-- The tables after `mysqlInsertDataSet`. -/
theorem mysqlInsertDataSet_outcome (env : Environment) (idDevice : UInt64) (dataSet : DataSet ν)
    (s : Session ν) (db : Database ν) :
    ∃ b E, mysqlInsertDataSet env idDevice dataSet s = .ok b (s.after E) ∧
      DataSetOutcome idDevice dataSet db (db.after E) b := by
  rcases mysqlInsertDataSet_cases env idDevice dataSet s with ⟨-, hrun⟩ | ⟨-, hrun⟩ | ⟨-, hrun⟩
  · exact ⟨true, _, hrun, rfl⟩
  · -- The first row stays.
    exact ⟨false, _, hrun, Or.inr rfl⟩
  · exact ⟨false, _, hrun, Or.inl rfl⟩

/-- The tables after `mysqlInsertRawDataSet`. -/
theorem mysqlInsertRawDataSet_outcome (env : Environment) (idDevice : UInt64)
    (rawDataSet : RawDataSet ν) (s : Session ν) (db : Database ν) :
    ∃ b E, mysqlInsertRawDataSet env idDevice rawDataSet s = .ok b (s.after E) ∧
      RawDataSetOutcome idDevice rawDataSet db (db.after E) b := by
  -- The two sweeps, and the update by their ids, whatever became of the sweeps.
  rcases sweepAdded_of_run env rawDataSet rawDataSet.base 0 s db with ⟨baseId, E, hE, hbase⟩
  rcases sweepAdded_of_run env rawDataSet rawDataSet.afterExposure rawDataSet.base.dataCount
    (s.after E) (db.after E) with ⟨afterId, F, hF, hafter⟩
  rw [after_after] at hF
  rw [← database_after_append] at hafter
  rcases execute_cases env (.updateDataSet baseId afterId idDevice rawDataSet.idMeasurement)
    (s.after (E ++ F)) with ⟨row, -, hrow⟩ | ⟨-, hthrown⟩
  · refine ⟨true, E ++ F ++
      [.statement (.updateDataSet baseId afterId idDevice rawDataSet.idMeasurement) true], ?_,
      db.after E, db.after (E ++ F), hbase, hafter, baseId, afterId, ?_⟩
    · simp only [mysqlInsertRawDataSet, insertRawDataSet, catchSql, bind, EStateM.bind, hE, hF,
        hrow, pure, EStateM.pure, after_after]
    · rw [database_after_append]
      rfl
  · refine ⟨false, E ++ F ++
      [.statement (.updateDataSet baseId afterId idDevice rawDataSet.idMeasurement) false], ?_,
      db.after E, db.after (E ++ F), hbase, hafter, ?_⟩
    · simp only [mysqlInsertRawDataSet, insertRawDataSet, catchSql, bind, EStateM.bind, hE, hF,
        hthrown, after_after]
    · rw [database_after_append]
      rfl

/-- The tables after both inserts, for every data set and every outcome of every
    statement. -/
theorem insert_outcomes (env : Environment) (idDevice : UInt64) (dataSet : DataSet ν)
    (rawDataSet : RawDataSet ν) (s : Session ν) (db : Database ν) :
    (∃ b E, mysqlInsertDataSet env idDevice dataSet s = .ok b (s.after E) ∧
        DataSetOutcome idDevice dataSet db (db.after E) b) ∧
      ∃ b E, mysqlInsertRawDataSet env idDevice rawDataSet s = .ok b (s.after E) ∧
        RawDataSetOutcome idDevice rawDataSet db (db.after E) b :=
  ⟨mysqlInsertDataSet_outcome env idDevice dataSet s db,
    mysqlInsertRawDataSet_outcome env idDevice rawDataSet s db⟩

/-- The first statement on the connection succeeds, and every other one throws. -/
def secondThrows : Environment :=
  { outcomes := fun n => if n = 0 then .done none else .exception, reallocs := fun _ => none }

/-- A data set whose second insert throws: the function returns `false`, and the
    row of the first insert stays. -/
theorem insert_half_stored : ∃ E, mysqlInsertDataSet secondThrows 7
      (⟨1, 0, 0, 0, 0, 0, 0, 0, 0, 0, 0, 0⟩ : DataSet Nat) (Session.opened Nat) =
        .ok false ((Session.opened Nat).after E) ∧
      (Database.empty Nat).after E ≠ Database.empty Nat :=
  ⟨[.statement (.insertDataSet 7 ⟨1, 0, 0, 0, 0, 0, 0, 0, 0, 0, 0, 0⟩) true,
    .statement (.insertDataSetRaw 7 1 0 0 0) false], rfl, by decide⟩

end Push

end EpollServer
