import EpollServer.Theory.Inserts

/-!
# All or Nothing

When an insert stores all of its rows or leaves the database as it was.

`mysqlInsertDataSet` stops at the first exception, so it goes wrong in one way
only: the first row is stored and the second is not.

`mysqlInsertRawDataSet` does not stop. `insertRawDatapoints` reports a point
that was not stored, but `insertRawDataSweepAndDatapoints` drops that result;
`insertRawDataSweep` reports a sweep that was not stored with the id 0, and
nobody asks for it. The points are then stored under the id 0, and the data set
refers to it. So the result is that of the last statement alone.

Each sweep ends in one of three ways (`SweepEnd`): with all of its rows, with
none, or with some of them. A raw data set is all or nothing exactly when both
sweeps end the same way, in one of the first two, and the update goes with them.

## Main definitions

* `stored`: The statements of a log that have changed a table.
* `AllOrNothing`: The property of one call.
* `SweepStored`, `SweepRefused`: All the rows of a sweep, and none of them.
* `InsertedWhole`, `InsertedNothing`: The same of a raw data set.
* `SweepEnd`: The three ways in which a sweep ends.

## Theorems

* `sweepEnd_of_inserted`, `sweepEnd_of_thrown`: The points after the row of a sweep,
  and without it.
* `sweep_ends`: How a sweep ends.
* `mysqlInsertDataSet_atomic_iff`: The equivalence for a data set.
* `mysqlInsertRawDataSet_atomic_iff`: The equivalence for a raw data set.
* `insert_atomic_iff`: Both of them.
* `insert_unnoticed`: A raw data set that is missing a point, and `true`.
-/

namespace EpollServer

namespace Push

variable {ν : Type}

/-- The statements that change a table. -/
def Statement.changes : Statement ν → Bool
  | .selectLastInsertId => false
  | .selectDataRequired _ => false
  | .query => false
  | _ => true

/-- A change of a table. -/
def stored? : Event ν → Option (Statement ν)
  | .statement st true => if st.changes then some st else none
  | _ => none

/-- The changes of the tables that a log records, in order. -/
def stored (E : List (Event ν)) : List (Statement ν) := E.filterMap stored?

/-- A database function that returns `true` has made the changes it is there
    for, and no others; one that returns `false` has left the database alone. -/
def AllOrNothing (f : PushM ν Bool) (rows : List (Statement ν)) (s : Session ν)
    (db : Database ν) : Prop :=
  ∃ b E, f s = .ok b (s.after E) ∧ (b = true → stored E = rows) ∧ (b = false → db.after E = db)

/-- The id a query gives. Without a row it is 0, the same as after an exception. -/
def Outcome.id : Outcome → UInt32
  | .done row => row.getD 0
  | .exception => 0

/-- The `n`-th statement and the points behind it succeed. In between there is
    the query for the id. -/
def SweepStored (env : Environment) (n : Nat) (sweep : RawDataSweep ν) : Prop :=
  (env.outcomes n).succeeds = true ∧
    ∀ i < sweep.dataCount.toNat, (env.outcomes (n + 2 + i)).succeeds = true

/-- The `n`-th statement throws, and then the first point, if there is one. -/
def SweepRefused (env : Environment) (n : Nat) (sweep : RawDataSweep ν) : Prop :=
  (env.outcomes n).succeeds = false ∧
    (0 < sweep.dataCount.toNat → (env.outcomes (n + 1)).succeeds = false)

/-- How many statements are tried for a sweep that is refused. -/
def refusedCount (sweep : RawDataSweep ν) : Nat := if 0 < sweep.dataCount.toNat then 2 else 1

/-- Every insert and the update succeed from the `n`-th statement on, and both
    queries give the id of the sweep that was inserted before them. -/
structure InsertedWhole (env : Environment) (n : Nat) (rawDataSet : RawDataSet ν)
    (db : Database ν) : Prop where
  base : SweepStored env n rawDataSet.base
  baseId : (env.outcomes (n + 1)).id = db.nextSweepId
  afterExposure : SweepStored env (n + (2 + rawDataSet.base.dataCount.toNat))
    rawDataSet.afterExposure
  afterExposureId : (env.outcomes (n + (2 + rawDataSet.base.dataCount.toNat) + 1)).id =
    db.nextSweepId + 1
  update : (env.outcomes (n + (2 + rawDataSet.base.dataCount.toNat) +
    (2 + rawDataSet.afterExposure.dataCount.toNat))).succeeds = true

/-- Every statement that is tried from the `n`-th on throws. -/
structure InsertedNothing (env : Environment) (n : Nat) (rawDataSet : RawDataSet ν) : Prop where
  base : SweepRefused env n rawDataSet.base
  afterExposure : SweepRefused env (n + refusedCount rawDataSet.base) rawDataSet.afterExposure
  update : (env.outcomes (n + refusedCount rawDataSet.base +
    refusedCount rawDataSet.afterExposure)).succeeds = false

/-! ### The changes in a log -/

theorem stored_append (E F : List (Event ν)) : stored (E ++ F) = stored E ++ stored F :=
  List.filterMap_append

theorem stored_pointEvents_length (rawDataSet : RawDataSet ν) (id dataOffset : UInt32) :
    ∀ (k : Nat) (i : UInt32), (stored (pointEvents rawDataSet id dataOffset k i)).length = k := by
  intro k
  induction k with
  | zero => exact fun i => rfl
  | succ k ih =>
      intro i
      have hstep : stored (pointEvents rawDataSet id dataOffset (k + 1) i) =
          .insertDatapoint id i (rawDataSet.data (dataOffset + i).toNat) ::
            stored (pointEvents rawDataSet id dataOffset k (i + 1)) := rfl
      rw [hstep, List.length_cons, ih (i + 1)]

theorem stored_sweepEvents_length (rawDataSet : RawDataSet ν) (sweep : RawDataSweep ν)
    (dataOffset id : UInt32) :
    (stored (sweepEvents rawDataSet sweep dataOffset id)).length = 1 + sweep.dataCount.toNat := by
  rw [sweepEvents, stored_append, List.length_append, stored_pointEvents_length]
  rfl

/-- The rows that the inserts of a raw data set add to. -/
def Database.rowCount (db : Database ν) : Nat := db.sweeps.length + db.points.length

/-- The points up to some index are as many rows. -/
theorem rowCount_pointEvents (rawDataSet : RawDataSet ν) (id dataOffset : UInt32) (k : Nat)
    (i : UInt32) (db : Database ν) :
    (db.after (pointEvents rawDataSet id dataOffset k i)).rowCount = db.rowCount + k := by
  rcases after_pointEvents rawDataSet id dataOffset k i db with ⟨rows, hdb, hrows⟩
  have hlen := congrArg List.length hrows
  rw [List.length_map, List.length_map, List.length_range] at hlen
  rw [hdb, Database.rowCount, Database.rowCount, List.length_append, hlen]
  exact (Nat.add_assoc _ _ _).symm

/-! ### One sweep -/

/-- The statements tried for the row of a sweep: an insert that throws, or one
    that does not and the query. -/
def sweepTried (sweep : RawDataSweep ν) : Option Bool → List (Event ν)
  | none => [.statement (.insertSweep sweep.startFrequency sweep.frequencyIncrement) false]
  | some found =>
      [.statement (.insertSweep sweep.startFrequency sweep.frequencyIncrement) true,
        .statement .selectLastInsertId found]

/-- The row of a sweep, by the outcome of its insert. -/
theorem insertRawDataSweep_cases (env : Environment) (sweep : RawDataSweep ν) (s : Session ν) :
    ((env.outcomes s.statements).succeeds = true ∧ ∃ found, insertRawDataSweep env sweep s =
        .ok (env.outcomes (s.statements + 1)).id (s.after (sweepTried sweep (some found)))) ∨
      ((env.outcomes s.statements).succeeds = false ∧
        insertRawDataSweep env sweep s = .ok 0 (s.after (sweepTried sweep none))) := by
  unfold insertRawDataSweep
  rcases execute_cases env (.insertSweep sweep.startFrequency sweep.frequencyIncrement) s
    with ⟨row, hout, hrow⟩ | ⟨hout, hthrown⟩
  · refine Or.inl ⟨by rw [hout]; rfl, ?_⟩
    rcases execute_cases env .selectLastInsertId (s.after
      [.statement (.insertSweep sweep.startFrequency sweep.frequencyIncrement) true])
      with ⟨idRow, hquery, hid⟩ | ⟨hquery, hthrown⟩
    · refine ⟨true, ?_⟩
      rw [show env.outcomes (s.statements + 1) = .done idRow from hquery]
      simp only [catchSql, bind, EStateM.bind, hrow, hid, pure, EStateM.pure, after_after,
        List.singleton_append, Outcome.id, sweepTried]
    · -- The id of a query that throws is the one of no sweep.
      refine ⟨false, ?_⟩
      rw [show env.outcomes (s.statements + 1) = .exception from hquery]
      simp only [catchSql, bind, EStateM.bind, hrow, hthrown, after_after,
        List.singleton_append, Outcome.id, sweepTried]
  · refine Or.inr ⟨by rw [hout]; rfl, ?_⟩
    simp only [catchSql, bind, EStateM.bind, hthrown, sweepTried]

/-- A log of `m` points that were stored, and, unless these are all, of the
    next one, which threw. -/
structure PointsTried (env : Environment) (rawDataSet : RawDataSet ν)
    (dataCount id dataOffset : UInt32) (n : Nat) (E : List (Event ν)) (m : Nat) : Prop where
  atMost : m ≤ dataCount.toNat
  rows : stored E = stored (pointEvents rawDataSet id dataOffset m 0)
  rowCount : ∀ db : Database ν, (db.after E).rowCount = db.rowCount + m
  kept : m = 0 → ∀ db : Database ν, db.after E = db
  tried : (flags E).length = if m < dataCount.toNat then m + 1 else m
  succeeded : ∀ i < m, (env.outcomes (n + i)).succeeds = true
  threw : m < dataCount.toNat → (env.outcomes (n + m)).succeeds = false

/-- The points of a sweep, by the outcomes of their inserts. -/
theorem insertRawDatapoints_tried (env : Environment) (rawDataSet : RawDataSet ν)
    (dataCount id dataOffset : UInt32) (s : Session ν) :
    ∃ b E m, insertRawDatapoints env rawDataSet dataCount id dataOffset s = .ok b (s.after E) ∧
      PointsTried env rawDataSet dataCount id dataOffset s.statements E m := by
  rcases insertRawDatapoints_log env rawDataSet dataCount id dataOffset s with ⟨b, E, hrun, hE⟩
  rcases logs_insertRawDatapoints env rawDataSet dataCount id dataOffset s with ⟨b', E', hrun', hE'⟩
  -- The log is one, and it shows the outcomes.
  have hlog : Truthful env s.statements E := by
    rw [hrun] at hrun'
    rw [after_cancel s E E' (EStateM.Result.ok.inj hrun').2]
    exact hE'
  have hsucceeded : ∀ k, pointEvents rawDataSet id dataOffset k 0 <+: E →
      ∀ i < k, (env.outcomes (s.statements + i)).succeeds = true := fun k hk =>
    succeeds_of_prefix env s.statements k _ E hlog hk
      (flags_pointEvents rawDataSet id dataOffset k 0)
  rcases hE with rfl | ⟨k, hk, st, rfl⟩
  · refine ⟨b, _, dataCount.toNat, hrun, le_rfl, rfl, rowCount_pointEvents rawDataSet id dataOffset
      _ 0, fun h db => ?_, ?_, hsucceeded _ (List.prefix_refl _), fun h => absurd h (lt_irrefl _)⟩
    · rw [h]
      rfl
    · rw [flags_pointEvents, List.length_replicate, if_neg (lt_irrefl _)]
  · refine ⟨b, _, k, hrun, hk.le, ?_, fun db => ?_, fun h db => ?_, ?_,
      hsucceeded _ (List.prefix_append _ _), fun _ => ?_⟩
    · rw [stored_append]
      exact List.append_nil _
    · rw [database_after_append]
      exact rowCount_pointEvents rawDataSet id dataOffset k 0 db
    · rw [database_after_append, h]
      rfl
    · rw [if_pos hk, flags_append, List.length_append, flags_pointEvents, List.length_replicate]
      rfl
    · refine (hlog k false ?_).symm
      rw [flags_append, flags_pointEvents, List.getElem?_append_right
        (by rw [List.length_replicate]), List.length_replicate, Nat.sub_self]
      rfl

/-- How one sweep ends: with all of its rows, with none of them, or with some. -/
inductive SweepEnd (env : Environment) (rawDataSet : RawDataSet ν) (sweep : RawDataSweep ν)
    (dataOffset : UInt32) (n : Nat) (id : UInt32) (E : List (Event ν)) : Prop
  | whole (ends : SweepStored env n sweep) (read : id = (env.outcomes (n + 1)).id)
      (rows : stored E = stored (sweepEvents rawDataSet sweep dataOffset id))
      (tried : (flags E).length = 2 + sweep.dataCount.toNat)
  | nothing (ends : SweepRefused env n sweep) (rows : stored E = [])
      (kept : ∀ db : Database ν, db.after E = db) (tried : (flags E).length = refusedCount sweep)
  | partly (whole : ¬SweepStored env n sweep) (nothing : ¬SweepRefused env n sweep)
      (some : 0 < (stored E).length) (less : (stored E).length < 1 + sweep.dataCount.toNat)

/-- The row of a sweep is one more. -/
theorem rowCount_sweepTried (sweep : RawDataSweep ν) (found : Bool) (db : Database ν) :
    (db.after (sweepTried sweep (some found))).rowCount = db.rowCount + 1 := by
  have hrow : db.after (sweepTried sweep (some found)) =
      db.execute (.insertSweep sweep.startFrequency sweep.frequencyIncrement) := by
    cases found <;> rfl
  rw [hrow]
  simp only [Database.rowCount, Database.execute, List.length_append, List.length_singleton]
  omega

/-- The points follow the row of the sweep, whatever has become of it. -/
theorem sweepAndDatapoints_run {env : Environment} {rawDataSet : RawDataSet ν}
    {sweep : RawDataSweep ν} {dataOffset id : UInt32} {s : Session ν} {tried : Option Bool}
    {b : Bool} {P : List (Event ν)}
    (hsweep : insertRawDataSweep env sweep s = .ok id (s.after (sweepTried sweep tried)))
    (hpoints : insertRawDatapoints env rawDataSet sweep.dataCount id dataOffset
      (s.after (sweepTried sweep tried)) = .ok b ((s.after (sweepTried sweep tried)).after P)) :
    insertRawDataSweepAndDatapoints env rawDataSet sweep dataOffset s =
      .ok id (s.after (sweepTried sweep tried ++ P)) := by
  simp only [insertRawDataSweepAndDatapoints, bind, EStateM.bind, hsweep, hpoints, pure,
    EStateM.pure, after_after]

/-- The row of the sweep is there, so it is the points that decide. -/
theorem sweepEnd_of_inserted {env : Environment} {rawDataSet : RawDataSet ν}
    {sweep : RawDataSweep ν} {dataOffset : UInt32} {n m : Nat} {P : List (Event ν)}
    (found : Bool) (hok : (env.outcomes n).succeeds = true)
    (hP : PointsTried env rawDataSet sweep.dataCount (env.outcomes (n + 1)).id dataOffset (n + 2)
      P m) :
    (stored (sweepTried sweep (some found) ++ P)).length = 1 + m ∧
      SweepEnd env rawDataSet sweep dataOffset n (env.outcomes (n + 1)).id
        (sweepTried sweep (some found) ++ P) := by
  have hrows : stored (sweepTried sweep (some found) ++ P) =
      [.insertSweep sweep.startFrequency sweep.frequencyIncrement] ++
        stored (pointEvents rawDataSet (env.outcomes (n + 1)).id dataOffset m 0) := by
    rw [stored_append, hP.rows]
    cases found <;> rfl
  have hlen : (stored (sweepTried sweep (some found) ++ P)).length = 1 + m := by
    rw [hrows, List.length_append, stored_pointEvents_length]
    rfl
  refine ⟨hlen, ?_⟩
  rcases Nat.lt_or_eq_of_le hP.atMost with hless | hall
  · refine .partly (fun h => ?_) (fun h => ?_) (by omega) (by omega)
    · have hthrew := hP.threw hless
      rw [h.2 m hless] at hthrew
      exact Bool.noConfusion hthrew
    · rw [h.1] at hok
      exact Bool.noConfusion hok
  · refine .whole ⟨hok, fun i hi => hP.succeeded i (by omega)⟩ rfl ?_ ?_
    · rw [hrows, hall, sweepEvents, stored_append]
      rfl
    · rw [flags_append, List.length_append, hP.tried, hall, if_neg (lt_irrefl _)]
      rfl

/-- The insert of the sweep threw, so a first point decides. -/
theorem sweepEnd_of_thrown {env : Environment} {rawDataSet : RawDataSet ν}
    {sweep : RawDataSweep ν} {dataOffset : UInt32} {n m : Nat} {P : List (Event ν)}
    (hfail : (env.outcomes n).succeeds = false)
    (hP : PointsTried env rawDataSet sweep.dataCount 0 dataOffset (n + 1) P m) :
    (stored (sweepTried sweep none ++ P)).length = m ∧
      SweepEnd env rawDataSet sweep dataOffset n 0 (sweepTried sweep none ++ P) := by
  have hlen : (stored (sweepTried sweep none ++ P)).length = m := by
    rw [stored_append, hP.rows, List.length_append, stored_pointEvents_length]
    exact Nat.zero_add m
  have hnone : ¬SweepStored env n sweep := by
    intro h
    rw [h.1] at hfail
    exact Bool.noConfusion hfail
  refine ⟨hlen, ?_⟩
  rcases Nat.eq_zero_or_pos m with rfl | hsome
  · refine .nothing ⟨hfail, fun hpos => hP.threw hpos⟩ (List.length_eq_zero_iff.mp hlen)
      (fun db => ?_) ?_
    · rw [database_after_append]
      exact hP.kept rfl db
    · rw [flags_append, List.length_append, hP.tried, refusedCount]
      split <;> rfl
  · -- Points were stored although their sweep was not.
    refine .partly hnone (fun h => ?_) (by omega) (by have := hP.atMost; omega)
    have hthrew := h.2 (Nat.lt_of_lt_of_le hsome hP.atMost)
    rw [← Nat.add_zero (n + 1), hP.succeeded 0 hsome] at hthrew
    exact Bool.noConfusion hthrew

/-- One sweep: its rows are as many as its log stores, and it has one of the
    three ends. -/
theorem sweep_ends (env : Environment) (rawDataSet : RawDataSet ν) (sweep : RawDataSweep ν)
    (dataOffset : UInt32) (s : Session ν) :
    ∃ id E, insertRawDataSweepAndDatapoints env rawDataSet sweep dataOffset s =
        .ok id (s.after E) ∧
      (∀ db : Database ν, (db.after E).rowCount = db.rowCount + (stored E).length) ∧
      SweepEnd env rawDataSet sweep dataOffset s.statements id E := by
  rcases insertRawDataSweep_cases env sweep s with ⟨hok, found, hsweep⟩ | ⟨hfail, hsweep⟩
  · rcases insertRawDatapoints_tried env rawDataSet sweep.dataCount
      (env.outcomes (s.statements + 1)).id dataOffset (s.after (sweepTried sweep (some found)))
      with ⟨b, P, m, hpoints, hP⟩
    rcases sweepEnd_of_inserted found hok hP with ⟨hlen, hend⟩
    refine ⟨_, _, sweepAndDatapoints_run hsweep hpoints, fun db => ?_, hend⟩
    rw [database_after_append, hP.rowCount, rowCount_sweepTried, hlen, Nat.add_assoc]
  · rcases insertRawDatapoints_tried env rawDataSet sweep.dataCount 0 dataOffset
      (s.after (sweepTried sweep none)) with ⟨b, P, m, hpoints, hP⟩
    rcases sweepEnd_of_thrown hfail hP with ⟨hlen, hend⟩
    refine ⟨_, _, sweepAndDatapoints_run hsweep hpoints, fun db => ?_, hend⟩
    rw [database_after_append, hP.rowCount, hlen]
    rfl

theorem not_refused_of_stored {env : Environment} {n : Nat} {sweep : RawDataSweep ν}
    (h : SweepStored env n sweep) : ¬SweepRefused env n sweep := by
  intro hrefused
  rw [SweepRefused, h.1] at hrefused
  exact Bool.noConfusion hrefused.1

/-- A sweep of which all the rows are there was stored as a whole. -/
theorem SweepEnd.whole_of_length {env : Environment} {rawDataSet : RawDataSet ν}
    {sweep : RawDataSweep ν} {dataOffset id : UInt32} {n : Nat} {E : List (Event ν)}
    (h : SweepEnd env rawDataSet sweep dataOffset n id E)
    (hlen : (stored E).length = 1 + sweep.dataCount.toNat) :
    SweepStored env n sweep ∧ id = (env.outcomes (n + 1)).id ∧
      stored E = stored (sweepEvents rawDataSet sweep dataOffset id) ∧
      (flags E).length = 2 + sweep.dataCount.toNat := by
  rcases h with ⟨hends, hread, hrows, htried⟩ | ⟨-, hrows, -, -⟩ | ⟨-, -, -, hless⟩
  · exact ⟨hends, hread, hrows, htried⟩
  · rw [hrows, List.length_nil] at hlen
    omega
  · omega

theorem SweepEnd.length_le {env : Environment} {rawDataSet : RawDataSet ν}
    {sweep : RawDataSweep ν} {dataOffset id : UInt32} {n : Nat} {E : List (Event ν)}
    (h : SweepEnd env rawDataSet sweep dataOffset n id E) :
    (stored E).length ≤ 1 + sweep.dataCount.toNat := by
  rcases h with ⟨-, -, hrows, -⟩ | ⟨-, hrows, -, -⟩ | ⟨-, -, -, hless⟩
  · rw [hrows, stored_sweepEvents_length]
  · rw [hrows]
    exact Nat.zero_le _
  · exact hless.le

/-- A sweep of which no row is there was refused. -/
theorem SweepEnd.nothing_of_length {env : Environment} {rawDataSet : RawDataSet ν}
    {sweep : RawDataSweep ν} {dataOffset id : UInt32} {n : Nat} {E : List (Event ν)}
    (h : SweepEnd env rawDataSet sweep dataOffset n id E) (hlen : (stored E).length = 0) :
    SweepRefused env n sweep ∧ (∀ db : Database ν, db.after E = db) ∧
      (flags E).length = refusedCount sweep := by
  rcases h with ⟨-, -, hrows, -⟩ | ⟨hends, -, hkept, htried⟩ | ⟨-, -, hsome, -⟩
  · rw [hrows, stored_sweepEvents_length] at hlen
    omega
  · exact ⟨hends, hkept, htried⟩
  · omega

/-- The outcomes of a stored sweep leave it no other end. -/
theorem SweepEnd.length_of_stored {env : Environment} {rawDataSet : RawDataSet ν}
    {sweep : RawDataSweep ν} {dataOffset id : UInt32} {n : Nat} {E : List (Event ν)}
    (h : SweepEnd env rawDataSet sweep dataOffset n id E) (hs : SweepStored env n sweep) :
    (stored E).length = 1 + sweep.dataCount.toNat := by
  rcases h with ⟨-, -, hrows, -⟩ | ⟨hends, -, -, -⟩ | ⟨hwhole, -, -, -⟩
  · rw [hrows, stored_sweepEvents_length]
  · exact absurd hends (not_refused_of_stored hs)
  · exact absurd hs hwhole

theorem SweepEnd.length_of_refused {env : Environment} {rawDataSet : RawDataSet ν}
    {sweep : RawDataSweep ν} {dataOffset id : UInt32} {n : Nat} {E : List (Event ν)}
    (h : SweepEnd env rawDataSet sweep dataOffset n id E) (hs : SweepRefused env n sweep) :
    (stored E).length = 0 := by
  rcases h with ⟨hends, -, -, -⟩ | ⟨-, hrows, -, -⟩ | ⟨-, hnothing, -, -⟩
  · exact absurd hs (not_refused_of_stored hends)
  · rw [hrows]
    rfl
  · exact absurd hs hnothing

/-! ### The two inserts -/

/-- A function has one result and one log. -/
theorem allOrNothing_iff {f : PushM ν Bool} {s : Session ν} {b : Bool} {E : List (Event ν)}
    (hrun : f s = .ok b (s.after E)) (rows : List (Statement ν)) (db : Database ν) :
    AllOrNothing f rows s db ↔ (b = true → stored E = rows) ∧ (b = false → db.after E = db) := by
  constructor
  · rintro ⟨b', E', hrun', hrows, hkept⟩
    rw [hrun] at hrun'
    rcases EStateM.Result.ok.inj hrun' with ⟨rfl, hlog⟩
    rw [after_cancel s E E' hlog]
    exact ⟨hrows, hkept⟩
  · rintro ⟨hrows, hkept⟩
    exact ⟨b, E, hrun, hrows, hkept⟩

/-- A data set is all or nothing exactly when its second insert does not throw
    behind a first one that succeeded. -/
theorem mysqlInsertDataSet_atomic_iff (env : Environment) (idDevice : UInt64)
    (dataSet : DataSet ν) (s : Session ν) (db : Database ν) :
    AllOrNothing (mysqlInsertDataSet env idDevice dataSet) (stored (dataSetEvents idDevice dataSet))
        s db ↔
      ((env.outcomes s.statements).succeeds = true →
        (env.outcomes (s.statements + 1)).succeeds = true) := by
  rcases mysqlInsertDataSet_cases env idDevice dataSet s
    with ⟨⟨first, second, -, hsecond⟩, hrun⟩ | ⟨⟨first, hfirst, hsecond⟩, hrun⟩ | ⟨hfirst, hrun⟩
  · rw [allOrNothing_iff hrun, hsecond]
    exact iff_of_true ⟨fun _ => rfl, Bool.noConfusion⟩ (fun _ => rfl)
  · rw [allOrNothing_iff hrun, hfirst, hsecond]
    refine iff_of_false (fun h => ?_) (fun h => Bool.noConfusion (h rfl))
    -- The first row stays.
    have hsame := congrArg (fun after => after.dataSets.length) (h.2 rfl)
    simp only [Database.after, List.foldl_cons, List.foldl_nil, Database.record, Database.execute,
      List.length_append, List.length_singleton] at hsame
    omega
  · rw [allOrNothing_iff hrun, hfirst]
    exact iff_of_true ⟨Bool.noConfusion, fun _ => rfl⟩ (fun h => Bool.noConfusion h)

/-- The result is the outcome of the update, whatever has become of the sweeps. -/
theorem mysqlInsertRawDataSet_log {env : Environment} {idDevice : UInt64}
    {rawDataSet : RawDataSet ν} {s : Session ν} {baseId afterExposureId : UInt32}
    {E F : List (Event ν)}
    (hE : insertRawDataSweepAndDatapoints env rawDataSet rawDataSet.base 0 s =
      .ok baseId (s.after E))
    (hF : insertRawDataSweepAndDatapoints env rawDataSet rawDataSet.afterExposure
      rawDataSet.base.dataCount (s.after E) = .ok afterExposureId ((s.after E).after F)) :
    mysqlInsertRawDataSet env idDevice rawDataSet s =
      .ok (env.outcomes (s.after (E ++ F)).statements).succeeds (s.after (E ++ F ++
        [.statement (.updateDataSet baseId afterExposureId idDevice rawDataSet.idMeasurement)
          (env.outcomes (s.after (E ++ F)).statements).succeeds])) := by
  rw [after_after] at hF
  rcases execute_cases env
    (.updateDataSet baseId afterExposureId idDevice rawDataSet.idMeasurement) (s.after (E ++ F))
    with ⟨row, hout, hrow⟩ | ⟨hout, hthrown⟩
  · simp only [mysqlInsertRawDataSet, insertRawDataSet, catchSql, bind, EStateM.bind, hE, hF,
      hrow, hout, pure, EStateM.pure, after_after, Outcome.succeeds]
  · simp only [mysqlInsertRawDataSet, insertRawDataSet, catchSql, bind, EStateM.bind, hE, hF,
      hthrown, hout, after_after, Outcome.succeeds]

/-- What a raw data set that was stored, or of which nothing was, has changed. -/
theorem sweeps_of_atomic {idDevice : UInt64} {rawDataSet : RawDataSet ν} {E F : List (Event ν)}
    {db : Database ν} {b : Bool} {baseId afterExposureId : UInt32} {rows : List (Statement ν)}
    (hE : (db.after E).rowCount = db.rowCount + (stored E).length)
    (hF : (db.after (E ++ F)).rowCount = (db.after E).rowCount + (stored F).length)
    (h : (b = true → stored (E ++ F ++ [.statement (.updateDataSet baseId afterExposureId idDevice
          rawDataSet.idMeasurement) b]) = rows) ∧
      (b = false → db.after (E ++ F ++ [.statement (.updateDataSet baseId afterExposureId idDevice
          rawDataSet.idMeasurement) b]) = db)) :
    (b = true ∧ stored E ++ stored F ++ [.updateDataSet baseId afterExposureId idDevice
        rawDataSet.idMeasurement] = rows) ∨
      (b = false ∧ (stored E).length + (stored F).length = 0) := by
  cases b with
  | true =>
      refine Or.inl ⟨rfl, ?_⟩
      have hrows := h.1 rfl
      rw [stored_append, stored_append] at hrows
      exact hrows
  | false =>
      refine Or.inr ⟨rfl, ?_⟩
      have hsame := congrArg Database.rowCount (h.2 rfl)
      rw [database_after_append] at hsame
      have hcount : (db.after (E ++ F)).rowCount = db.rowCount := hsame
      omega

/-- A raw data set is all or nothing exactly when everything succeeds and the
    ids are those of its sweeps, or everything that is tried throws. -/
theorem mysqlInsertRawDataSet_atomic_iff (env : Environment) (idDevice : UInt64)
    (rawDataSet : RawDataSet ν) (s : Session ν) (db : Database ν) :
    AllOrNothing (mysqlInsertRawDataSet env idDevice rawDataSet)
        (stored (storingEvents idDevice rawDataSet db.nextSweepId (db.nextSweepId + 1))) s db ↔
      InsertedWhole env s.statements rawDataSet db ∨
        InsertedNothing env s.statements rawDataSet := by
  rcases sweep_ends env rawDataSet rawDataSet.base 0 s with ⟨baseId, E, hE, hcountE, hbase⟩
  rcases sweep_ends env rawDataSet rawDataSet.afterExposure rawDataSet.base.dataCount (s.after E)
    with ⟨afterId, F, hF, hcountF, hafter⟩
  rw [allOrNothing_iff (mysqlInsertRawDataSet_log hE hF)]
  have hat : (s.after E).statements = s.statements + (flags E).length := rfl
  have hlast : (s.after (E ++ F)).statements =
      s.statements + (flags E).length + (flags F).length := by
    rw [Session.after, flags_append, List.length_append, Nat.add_assoc]
  rw [hat] at hafter
  constructor
  · intro h
    rcases sweeps_of_atomic (hcountE db) (by rw [database_after_append]; exact hcountF _) h
      with ⟨hdone, hrows⟩ | ⟨hdone, hnone⟩
    · -- As many rows as these there are only if both sweeps are whole.
      rw [storingEvents, stored_append, stored_append] at hrows
      have hrefers : [Statement.updateDataSet baseId afterId idDevice rawDataSet.idMeasurement] =
          stored [Event.statement (ν := ν) (.updateDataSet db.nextSweepId (db.nextSweepId + 1)
            idDevice rawDataSet.idMeasurement) true] := (List.append_inj' hrows rfl).2
      have hlen := congrArg List.length (List.append_inj' hrows rfl).1
      rw [List.length_append, List.length_append, stored_sweepEvents_length,
        stored_sweepEvents_length] at hlen
      have hleE := hbase.length_le
      have hleF := hafter.length_le
      rcases hbase.whole_of_length (by omega) with ⟨hstoredE, hreadE, -, htriedE⟩
      rcases hafter.whole_of_length (by omega) with ⟨hstoredF, hreadF, -, htriedF⟩
      rw [htriedE] at hstoredF hreadF hlast
      rw [hlast, htriedF] at hdone
      rcases Statement.updateDataSet.inj (List.singleton_inj.mp hrefers) with ⟨hidE, hidF, -, -⟩
      exact Or.inl ⟨hstoredE, hreadE.symm.trans hidE, hstoredF, hreadF.symm.trans hidF, hdone⟩
    · have hlenE : (stored E).length = 0 := by omega
      have hlenF : (stored F).length = 0 := by omega
      rcases hbase.nothing_of_length hlenE with ⟨hrefusedE, -, htriedE⟩
      rcases hafter.nothing_of_length hlenF with ⟨hrefusedF, -, htriedF⟩
      rw [htriedE] at hrefusedF hlast
      rw [hlast, htriedF] at hdone
      exact Or.inr ⟨hrefusedE, hrefusedF, hdone⟩
  · rintro (h | h)
    · rcases hbase.whole_of_length (hbase.length_of_stored h.base) with ⟨-, hreadE, hrowsE, htriedE⟩
      rw [htriedE] at hafter hlast
      rcases hafter.whole_of_length (hafter.length_of_stored h.afterExposure)
        with ⟨-, hreadF, hrowsF, htriedF⟩
      rw [htriedF] at hlast
      rw [hlast, h.update]
      refine ⟨fun _ => ?_, Bool.noConfusion⟩
      rw [stored_append, stored_append, hrowsE, hrowsF, hreadE, h.baseId, hreadF,
        h.afterExposureId, storingEvents, stored_append, stored_append]
    · rcases hbase.nothing_of_length (hbase.length_of_refused h.base) with ⟨-, hkeptE, htriedE⟩
      rw [htriedE] at hafter hlast
      rcases hafter.nothing_of_length (hafter.length_of_refused h.afterExposure)
        with ⟨-, hkeptF, htriedF⟩
      rw [htriedF] at hlast
      rw [hlast, h.update]
      refine ⟨Bool.noConfusion, fun _ => ?_⟩
      rw [database_after_append, database_after_append, hkeptE, hkeptF]
      rfl

/-- Both inserts, for every data set, every raw data set, every outcome of every
    statement and whatever the tables hold. -/
theorem insert_atomic_iff (env : Environment) (idDevice : UInt64) (dataSet : DataSet ν)
    (rawDataSet : RawDataSet ν) (s : Session ν) (db : Database ν) :
    (AllOrNothing (mysqlInsertDataSet env idDevice dataSet)
          (stored (dataSetEvents idDevice dataSet)) s db ↔
        ((env.outcomes s.statements).succeeds = true →
          (env.outcomes (s.statements + 1)).succeeds = true)) ∧
      (AllOrNothing (mysqlInsertRawDataSet env idDevice rawDataSet)
          (stored (storingEvents idDevice rawDataSet db.nextSweepId (db.nextSweepId + 1))) s db ↔
        InsertedWhole env s.statements rawDataSet db ∨
          InsertedNothing env s.statements rawDataSet) :=
  ⟨mysqlInsertDataSet_atomic_iff env idDevice dataSet s db,
    mysqlInsertRawDataSet_atomic_iff env idDevice rawDataSet s db⟩

/-- The third statement on the connection throws, and every other one succeeds.
    The queries give the ids 1 and 2. -/
def thirdThrows : Environment :=
  { outcomes := fun n => if n = 2 then .exception else .done (some (if n < 3 then 1 else 2))
    reallocs := fun _ => none }

/-- One point in the first sweep, and none in the second. -/
def onePoint : RawDataSet Nat :=
  { idMeasurement := 1
    base := { dataCount := 1, startFrequency := 100, frequencyIncrement := 10 }
    afterExposure := { dataCount := 0, startFrequency := 200, frequencyIncrement := 20 }
    data := fun _ => { phaseAngle := 5, impedance := 6 } }

/-- The point is not stored, the result is `true`. -/
theorem insert_unnoticed : (∃ E, mysqlInsertRawDataSet thirdThrows 7 onePoint (Session.opened Nat) =
        .ok true ((Session.opened Nat).after E) ∧ ((Database.empty Nat).after E).points = []) ∧
      ¬AllOrNothing (mysqlInsertRawDataSet thirdThrows 7 onePoint)
        (stored (storingEvents 7 onePoint (Database.empty Nat).nextSweepId
          ((Database.empty Nat).nextSweepId + 1))) (Session.opened Nat) (Database.empty Nat) := by
  have hrun : mysqlInsertRawDataSet thirdThrows 7 onePoint (Session.opened Nat) =
      .ok true ((Session.opened Nat).after [.statement (.insertSweep 100 10) true,
        .statement .selectLastInsertId true, .statement (.insertDatapoint 1 0 ⟨5, 6⟩) false,
        .statement (.insertSweep 200 20) true, .statement .selectLastInsertId true,
        .statement (.updateDataSet 1 2 7 1) true]) := rfl
  refine ⟨⟨_, hrun, rfl⟩, ?_⟩
  rw [allOrNothing_iff hrun]
  exact fun h => absurd (h.1 rfl) (by decide)

end Push

end EpollServer
