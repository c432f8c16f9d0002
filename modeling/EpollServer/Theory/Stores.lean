import EpollServer.Core.Stores
import EpollServer.Lib.ListModify
import EpollServer.Theory.Following

/-!
# Many Connections, One Database

What is in the tables when many connections push raw data at the same time,
each with its own database connection, and any of their statements throw.

A log says where its connection is (`Theory.Following`), and the tables hold
what its cursor says (`At`). A step of one connection leaves to the others what
is theirs (`Frame`). It touches no sweep but its own: the points it adds have
the id of the sweep it has just inserted, which no other connection has been
given, and a sweep that is whole is not the one in progress.

The ids come from the database, from 1 on. 0 is what the code takes for the id
of a sweep when a statement has thrown, so the points of all such sweeps are
under the id 0, and nothing is said of them.

## Main definitions

* `Owner`: Whose sweep a sweep is.
* `Stored`, `Refers`: An id in a data set is that of a sweep, with its points.
* `Unmixed`: Tables in which nothing is mixed up.
* `At`: What the tables hold for a connection.
* `Given`: The ids are given in order.
* `Frame`: What a step does not touch.
* `Kept`: The invariant.

## Theorems

* `stored_frame`, `at_frame`: What is kept for the others.
* `unmixed_sweep`, `unmixed_point`, `unmixed_same`: The tables after a step.
* `kept_step`: A step keeps the invariant.
* `stores_unmixed`: Whatever the order of the statements, nothing is mixed up.
-/

namespace EpollServer

namespace Stores

open Push (Database Environment Event Outcome Layout Session RawDataSet PointRow SweepRow
  DataSetRow Part Cursor Move Pushed flags sessions packedLayout zeroTransfer)

variable {ν : Type}

/-- What a sweep in the tables is: a sweep of a raw data set that a connection
    has received from a device. -/
structure Owner (ν : Type) where
  connection : Nat
  idDevice : UInt64
  rawDataSet : RawDataSet ν
  part : Part

/-- How many points it has. -/
def Owner.count (o : Owner ν) : Nat := (o.rawDataSet.sweep o.part).dataCount.toNat

/-- The rows of its first `k` points. -/
def Owner.rows (o : Owner ν) (id : UInt32) (k : Nat) : List (PointRow ν) :=
  (List.range k).map (o.rawDataSet.row o.part id)

/-- The ids of all sweeps. -/
def ids (db : Database ν) : List UInt32 := db.sweeps.map SweepRow.id

/-- The points stored under an id. -/
def rowsOf (db : Database ν) (id : UInt32) : List (PointRow ν) :=
  db.points.filter fun row => row.raw_data_sweep_id == id

section Tables

variable (pushed : Nat → UInt64 → RawDataSet ν → Prop) (failed : Nat → Prop)

/-- `id` is 0 or the id of this sweep; and it is, with all its points, unless a
    statement of the connection has thrown. -/
def Stored (db : Database ν) (own : UInt32 → Owner ν) (o : Owner ν) (id : UInt32) : Prop :=
  (id ≠ 0 → id ∈ ids db ∧ own id = o) ∧
    (¬ failed o.connection → id ≠ 0 ∧ rowsOf db id = o.rows id o.count)

/-- Two ids in a data set are those of the sweeps of one raw data set, which was
    pushed by the device for the measurement. -/
def Refers (db : Database ν) (own : UInt32 → Owner ν) (idDevice : UInt64) (idMeasurement : UInt32)
    (baseId afterExposureId : UInt32) : Prop :=
  ∃ c rawDataSet, pushed c idDevice rawDataSet ∧ rawDataSet.idMeasurement = idMeasurement ∧
    Stored failed db own ⟨c, idDevice, rawDataSet, .base⟩ baseId ∧
    Stored failed db own ⟨c, idDevice, rawDataSet, .afterExposure⟩ afterExposureId

/-- The row of a sweep. -/
def Describes (o : Owner ν) (sweep : SweepRow ν) : Prop :=
  pushed o.connection o.idDevice o.rawDataSet ∧
    sweep.startFrequency = (o.rawDataSet.sweep o.part).startFrequency ∧
    sweep.frequencyIncrement = (o.rawDataSet.sweep o.part).frequencyIncrement

/-- Tables in which nothing is mixed up. -/
structure Unmixed (db : Database ν) (own : UInt32 → Owner ν) : Prop where
  distinct : (ids db).Nodup
  nonzero : 0 ∉ ids db
  sweeps : ∀ sweep ∈ db.sweeps, Describes pushed (own sweep.id) sweep
  points : ∀ id ∈ ids db, ∃ k ≤ (own id).count, rowsOf db id = (own id).rows id k
  known : ∀ row ∈ db.points, row.raw_data_sweep_id ≠ 0 → row.raw_data_sweep_id ∈ ids db
  refers : ∀ row ∈ db.dataSets, ∀ baseId afterExposureId,
    row.sweeps = some (baseId, afterExposureId) →
    Refers pushed failed db own row.idDevice row.dataSet.idMeasurement baseId afterExposureId

/-- What the tables hold for a connection, by its cursor. -/
def At (db : Database ν) (own : UInt32 → Owner ν) (c : Nat) (last : UInt32) : Cursor ν → Prop
  | .idle => True
  | .swept idDevice rawDataSet part baseId cut =>
      (pushed c idDevice rawDataSet ∧ (cut = true → failed c) ∧
        (part = .afterExposure → Stored failed db own ⟨c, idDevice, rawDataSet, .base⟩ baseId)) ∧
      last ∈ ids db ∧ own last = ⟨c, idDevice, rawDataSet, part⟩ ∧ rowsOf db last = []
  | .storing idDevice rawDataSet part baseId id i cut =>
      (pushed c idDevice rawDataSet ∧ (cut = true → failed c) ∧
        (part = .afterExposure → Stored failed db own ⟨c, idDevice, rawDataSet, .base⟩ baseId)) ∧
      i ≤ (rawDataSet.sweep part).dataCount.toNat ∧ (id = 0 → cut = true) ∧
      (id ≠ 0 → id ∈ ids db ∧ own id = ⟨c, idDevice, rawDataSet, part⟩ ∧
        rowsOf db id = Owner.rows ⟨c, idDevice, rawDataSet, part⟩ id i)

end Tables

/-! ### The ids -/

/-- The ids are given in order, from 1 on. -/
structure Given (db : Database ν) : Prop where
  ids : ids db = (List.range db.sweeps.length).map fun i => UInt32.ofNat (i + 1)
  next : db.nextSweepId = UInt32.ofNat (db.sweeps.length + 1)
  few : db.sweeps.length < 2 ^ 32

theorem toNat_of_given (db : Database ν) (h : Given db) (id : UInt32) (hid : id ∈ ids db) :
    1 ≤ id.toNat ∧ id.toNat ≤ db.sweeps.length := by
  rw [h.ids] at hid
  rcases List.mem_map.mp hid with ⟨i, hi, rfl⟩
  have hlt := List.mem_range.mp hi
  have hfew := h.few
  rw [UInt32.toNat_ofNat_of_lt' (by rw [UInt32.size]; omega)]
  omega

theorem nodup_of_given (db : Database ν) (h : Given db) : (ids db).Nodup := by
  rw [h.ids]
  refine List.Nodup.map_on (fun i hi j hj heq => ?_) List.nodup_range
  have hlt := List.mem_range.mp hi
  have hlt' := List.mem_range.mp hj
  have hfew := h.few
  have hnat := congrArg UInt32.toNat heq
  rw [UInt32.toNat_ofNat_of_lt' (by rw [UInt32.size]; omega),
    UInt32.toNat_ofNat_of_lt' (by rw [UInt32.size]; omega)] at hnat
  omega

theorem nonzero_of_given (db : Database ν) (h : Given db) : 0 ∉ ids db := by
  intro hmem
  have hpos := (toNat_of_given db h 0 hmem).1
  rw [UInt32.toNat_zero] at hpos
  omega

theorem next_of_given (db : Database ν) (h : Given db) (hnext : db.nextSweepId ≠ 0) :
    db.nextSweepId ∉ ids db ∧ db.sweeps.length + 1 < 2 ^ 32 := by
  have hfew := h.few
  have hlt : db.sweeps.length + 1 < 2 ^ 32 := by
    -- After 2 ^ 32 - 1 sweeps the next id would be 0.
    by_contra hnot
    refine hnext ?_
    have hall : db.sweeps.length + 1 = 2 ^ 32 := by omega
    rw [h.next, hall]
    rfl
  refine ⟨fun hmem => ?_, hlt⟩
  have hle := (toNat_of_given db h _ hmem).2
  rw [h.next, UInt32.toNat_ofNat_of_lt' (by rw [UInt32.size]; omega)] at hle
  omega

theorem given_insertSweep (db : Database ν) (h : Given db) (hnext : db.nextSweepId ≠ 0)
    (startFrequency frequencyIncrement : ν) :
    Given (db.execute (.insertSweep startFrequency frequencyIncrement)) := by
  refine ⟨?_, ?_, ?_⟩
  · simp only [Database.execute, ids, List.map_append, List.length_append, List.length_singleton,
      List.range_succ, List.map_singleton, h.next]
    rw [← h.ids, ids]
  · simp only [Database.execute, List.length_append, List.length_singleton, h.next]
    rw [UInt32.ofNat_add (db.sweeps.length + 1) 1]
    rfl
  · simp only [Database.execute, List.length_append, List.length_singleton]
    exact (next_of_given db h hnext).2

/-! ### What a step of one connection leaves to the others -/

/-- What a step of connection `c` does not touch. -/
structure Frame (c : Nat) (db db' : Database ν) (own own' : UInt32 → Owner ν) : Prop where
  ids : ∀ id ∈ ids db, id ∈ Stores.ids db' ∧ own' id = own id
  others : ∀ id ∈ Stores.ids db, (own id).connection ≠ c → rowsOf db' id = rowsOf db id
  whole : ∀ id ∈ Stores.ids db, rowsOf db id = (own id).rows id (own id).count →
    rowsOf db' id = rowsOf db id

section Frames

variable {pushed : Nat → UInt64 → RawDataSet ν → Prop} {failed : Nat → Prop}
  {db db' : Database ν} {own own' : UInt32 → Owner ν}

theorem stored_frame {c : Nat} (hframe : Frame c db db' own own') (o : Owner ν) (id : UInt32)
    (h : Stored failed db own o id) : Stored failed db' own' o id := by
  refine ⟨fun hid => ?_, fun hfailed => ?_⟩
  · rcases h.1 hid with ⟨hmem, hown⟩
    rcases hframe.ids id hmem with ⟨hmem', hown'⟩
    exact ⟨hmem', hown'.trans hown⟩
  · rcases h.2 hfailed with ⟨hid, hrows⟩
    rcases h.1 hid with ⟨hmem, hown⟩
    refine ⟨hid, ?_⟩
    rw [hframe.whole id hmem (by rw [hown]; exact hrows)]
    exact hrows

theorem refers_frame {c : Nat} (hframe : Frame c db db' own own') (idDevice : UInt64)
    (idMeasurement baseId afterExposureId : UInt32)
    (h : Refers pushed failed db own idDevice idMeasurement baseId afterExposureId) :
    Refers pushed failed db' own' idDevice idMeasurement baseId afterExposureId := by
  rcases h with ⟨d, rawDataSet, hpushed, hmeasurement, hbase, hafter⟩
  exact ⟨d, rawDataSet, hpushed, hmeasurement, stored_frame hframe _ _ hbase,
    stored_frame hframe _ _ hafter⟩

/-- The other connections are where they were. -/
theorem at_frame {c d : Nat} (hframe : Frame c db db' own own') (hd : d ≠ c) (last : UInt32)
    (κ : Cursor ν) (h : At pushed failed db own d last κ) : At pushed failed db' own' d last κ := by
  cases κ with
  | idle => trivial
  | swept idDevice rawDataSet part baseId cut =>
      rcases h with ⟨⟨hpushed, hcut, hbase⟩, hmem, hown, hrows⟩
      -- The last id of a connection is that of its own sweep.
      rcases hframe.ids last hmem with ⟨hmem', hown'⟩
      refine ⟨⟨hpushed, hcut, fun hpart => stored_frame hframe _ _ (hbase hpart)⟩, hmem',
        hown'.trans hown, ?_⟩
      rw [hframe.others last hmem (by rw [hown]; exact hd)]
      exact hrows
  | storing idDevice rawDataSet part baseId id i cut =>
      rcases h with ⟨⟨hpushed, hcut, hbase⟩, hle, hzero, hid⟩
      refine ⟨⟨hpushed, hcut, fun hpart => stored_frame hframe _ _ (hbase hpart)⟩, hle, hzero,
        fun hne => ?_⟩
      rcases hid hne with ⟨hmem, hown, hrows⟩
      rcases hframe.ids id hmem with ⟨hmem', hown'⟩
      refine ⟨hmem', hown'.trans hown, ?_⟩
      rw [hframe.others id hmem (by rw [hown]; exact hd)]
      exact hrows

/-- Sweeps and points are as they were. -/
theorem frame_same (c : Nat) (hsweeps : db'.sweeps = db.sweeps) (hpoints : db'.points = db.points)
    (own : UInt32 → Owner ν) : Frame c db db' own own := by
  have hrows : ∀ id, rowsOf db' id = rowsOf db id := by
    intro id
    rw [rowsOf, rowsOf, hpoints]
  refine ⟨fun id hid => ⟨?_, rfl⟩, fun id _ _ => hrows id, fun id _ _ => hrows id⟩
  rw [ids, hsweeps]
  exact hid

/-- A sweep is added, with an id that was not there. -/
theorem frame_sweep (own : UInt32 → Owner ν) (c : Nat) (o : Owner ν)
    (startFrequency frequencyIncrement : ν)
    (hfresh : db.nextSweepId ∉ ids db) :
    Frame c db (db.execute (.insertSweep startFrequency frequencyIncrement)) own
      (Function.update own db.nextSweepId o) := by
  refine ⟨fun id hid => ⟨?_, ?_⟩, fun _ _ _ => rfl, fun _ _ _ => rfl⟩
  · rw [ids, Database.execute, List.map_append]
    exact List.mem_append_left _ hid
  · refine Function.update_of_ne ?_ _ _
    rintro rfl
    exact hfresh hid

/-- The points under an id, after one more. -/
theorem rowsOf_insert (db : Database ν) (id : UInt32) (row : PointRow ν) :
    rowsOf { db with points := db.points ++ [row] } id =
      if row.raw_data_sweep_id = id then rowsOf db id ++ [row] else rowsOf db id := by
  simp only [rowsOf, List.filter_append, List.filter_cons, List.filter_nil, beq_iff_eq]
  split
  · rfl
  · rw [List.append_nil]

theorem rows_succ (o : Owner ν) (id : UInt32) (k : Nat) :
    o.rows id (k + 1) = o.rows id k ++ [o.rawDataSet.row o.part id k] := by
  rw [Owner.rows, Owner.rows, List.range_succ, List.map_append, List.map_singleton]

theorem length_rows (o : Owner ν) (id : UInt32) (k : Nat) : (o.rows id k).length = k := by
  rw [Owner.rows, List.length_map, List.length_range]

/-- Connection `c` has stored a point of its sweep `id`, which was not the last
    one. -/
theorem frame_point (db : Database ν) (own : UInt32 → Owner ν) (c : Nat) (o : Owner ν)
    (id : UInt32) (i : Nat) (hc : o.connection = c)
    (hlt : i < o.count) (hid : id ≠ 0 → own id = o ∧ rowsOf db id = o.rows id i)
    (hnonzero : 0 ∉ ids db) :
    Frame c db { db with points := db.points ++ [o.rawDataSet.row o.part id i] } own own := by
  refine ⟨fun id' hid' => ⟨hid', rfl⟩, fun id' hid' hother => ?_, fun id' hid' hwhole => ?_⟩
  · rw [rowsOf_insert, if_neg]
    rintro (rfl : id = id')
    have hne : id ≠ 0 := fun hzero => hnonzero (hzero ▸ hid')
    rw [(hid hne).1] at hother
    exact hother hc
  · rw [rowsOf_insert, if_neg]
    -- A sweep that is whole is not the one in progress.
    rintro (rfl : id = id')
    have hne : id ≠ 0 := fun hzero => hnonzero (hzero ▸ hid')
    rw [(hid hne).1, (hid hne).2] at hwhole
    have hlen := congrArg List.length hwhole
    rw [length_rows, length_rows] at hlen
    omega

end Frames

/-! ### The data sets -/

/-- A data set refers to its sweeps after an event if it did before, or if the
    event was this update. -/
theorem refers_record (db : Database ν) (e : Event ν) (row' : DataSetRow ν)
    (hrow' : row' ∈ (db.record e).dataSets) (baseId afterExposureId : UInt32)
    (hsweeps : row'.sweeps = some (baseId, afterExposureId)) :
    (∃ row ∈ db.dataSets, row.idDevice = row'.idDevice ∧ row.dataSet = row'.dataSet ∧
        row.sweeps = some (baseId, afterExposureId)) ∨
      e = .statement (.updateDataSet baseId afterExposureId row'.idDevice
        row'.dataSet.idMeasurement) true := by
  have hold : row' ∈ db.dataSets → ∃ row ∈ db.dataSets, row.idDevice = row'.idDevice ∧
      row.dataSet = row'.dataSet ∧ row.sweeps = some (baseId, afterExposureId) :=
    fun hmem => ⟨row', hmem, rfl, rfl, hsweeps⟩
  cases e with
  | send topic | modifyEpollEvent events => exact Or.inl (hold hrow')
  | statement st success =>
      cases success with
      | false => exact Or.inl (hold hrow')
      | true =>
          cases st with
          | insertDataSet idDevice dataSet =>
              rcases List.mem_append.mp hrow' with hmem | hnew
              · exact Or.inl (hold hmem)
              · rw [List.mem_singleton.mp hnew] at hsweeps
                simp only [reduceCtorEq] at hsweeps
          | updateDataSet b a idDevice idMeasurement =>
              rcases List.mem_map.mp hrow' with ⟨row, hrow, heq⟩
              -- A row of this device and measurement is updated, and no other.
              by_cases hof : row.isOf idDevice idMeasurement = true
              · rw [if_pos hof] at heq
                rw [← heq] at hsweeps ⊢
                simp only [Option.some.injEq, Prod.mk.injEq] at hsweeps
                simp only [DataSetRow.isOf, Bool.and_eq_true, beq_iff_eq] at hof
                exact Or.inr (by rw [hsweeps.1, hsweeps.2, hof.1, hof.2])
              · rw [if_neg hof] at heq
                rw [← heq] at hsweeps ⊢
                exact Or.inl ⟨row, hrow, rfl, rfl, hsweeps⟩
          | updateDataRequired required idDevice idMeasurement =>
              rcases List.mem_map.mp hrow' with ⟨row, hrow, heq⟩
              refine Or.inl ⟨row, hrow, ?_⟩
              by_cases hof : row.isOf idDevice idMeasurement = true
              · rw [if_pos hof] at heq
                rw [← heq] at hsweeps ⊢
                exact ⟨rfl, rfl, hsweeps⟩
              · rw [if_neg hof] at heq
                rw [← heq] at hsweeps ⊢
                exact ⟨rfl, rfl, hsweeps⟩
          | _ => exact Or.inl (hold hrow')

/-! ### The tables after a step -/

section Steps

variable {pushed : Nat → UInt64 → RawDataSet ν → Prop} {failed : Nat → Prop}
  {db : Database ν} {own : UInt32 → Owner ν}

/-- The data sets of the tables refer to what they referred to, and to what this
    update says. -/
theorem unmixed_refers (c : Nat) (e : Event ν) (own' : UInt32 → Owner ν)
    (hframe : Frame c db (db.record e) own own') (h : Unmixed pushed failed db own)
    (hrefer : ∀ baseId afterExposureId idDevice idMeasurement,
      e = .statement (.updateDataSet baseId afterExposureId idDevice idMeasurement) true →
      Refers pushed failed db own idDevice idMeasurement baseId afterExposureId) :
    ∀ row ∈ (db.record e).dataSets, ∀ baseId afterExposureId,
      row.sweeps = some (baseId, afterExposureId) →
      Refers pushed failed (db.record e) own' row.idDevice row.dataSet.idMeasurement baseId
        afterExposureId := by
  intro row hrow baseId afterExposureId hsweeps
  refine refers_frame hframe _ _ _ _ ?_
  rcases refers_record db e row hrow baseId afterExposureId hsweeps with
    ⟨old, hold, hdevice, hdataSet, hsame⟩ | hupdate
  · rw [← hdevice, ← hdataSet]
    exact h.refers old hold baseId afterExposureId hsame
  · exact hrefer _ _ _ _ hupdate

/-- An event that leaves sweeps and points alone. -/
theorem unmixed_same (c : Nat) (e : Event ν) (hsweeps : (db.record e).sweeps = db.sweeps)
    (hpoints : (db.record e).points = db.points) (h : Unmixed pushed failed db own)
    (hrefer : ∀ baseId afterExposureId idDevice idMeasurement,
      e = .statement (.updateDataSet baseId afterExposureId idDevice idMeasurement) true →
      Refers pushed failed db own idDevice idMeasurement baseId afterExposureId) :
    Unmixed pushed failed (db.record e) own := by
  have hids : ids (db.record e) = ids db := by rw [ids, ids, hsweeps]
  have hrows : ∀ id, rowsOf (db.record e) id = rowsOf db id := by
    intro id
    rw [rowsOf, rowsOf, hpoints]
  -- The tables of sweeps and points are as before, so only the reference has to be checked.
  refine ⟨?_, ?_, ?_, ?_, ?_,
    unmixed_refers c e own (frame_same c hsweeps hpoints own) h hrefer⟩
  · rw [hids]
    exact h.distinct
  · rw [hids]
    exact h.nonzero
  · rw [hsweeps]
    exact h.sweeps
  · simp only [hids, hrows]
    exact h.points
  · simp only [hids, hpoints]
    exact h.known

/-- A sweep is added. It has no points yet. -/
theorem unmixed_sweep (c : Nat) (o : Owner ν) (hgiven : Given db) (hnext : db.nextSweepId ≠ 0)
    (hpushed : pushed o.connection o.idDevice o.rawDataSet) (h : Unmixed pushed failed db own) :
    Unmixed pushed failed (db.execute (.insertSweep (o.rawDataSet.sweep o.part).startFrequency
        (o.rawDataSet.sweep o.part).frequencyIncrement))
        (Function.update own db.nextSweepId o) ∧
      rowsOf (db.execute (.insertSweep (o.rawDataSet.sweep o.part).startFrequency
        (o.rawDataSet.sweep o.part).frequencyIncrement)) db.nextSweepId = [] := by
  have hfresh := (next_of_given db hgiven hnext).1
  have hgiven' := given_insertSweep db hgiven hnext (o.rawDataSet.sweep o.part).startFrequency
    (o.rawDataSet.sweep o.part).frequencyIncrement
  have hframe := frame_sweep own c o (o.rawDataSet.sweep o.part).startFrequency
    (o.rawDataSet.sweep o.part).frequencyIncrement hfresh
  -- Points under the new id would belong to a sweep there was.
  have hempty : rowsOf db db.nextSweepId = [] := by
    rw [rowsOf, List.filter_eq_nil_iff]
    intro row hrow heq
    rw [beq_iff_eq] at heq
    exact hfresh (heq ▸ h.known row hrow (by rw [heq]; exact hnext))
  refine ⟨⟨nodup_of_given _ hgiven', nonzero_of_given _ hgiven', fun sweep hsweep => ?_,
    fun id hid => ?_, fun row hrow hne => (hframe.ids _ (h.known row hrow hne)).1, ?_⟩, hempty⟩
  · rcases List.mem_append.mp hsweep with hold | hnew
    · rw [(hframe.ids sweep.id (List.mem_map_of_mem hold)).2]
      exact h.sweeps sweep hold
    · rw [List.mem_singleton.mp hnew, Function.update_self]
      exact ⟨hpushed, rfl, rfl⟩
  · rw [ids, Database.execute, List.map_append, List.mem_append, List.map_singleton,
      List.mem_singleton] at hid
    rcases hid with hold | rfl
    · rw [(hframe.ids id hold).2]
      exact h.points id hold
    · exact ⟨0, Nat.zero_le _, hempty⟩
  · exact unmixed_refers c (.statement (.insertSweep _ _) true) _ hframe h
      (fun _ _ _ _ heq => by simp only [Event.statement.injEq, reduceCtorEq, false_and] at heq)

/-- A point is added, behind those the sweep has. -/
theorem unmixed_point (c : Nat) (o : Owner ν) (id : UInt32) (i : Nat) (hc : o.connection = c)
    (hlt : i < o.count) (hid : id ≠ 0 → id ∈ ids db ∧ own id = o ∧ rowsOf db id = o.rows id i)
    (h : Unmixed pushed failed db own) :
    Unmixed pushed failed
      { db with points := db.points ++ [o.rawDataSet.row o.part id i] } own := by
  have hframe : Frame c db { db with points := db.points ++ [o.rawDataSet.row o.part id i] } own
      own := frame_point db own c o id i hc hlt (fun hne => (hid hne).2) h.nonzero
  refine ⟨h.distinct, h.nonzero, h.sweeps, fun id' hid' => ?_, fun row hrow hne => ?_, ?_⟩
  · -- The row goes to its own sweep; the rows of every other sweep are as before.
    rw [rowsOf_insert]
    by_cases heq : (o.rawDataSet.row o.part id i).raw_data_sweep_id = id'
    · have hsame : id = id' := heq
      have hne : id ≠ 0 := fun hzero => h.nonzero (hzero ▸ hsame ▸ hid')
      rw [if_pos heq, ← hsame, (hid hne).2.1, (hid hne).2.2]
      exact ⟨i + 1, hlt, (rows_succ o id i).symm⟩
    · rw [if_neg heq]
      exact h.points id' hid'
  · rcases List.mem_append.mp hrow with hold | hnew
    · exact h.known row hold hne
    · rw [List.mem_singleton.mp hnew] at hne ⊢
      exact (hid hne).1
  · exact unmixed_refers c (.statement (.insertDatapoint _ _ _) true) _ hframe h
      (fun _ _ _ _ heq => by simp only [Event.statement.injEq, reduceCtorEq, false_and] at heq)

end Steps

/-! ### Runs -/

/-- A statement of the connection throws. -/
def Failed (logs : Nat → List (Event ν)) (c : Nat) : Prop :=
  ∃ st, .statement st false ∈ logs c

section Runs

variable (pushed : Nat → UInt64 → RawDataSet ν → Prop) (logs : Nat → List (Event ν))
  (path : Nat → Nat → Cursor ν)

/-- The invariant of the tables and the connections. -/
structure Kept (own : UInt32 → Owner ν) (s : State ν) : Prop where
  given : Given s.db
  unmixed : Unmixed pushed (Failed logs) s.db own
  cursors : ∀ c, At pushed (Failed logs) s.db own c (s.lastInsertId c) (path c (s.position c))
  counted : ∀ c, s.statements c = (flags ((logs c).take (s.position c))).length

end Runs

variable {pushed : Nat → UInt64 → RawDataSet ν → Prop} {logs : Nat → List (Event ν)}
  {path : Nat → Nat → Cursor ν} {env : Nat → Environment}

/-- What is to be shown of a step of connection `c`. -/
theorem kept_frame (own own' : UInt32 → Owner ν) (s t : State ν) (c : Nat) (e : Event ν)
    (hs : Kept pushed logs path own s) (he : (logs c)[s.position c]? = some e)
    (hstep : step env logs s c = some t) (hgiven : Given (s.db.record e))
    (hframe : Frame c s.db (s.db.record e) own own')
    (hunmixed : Unmixed pushed (Failed logs) (s.db.record e) own')
    (hat : At pushed (Failed logs) (s.db.record e) own' c (lastAfter (s.lastInsertId c) s.db e)
      (path c (s.position c + 1))) : Kept pushed logs path own' t := by
  simp only [step, he] at hstep
  -- The database allows the statement, or there is no step.
  split at hstep
  · rw [Option.some.injEq] at hstep
    rw [← hstep]
    refine ⟨hgiven, hunmixed, fun d => ?_, fun d => ?_⟩
    · -- The cursor of this connection moves; those of the others see what they have seen.
      by_cases hd : d = c
      · subst hd
        simp only [Function.update_self]
        exact hat
      · simp only [Function.update_of_ne hd]
        exact at_frame hframe hd _ _ (hs.cursors d)
    · by_cases hd : d = c
      · subst hd
        have htake : (logs d).take (s.position d + 1) = (logs d).take (s.position d) ++ [e] := by
          rw [List.take_add_one, he]
          rfl
        simp only [Function.update_self]
        rw [htake, Push.flags_append, List.length_append, ← hs.counted d]
        cases e <;> rfl
      · simp only [Function.update_of_ne hd]
        exact hs.counted d
  · simp only [reduceCtorEq] at hstep

/-- An event that leaves sweeps, points and ids alone. -/
theorem kept_same (own : UInt32 → Owner ν) (s t : State ν) (c : Nat) (e : Event ν)
    (hs : Kept pushed logs path own s) (he : (logs c)[s.position c]? = some e)
    (hstep : step env logs s c = some t)
    (hsame : (s.db.record e).sweeps = s.db.sweeps ∧ (s.db.record e).points = s.db.points ∧
      (s.db.record e).nextSweepId = s.db.nextSweepId)
    (hrefer : ∀ baseId afterExposureId idDevice idMeasurement,
      e = .statement (.updateDataSet baseId afterExposureId idDevice idMeasurement) true →
      Refers pushed (Failed logs) s.db own idDevice idMeasurement baseId afterExposureId)
    (hat : At pushed (Failed logs) s.db own c (lastAfter (s.lastInsertId c) s.db e)
      (path c (s.position c + 1))) : Kept pushed logs path own t := by
  rcases hsame with ⟨hsweeps, hpoints, hnext⟩
  have hframe := frame_same c hsweeps hpoints own
  refine kept_frame own own s t c e hs he hstep ?_ hframe
    (unmixed_same c e hsweeps hpoints hs.unmixed hrefer) ?_
  · exact ⟨by rw [ids, hsweeps]; exact hs.given.ids, by rw [hnext, hsweeps]; exact hs.given.next,
      by rw [hsweeps]; exact hs.given.few⟩
  · -- Not even connection `c` sees a difference.
    exact at_frame (frame_same (c + 1) hsweeps hpoints own) (Nat.ne_of_lt c.lt_succ_self) _ _ hat

theorem failed_of_event {c i : Nat} {st : Push.Statement ν}
    (h : (logs c)[i]? = some (.statement st false)) : Failed logs c :=
  ⟨st, List.mem_of_getElem? h⟩

/-- An event that has come was possible. -/
theorem possible_of_step (s t : State ν) (c : Nat) (e : Event ν)
    (he : (logs c)[s.position c]? = some e) (hstep : step env logs s c = some t) :
    possible (env c) (s.statements c) (s.lastInsertId c) s.db e = true := by
  simp only [step, he] at hstep
  split at hstep
  · assumption
  · simp only [reduceCtorEq] at hstep

/-- A sweep is about to be inserted. -/
theorem kept_insertSweep (own : UInt32 → Owner ν) (s t : State ν) (c : Nat)
    (idDevice : UInt64) (rawDataSet : RawDataSet ν) (part : Part) (baseId : UInt32)
    (cut success : Bool) (hs : Kept pushed logs path own s)
    (he : (logs c)[s.position c]? = some (.statement
      (.insertSweep (rawDataSet.sweep part).startFrequency
        (rawDataSet.sweep part).frequencyIncrement) success))
    (hnext : path c (s.position c + 1) = .inserted idDevice rawDataSet part baseId cut success)
    (hstep : step env logs s c = some t) (hpushed : pushed c idDevice rawDataSet)
    (hcut : cut = true → Failed logs c)
    (hbase : part = .afterExposure →
      Stored (Failed logs) s.db own ⟨c, idDevice, rawDataSet, .base⟩ baseId) :
    ∃ own', Kept pushed logs path own' t := by
  -- A failed insert leaves no sweep, and the cursor says so.
  cases success with
  | false =>
      refine ⟨own, kept_same own s t c _ hs he hstep ⟨rfl, rfl, rfl⟩ nofun ?_⟩
      rw [hnext]
      exact ⟨⟨hpushed, fun _ => failed_of_event he, hbase⟩, Nat.zero_le _, fun _ => rfl,
        fun hne => absurd rfl hne⟩
  | true =>
      -- A new id is nobody's, so it becomes this part's.
      have hfree : s.db.nextSweepId ≠ 0 :=
        of_decide_eq_true (possible_of_step s t c _ he hstep)
      rcases unmixed_sweep c ⟨c, idDevice, rawDataSet, part⟩ hs.given hfree hpushed hs.unmixed with
        ⟨hunmixed, hempty⟩
      have hframe := frame_sweep own c ⟨c, idDevice, rawDataSet, part⟩
        (rawDataSet.sweep part).startFrequency (rawDataSet.sweep part).frequencyIncrement
        (next_of_given s.db hs.given hfree).1
      refine ⟨_, kept_frame own _ s t c _ hs he hstep (given_insertSweep s.db hs.given hfree _ _)
        hframe hunmixed ?_⟩
      rw [hnext]
      refine ⟨⟨hpushed, hcut, fun hpart => stored_frame hframe _ _ (hbase hpart)⟩, ?_,
        Function.update_self _ _ _, hempty⟩
      simp only [ids, Push.Database.record, Database.execute, lastAfter, List.map_append,
        List.map_singleton, List.mem_append, List.mem_singleton, or_true]

/-- A sweep that is over, with all its points or after an exception. -/
theorem stored_of_complete (own : UInt32 → Owner ν) (db : Database ν) (c : Nat) (last : UInt32)
    (idDevice : UInt64) (rawDataSet : RawDataSet ν) (part : Part) (baseId id : UInt32) (i : Nat)
    (cut : Bool) (hcomplete : cut = true ∨ i = (rawDataSet.sweep part).dataCount.toNat)
    (hat : At pushed (Failed logs) db own c last
      (.storing idDevice rawDataSet part baseId id i cut)) :
    Stored (Failed logs) db own ⟨c, idDevice, rawDataSet, part⟩ id := by
  rcases hat with ⟨⟨_, hcut, _⟩, _, hzero, hid⟩
  refine ⟨fun hne => ⟨(hid hne).1, (hid hne).2.1⟩, fun hgood => ?_⟩
  have hnocut : cut ≠ true := fun h => hgood (hcut h)
  have hne : id ≠ 0 := fun h => hnocut (hzero h)
  refine ⟨hne, ?_⟩
  rw [(hid hne).2.2, hcomplete.resolve_left hnocut]
  rfl

theorem plain_record (db : Database ν) (e : Event ν) (h : e.plain = true) :
    (db.record e).sweeps = db.sweeps ∧ (db.record e).points = db.points ∧
      (db.record e).nextSweepId = db.nextSweepId := by
  cases e with
  | send topic | modifyEpollEvent events => exact ⟨rfl, rfl, rfl⟩
  | statement st success =>
      cases success with
      | false => exact ⟨rfl, rfl, rfl⟩
      | true =>
          cases st <;> first
            | exact ⟨rfl, rfl, rfl⟩
            | exact absurd h Bool.false_ne_true

theorem plain_last (last : UInt32) (db : Database ν) (e : Event ν) (h : e.plain = true) :
    lastAfter last db e = last := by
  cases e with
  | send topic | modifyEpollEvent events => rfl
  | statement st success =>
      cases st <;> first
        | rfl
        | exact absurd h Bool.false_ne_true

theorem kept_step (s t : State ν) (c : Nat)
    (hpath : ∀ c i e, (logs c)[i]? = some e →
      Move (env c) (pushed c) (flags ((logs c).take i)).length (path c i) e (path c (i + 1)))
    (hs : ∃ own, Kept pushed logs path own s) (hstep : step env logs s c = some t) :
    ∃ own, Kept pushed logs path own t := by
  rcases hs with ⟨own, hs⟩
  cases he : (logs c)[s.position c]? with
  | none => simp only [step, he, reduceCtorEq] at hstep
  | some e =>
      have hat := hs.cursors c
      have hmove := hpath c (s.position c) e he
      generalize hκ : path c (s.position c) = κ at hat hmove
      generalize hκ' : path c (s.position c + 1) = κ' at hmove
      cases hmove with
      | pass _ _ hplain =>
          refine ⟨own, kept_same own s t c e hs he hstep (plain_record s.db e hplain) ?_ ?_⟩
          · rintro baseId afterExposureId idDevice idMeasurement rfl
            exact absurd hplain Bool.false_ne_true
          · rw [hκ', plain_last _ s.db e hplain]
            exact hat
      | base _ idDevice rawDataSet hpushed success =>
          exact kept_insertSweep own s t c idDevice rawDataSet .base 0 false success hs he hκ' hstep
            hpushed nofun nofun
      | afterExposure idDevice rawDataSet baseId id i cut hcomplete success =>
          exact kept_insertSweep own s t c idDevice rawDataSet .afterExposure id cut success hs he
            hκ' hstep hat.1.1 hat.1.2.1
            (fun _ => stored_of_complete own s.db c _ idDevice rawDataSet .base baseId id i cut
              hcomplete hat)
      | id idDevice rawDataSet part baseId cut row hrow =>
          refine ⟨own, kept_same own s t c _ hs he hstep ⟨rfl, rfl, rfl⟩ nofun ?_⟩
          rw [hκ']
          -- The query gives the id of the sweep this connection has just inserted.
          have hanswer := of_decide_eq_true (possible_of_step s t c _ he hstep)
          rw [hs.counted c, hrow, Outcome.done.injEq] at hanswer
          rw [hanswer, Option.getD_some]
          have hne : s.lastInsertId c ≠ 0 :=
            fun hzero => hs.unmixed.nonzero (hzero ▸ hat.2.1)
          exact ⟨hat.1, Nat.zero_le _, fun hzero => absurd hzero hne, fun _ => hat.2⟩
      | noId idDevice rawDataSet part baseId cut =>
          refine ⟨own, kept_same own s t c _ hs he hstep ⟨rfl, rfl, rfl⟩ nofun ?_⟩
          rw [hκ']
          exact ⟨⟨hat.1.1, fun _ => failed_of_event he, hat.1.2.2⟩, Nat.zero_le _, fun _ => rfl,
            fun hne => absurd rfl hne⟩
      | point idDevice rawDataSet part baseId id i cut hlt =>
          have hid := hat.2.2.2
          have hframe := frame_point s.db own c ⟨c, idDevice, rawDataSet, part⟩ id
            i rfl hlt (fun hne => (hid hne).2) hs.unmixed.nonzero
          have hunmixed := unmixed_point c ⟨c, idDevice, rawDataSet, part⟩ id i rfl hlt hid
            hs.unmixed
          refine ⟨own, kept_frame own own s t c _ hs he hstep ⟨hs.given.ids, hs.given.next,
            hs.given.few⟩ hframe hunmixed ?_⟩
          rw [hκ']
          refine ⟨⟨hat.1.1, hat.1.2.1, fun hpart => stored_frame hframe _ _ (hat.1.2.2 hpart)⟩, hlt,
            hat.2.2.1, fun hne => ⟨(hid hne).1, (hid hne).2.1, ?_⟩⟩
          rw [rows_succ, ← (hid hne).2.2]
          exact (rowsOf_insert s.db id _).trans (if_pos rfl)
      | noPoint idDevice rawDataSet part baseId id i j cut point =>
          refine ⟨own, kept_same own s t c _ hs he hstep ⟨rfl, rfl, rfl⟩ nofun ?_⟩
          rw [hκ']
          exact ⟨⟨hat.1.1, fun _ => failed_of_event he, hat.1.2.2⟩, hat.2.1, fun _ => rfl,
            hat.2.2.2⟩
      | refer idDevice rawDataSet baseId id i cut hcomplete =>
          refine ⟨own, kept_same own s t c _ hs he hstep ⟨rfl, rfl, rfl⟩ ?_ ?_⟩
          · intro _ _ _ _ heq
            simp only [Event.statement.injEq, Push.Statement.updateDataSet.injEq, and_true] at heq
            rcases heq with ⟨rfl, rfl, rfl, rfl⟩
            exact ⟨c, rawDataSet, hat.1.1, rfl, hat.1.2.2 rfl, stored_of_complete own s.db c _
              idDevice rawDataSet .afterExposure baseId id i cut hcomplete hat⟩
          · rw [hκ']
            exact hat

/-- Any number of connections, each with any requests of its client and any
    outcomes of its statements, and their statements in any order: at every
    moment the tables are not mixed up. Each sweep is one of a raw data set that
    some connection has received, and the points under its id are the first
    ones of this sweep, each once and in order; and where a data set refers to
    sweeps, they are those of a raw data set that its device has pushed for its
    measurement, with all their points unless a statement of that connection has
    thrown. -/
theorem stores_unmixed [Inhabited ν] (L : Layout ν) (env : Nat → Environment) (t : Nat → Session ν)
    (ht : ∀ c, (sessions L (env c)).Reaches (Session.opened ν) (t c)) (s : State ν)
    (hs : (machine env fun c => (t c).events).Reaches (initial ν) s) :
    ∃ own, Unmixed (fun c => Pushed L (env c)) (Failed fun c => (t c).events) s.db own := by
  have hall : ∀ c, ∃ path : Nat → Cursor ν, path 0 = .idle ∧
      ∀ i e, (t c).events[i]? = some e →
        Move (env c) (Pushed L (env c)) (flags ((t c).events.take i)).length (path i) e
          (path (i + 1)) := by
    intro c
    rcases Push.reaches_tracked L (env c) (t c) (ht c) with ⟨κ, hfollows, _⟩
    rcases Push.path_of_follows hfollows with ⟨path, hstart, _, hpath⟩
    exact ⟨path, hstart, hpath⟩
  choose path hstart hpath using hall
  have hrun : ∃ own, Kept (fun c => Pushed L (env c)) (fun c => (t c).events) path own s := by
    refine Machine.invariant (I := fun s => ∃ own,
      Kept (fun c => Pushed L (env c)) (fun c => (t c).events) path own s) hs ?_
      (fun u c v hu _ hstep => kept_step u v c hpath hu hstep)
    -- The tables are empty, and every connection is at the beginning of its log.
    refine ⟨fun _ => ⟨0, 0, ⟨0, ⟨0, default, default⟩, ⟨0, default, default⟩,
      fun _ => ⟨default, default⟩⟩, .base⟩, ⟨rfl, rfl, Nat.two_pow_pos 32⟩, ?_, fun c => ?_,
      fun _ => rfl⟩
    · exact ⟨List.nodup_nil, List.not_mem_nil, fun _ h => absurd h List.not_mem_nil,
        fun _ h => absurd h List.not_mem_nil, fun _ h => absurd h List.not_mem_nil,
        fun _ h => absurd h List.not_mem_nil⟩
    · rw [initial, hstart]
      trivial
  rcases hrun with ⟨own, hkept⟩
  exact ⟨own, hkept.unmixed⟩

/-- Two connections whose sweeps are given the ids 1 and 3, and 2 and 4. -/
def alternating (c : Nat) : Environment :=
  { outcomes := fun n => .done (if n = 1 then some (if c = 0 then 1 else 2)
      else if n = 3 then some (if c = 0 then 3 else 4) else none)
    reallocs := fun _ => some (fun _ => 0) }

/-- The session of each, after a transfer in one block. -/
def pushedOnce (c : Nat) : Session UInt32 :=
  ((sessions packedLayout (alternating c)).step (Session.opened UInt32)
    (.rawDataPush zeroTransfer)).getD (Session.opened UInt32)

/-- The statements of the two, in turn. -/
theorem stores_unmixed_two :
    ∃ s : State UInt32, ∃ own, s.db.sweeps.length = 4 ∧
      Unmixed (fun c => Pushed packedLayout (alternating c))
        (Failed fun c => (pushedOnce c).events) s.db own := by
  have hsessions : ∀ c, (sessions packedLayout (alternating c)).Reaches (Session.opened UInt32)
      (pushedOnce c) := by
    intro c
    unfold pushedOnce
    cases hstep : (sessions packedLayout (alternating c)).step (Session.opened UInt32)
      (.rawDataPush zeroTransfer) with
    | none => exact Machine.reaches_refl _
    | some t => exact Machine.reaches_step (Machine.reaches_refl _) hstep
  rcases Machine.reaches_of_check (M := machine alternating fun c => (pushedOnce c).events)
    (s := initial UInt32) [0, 1, 0, 1, 0, 1, 0, 1, 0, 1] (fun s => s.db.sweeps.length == 4)
    (by decide +kernel) with ⟨s, hs, hlen⟩
  rcases stores_unmixed packedLayout alternating pushedOnce hsessions s hs with ⟨own, hown⟩
  exact ⟨s, own, eq_of_beq hlen, hown⟩

end Stores

end EpollServer
