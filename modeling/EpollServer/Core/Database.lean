import EpollServer.Core.Push

/-!
# The Tables behind the Statements

What the statements of `mysqlConnectionPool.cpp` do to the database, as far as
they change it.

The schema is not part of the repository: every table is `TABLE_NAME`. What is
known of it is what the statements bind. A data set has a row of its own and a
row with its sweep frequencies; a sweep has a row, with an id the database
gives it, and one row for each data point, which carries the id of its sweep.
The two updates look rows up by device and measurement.

A statement that throws has not been executed. Nothing in the program opens a
transaction or switches autocommit off, so what a statement has changed stays
whatever comes after it: the database after a number of events is the one
before, changed by the statements that succeeded, in order.

## Main definitions

* `DataSetRow`, `FrequencyRow`, `SweepRow`, `PointRow`: The rows.
* `Database`: The tables.
* `Database.execute`: A statement that succeeds.
* `Database.after`: The database after some events.
-/

namespace EpollServer

namespace Push

/-- A data set, the sweeps it refers to, and whether its raw data are required. -/
structure DataSetRow (ν : Type) where
  idDevice : UInt64
  dataSet : DataSet ν
  sweeps : Option (UInt32 × UInt32)
  rawDatasetRequired : Option Int
  deriving DecidableEq, Repr

/-- The row of the second insert of `mysqlInsertDataSet`. -/
structure FrequencyRow (ν : Type) where
  idDevice : UInt64
  idMeasurement : UInt32
  sweep1fs : ν
  sweep2fs : ν
  initFreq : UInt32
  deriving DecidableEq, Repr

/-- The row of a sweep. -/
structure SweepRow (ν : Type) where
  id : UInt32
  startFrequency : ν
  frequencyIncrement : ν
  deriving DecidableEq, Repr

/-- The row of a point, with the sweep it belongs to. -/
structure PointRow (ν : Type) where
  raw_data_sweep_id : UInt32
  index : UInt32
  point : RawDataPoint ν
  deriving DecidableEq, Repr

/-- The tables a push writes to. -/
structure Database (ν : Type) where
  dataSets : List (DataSetRow ν)
  frequencies : List (FrequencyRow ν)
  sweeps : List (SweepRow ν)
  points : List (PointRow ν)
  /-- The id the next sweep is given. -/
  nextSweepId : UInt32
  deriving DecidableEq, Repr

/-- No rows. -/
def Database.empty (ν : Type) : Database ν :=
  { dataSets := [], frequencies := [], sweeps := [], points := [], nextSweepId := 1 }

variable {ν : Type}

/-- The row belongs to a measurement of a device. -/
def DataSetRow.isOf (idDevice : UInt64) (idMeasurement : UInt32) (row : DataSetRow ν) : Bool :=
  row.idDevice == idDevice && row.dataSet.idMeasurement == idMeasurement

/-- An `UPDATE` of the rows of a measurement. -/
def Database.update (db : Database ν) (idDevice : UInt64) (idMeasurement : UInt32)
    (f : DataSetRow ν → DataSetRow ν) : Database ν :=
  { db with
    dataSets := db.dataSets.map fun row => if row.isOf idDevice idMeasurement then f row else row }

/-- A statement that succeeds. -/
def Database.execute (db : Database ν) : Statement ν → Database ν
  | .insertDataSet idDevice dataSet =>
      { db with dataSets := db.dataSets ++
          [{ idDevice := idDevice, dataSet := dataSet, sweeps := none,
             rawDatasetRequired := none }] }
  | .insertDataSetRaw idDevice idMeasurement sweep1fs sweep2fs initFreq =>
      { db with frequencies := db.frequencies ++
          [{ idDevice := idDevice, idMeasurement := idMeasurement, sweep1fs := sweep1fs,
             sweep2fs := sweep2fs, initFreq := initFreq }] }
  | .insertSweep startFrequency frequencyIncrement =>
      { db with
        sweeps := db.sweeps ++
          [{ id := db.nextSweepId, startFrequency := startFrequency,
             frequencyIncrement := frequencyIncrement }]
        nextSweepId := db.nextSweepId + 1 }
  | .insertDatapoint raw_data_sweep_id i point =>
      { db with points := db.points ++
          [{ raw_data_sweep_id := raw_data_sweep_id, index := i, point := point }] }
  | .updateDataSet baseId afterExposureId idDevice idMeasurement =>
      db.update idDevice idMeasurement fun row =>
        { row with sweeps := some (baseId, afterExposureId) }
  | .updateDataRequired rawDatasetRequired idDevice idMeasurement =>
      db.update idDevice idMeasurement fun row =>
        { row with rawDatasetRequired := some rawDatasetRequired }
  | .selectLastInsertId => db
  | .selectDataRequired _ => db
  | .query => db

/-- What an event does to the database. -/
def Database.record (db : Database ν) : Event ν → Database ν
  | .statement st true => db.execute st
  | _ => db

/-- The database after some events. -/
def Database.after (db : Database ν) (E : List (Event ν)) : Database ν := E.foldl Database.record db

end Push

end EpollServer
