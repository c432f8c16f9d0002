import EpollServer.Core.Epoll

/-!
# Pushing Measurements into the Database

The two push handlers of `server.cpp`, the functions of
`mysqlConnectionPool.cpp` they call, and the loop over the requests of one
connection.

A database function runs its statements inside `try`: the first one that
throws leaves the block, and the function returns a value that says so.
`catchSql` is that shape. Whether a statement throws is not up to the
program, so the environment has an outcome for each one, by its number on the
connection. The same goes for the memory `realloc` returns. `PushM` is the
state of the connection with a crash, for a `memcpy` outside its buffers.

The structures of `mqs.h` are not part of the repository. `Layout` stands for
what the code uses of them: their sizes, and reading a raw data set from
memory. Floating-point fields are passed on to the database and nothing else,
so their type is a parameter.

`events` is not part of the program. It records in order the statements, with
their success, the messages sent and the changes of the epoll registration.

## Main definitions

* `DataSet`, `RawDataSet`, `MqsCldFile`: What the requests carry.
* `Statement`, `Outcome`: The database statements and what may come of them.
* `Session`: The state of a connection and of its handler.
* `catchSql`: A function that swallows `SQLException`.
* `mysqlInsertDataSet`, `mysqlInsertRawDataSet`, `mysqlUpdateDataRequired`:
  The database functions.
* `checkAssemblyBuffer`, `receiveBlock`: The assembly of a transfer.
* `handleDataLogPushRequest`, `handleRawDataPushRequest`: The handlers.
* `handleRequest`, `serve`: The requests of a connection, one after the other.
* `sessions`: A connection as a machine.
-/

namespace EpollServer

namespace Push

/-- `MqsDataSet_t`. -/
structure DataSet (ν : Type) where
  idMeasurement : UInt32
  idCartridge : UInt32
  versionDevice : UInt32
  versionAlgorithm : UInt32
  meatType : UInt32
  meatQualityIndex : ν
  meatTemperature : ν
  timestamp : UInt64
  batch_uid : UInt32
  sweep1fs : ν
  sweep2fs : ν
  initFreq : UInt32
  deriving DecidableEq, Repr

/-- `MqsRawDataSweep_t`. -/
structure RawDataSweep (ν : Type) where
  dataCount : UInt32
  startFrequency : ν
  frequencyIncrement : ν
  deriving DecidableEq, Repr

/-- `MqsRawDataPoint_t`. -/
structure RawDataPoint (ν : Type) where
  phaseAngle : ν
  impedance : ν
  deriving DecidableEq, Repr

/-- `MqsRawDataSet_t`. `data` is what lies in memory behind its header. -/
structure RawDataSet (ν : Type) where
  idMeasurement : UInt32
  base : RawDataSweep ν
  afterExposure : RawDataSweep ν
  data : Nat → RawDataPoint ν

/-- `MqsCldFile_t`: a block of a transfer, with its array of
    `MQS_CLD_DATA_PAYLOAD_MAX` bytes. -/
structure MqsCldFile (payloadMax : Nat) where
  offset : UInt32
  length : UInt32
  totalLength : UInt32
  data : Vector UInt8 payloadMax

/-- What the code uses of the structures of `mqs.h`. -/
structure Layout (ν : Type) where
  sizeofRawDataSet : Nat
  sizeofRawDataPoint : Nat
  /-- `MQS_CLD_DATA_PAYLOAD_MAX`. -/
  payloadMax : Nat
  /-- Reading a `MqsRawDataSet_t` from memory. -/
  rawDataSet : List UInt8 → RawDataSet ν

/-- The statements, with the values bound to them. -/
inductive Statement (ν : Type) where
  | insertDataSet (idDevice : UInt64) (dataSet : DataSet ν)
  | insertDataSetRaw (idDevice : UInt64) (idMeasurement : UInt32) (sweep1fs sweep2fs : ν)
      (initFreq : UInt32)
  | insertSweep (startFrequency frequencyIncrement : ν)
  | selectLastInsertId
  | insertDatapoint (raw_data_sweep_id i : UInt32) (point : RawDataPoint ν)
  | updateDataSet (baseId afterExposureId : UInt32) (idDevice : UInt64) (idMeasurement : UInt32)
  | updateDataRequired (rawDatasetRequired : Int) (idDevice : UInt64) (idMeasurement : UInt32)
  | selectDataRequired (idDevice : UInt64)
  /-- A query of one of the other handlers. -/
  | query
  deriving DecidableEq, Repr

/-- What comes of a statement: it is executed, and a query may give a row; or
    `SQLException` is thrown. -/
inductive Outcome where
  | done (row : Option UInt32)
  | exception
  deriving DecidableEq, Repr

/-- It is executed. -/
def Outcome.succeeds : Outcome → Bool
  | .done _ => true
  | .exception => false

/-- What the program does not decide. -/
structure Environment where
  /-- The outcome of the n-th statement on the connection. -/
  outcomes : Nat → Outcome
  /-- The n-th `realloc`: it fails, or gives memory with this content. -/
  reallocs : Nat → Option (Nat → UInt8)

/-- The topics of the messages sent. -/
inductive Topic where
  | dataLogPushResponse
  | rawDataPushResponse
  | rawDataRequiredResponse (idMeasurement : UInt32)
  | deviceRegisterResponse
  /-- A response of one of the other handlers. -/
  | other
  deriving DecidableEq, Repr

/-- What happens on a connection while it handles requests. -/
inductive Event (ν : Type) where
  | statement (st : Statement ν) (success : Bool)
  /-- `amilinkSendMessage`. -/
  | send (topic : Topic)
  | modifyEpollEvent (events : Epoll.Interest)
  deriving DecidableEq, Repr

/-- The variables of `connectionHandler`, and what happened on its
    connection. -/
structure Session (ν : Type) where
  idDevice : UInt64
  rawDataSetAssemblyBuffer : Option (List UInt8)
  maxAssemblyLength : UInt32
  /-- How many statements were tried, and how often memory was allocated. -/
  statements : Nat
  allocations : Nat
  events : List (Event ν)
  deriving DecidableEq, Repr

/-- A new connection. -/
def Session.opened (ν : Type) : Session ν :=
  { idDevice := 0, rawDataSetAssemblyBuffer := none, maxAssemblyLength := 0, statements := 0,
    allocations := 0, events := [] }

/-- `sql::SQLException`. -/
inductive SQLException where
  | thrown

/-- A `memcpy` that leaves its buffers. -/
inductive Crash where
  | nullBuffer
  | outOfBounds
  deriving DecidableEq, Repr

/-- The inside of a `try` block. -/
abbrev SqlM (ν β : Type) := EStateM SQLException (Session ν) β

/-- A handler, or a database function as seen from outside. -/
abbrev PushM (ν β : Type) := EStateM Crash (Session ν) β

variable {ν : Type}

/-- Execute a statement. -/
def execute (env : Environment) (st : Statement ν) : SqlM ν (Option UInt32) := fun s =>
  let t : Session ν := { s with
    statements := s.statements + 1,
    events := s.events ++ [.statement st (env.outcomes s.statements).succeeds] }
  match env.outcomes s.statements with
  | .done row => .ok row t
  | .exception => .error .thrown t

/-- `try { body } catch (const sql::SQLException &e) { return fallback; }` -/
def catchSql {β : Type} (body : SqlM ν β) (fallback : β) : PushM ν β := fun s =>
  match body s with
  | .ok b t => .ok b t
  | .error _ t => .ok fallback t

/-- Something that happens without a result. -/
def emit (e : Event ν) : PushM ν Unit := modify fun s => { s with events := s.events ++ [e] }

/-! ### Database functions -/

/-- The loop of `insertRawDatapoints` from index `i` on. -/
def insertPoints (env : Environment) (rawDataSet : RawDataSet ν)
    (raw_data_sweep_id dataOffset : UInt32) : Nat → UInt32 → SqlM ν Unit
  | 0, _ => pure ()
  | n + 1, i => do
      -- The points of both sweeps are in one array, and are numbered from 0 in each.
      let _ ← execute env (.insertDatapoint raw_data_sweep_id i
        (rawDataSet.data (dataOffset + i).toNat))
      insertPoints env rawDataSet raw_data_sweep_id dataOffset n (i + 1)

/-- `insertRawDatapoints`. -/
def insertRawDatapoints (env : Environment) (rawDataSet : RawDataSet ν)
    (dataCount raw_data_sweep_id dataOffset : UInt32) : PushM ν Bool :=
  if dataCount > 0 then
    catchSql (do
      insertPoints env rawDataSet raw_data_sweep_id dataOffset dataCount.toNat 0
      pure true) false
  else pure true

/-- `insertRawDataSweep`. -/
def insertRawDataSweep (env : Environment) (rawDataSweep : RawDataSweep ν) : PushM ν UInt32 :=
  catchSql (do
    let _ ← execute env (.insertSweep rawDataSweep.startFrequency rawDataSweep.frequencyIncrement)
    -- Without a row the id is 0, the same as after an exception.
    let row ← execute env .selectLastInsertId
    pure (row.getD 0)) 0

/-- `insertRawDataSweepAndDatapoints`. The result for the points is dropped. -/
def insertRawDataSweepAndDatapoints (env : Environment) (rawDataSet : RawDataSet ν)
    (rawDataSweep : RawDataSweep ν) (dataOffset : UInt32) : PushM ν UInt32 := do
  let raw_data_sweep_id ← insertRawDataSweep env rawDataSweep
  let _ ← insertRawDatapoints env rawDataSet rawDataSweep.dataCount raw_data_sweep_id dataOffset
  pure raw_data_sweep_id

/-- `mysqlInsertDataSet`. -/
def mysqlInsertDataSet (env : Environment) (idDevice : UInt64) (dataSet : DataSet ν) :
    PushM ν Bool :=
  catchSql (do
    let _ ← execute env (.insertDataSet idDevice dataSet)
    let _ ← execute env (.insertDataSetRaw idDevice dataSet.idMeasurement dataSet.sweep1fs
      dataSet.sweep2fs dataSet.initFreq)
    pure true) false

/-- `insertRawDataSet`. -/
def insertRawDataSet (env : Environment) (idDevice : UInt64)
    (idMeasurement baseId afterExposureId : UInt32) : PushM ν Bool :=
  catchSql (do
    let _ ← execute env (.updateDataSet baseId afterExposureId idDevice idMeasurement)
    pure true) false

/-- `mysqlInsertRawDataSet`. -/
def mysqlInsertRawDataSet (env : Environment) (idDevice : UInt64) (rawDataSet : RawDataSet ν) :
    PushM ν Bool := do
  let baseId ← insertRawDataSweepAndDatapoints env rawDataSet rawDataSet.base 0
  let afterExposureId ← insertRawDataSweepAndDatapoints env rawDataSet rawDataSet.afterExposure
    rawDataSet.base.dataCount
  insertRawDataSet env idDevice rawDataSet.idMeasurement baseId afterExposureId

/-- `mysqlUpdateDataRequired`. -/
def mysqlUpdateDataRequired (env : Environment) (idDevice : UInt64) (idMeasurement : UInt32)
    (rawDatasetRequired : Int) : PushM ν Bool :=
  catchSql (do
    let _ ← execute env (.updateDataRequired rawDatasetRequired idDevice idMeasurement)
    pure true) false

/-- `mysqlGetDataRequired`. -/
def mysqlGetDataRequired (env : Environment) (idDevice : UInt64) : PushM ν UInt32 :=
  catchSql (do
    let row ← execute env (.selectDataRequired idDevice)
    pure (row.getD 0)) 0

/-! ### Assembly -/

/-- `realloc` to `n` bytes: the old bytes are kept as far as they fit. -/
def realloc (env : Environment) (s : Session ν) (n : Nat) : Option (List UInt8) :=
  (env.reallocs s.allocations).map fun fresh =>
    (List.range n).map fun i => (s.rawDataSetAssemblyBuffer.getD []).getD i (fresh i)

/-- `checkAssemblyBuffer`. The sums are 32-bit ones. -/
def checkAssemblyBuffer (L : Layout ν) (env : Environment) (block : MqsCldFile L.payloadMax) :
    PushM ν Bool := do
  let s ← get
  if block.offset + block.length ≤ block.totalLength then
    -- Only a first block is compared with what it declares, and allocates.
    if block.offset = 0 then
      if L.sizeofRawDataSet ≤ block.length.toNat then
        let pRawDataSet := L.rawDataSet block.data.toList
        -- The sum of the counts wraps before it is multiplied.
        let dataCount := pRawDataSet.base.dataCount + pRawDataSet.afterExposure.dataCount
        let maxLength := UInt32.ofNat
          (L.sizeofRawDataSet + dataCount.toNat * L.sizeofRawDataPoint)
        if block.totalLength = maxLength then
          set { s with rawDataSetAssemblyBuffer := realloc env s maxLength.toNat,
                       maxAssemblyLength := maxLength, allocations := s.allocations + 1 }
          pure true
        else pure false
      else pure false
    -- A later block is compared with the length that the first one declared.
    else pure (decide (block.totalLength = s.maxAssemblyLength))
  else pure false

/-- `memcpy(rawDataSetAssemblyBuffer + offset, block.data, block.length)`. -/
def copyBlock (L : Layout ν) (block : MqsCldFile L.payloadMax) : PushM ν Unit := do
  let s ← get
  match s.rawDataSetAssemblyBuffer with
  | none => throw .nullBuffer
  | some buffer =>
      let offset := block.offset.toNat
      let length := block.length.toNat
      if offset + length ≤ buffer.length ∧ length ≤ L.payloadMax then
        let copied := buffer.take offset ++ block.data.toList.take length ++
          buffer.drop (offset + length)
        set { s with rawDataSetAssemblyBuffer := some copied }
      else throw .outOfBounds

/-- The first half of `handleRawDataPushRequest`: whether the block is taken
    and completes the transfer. -/
def receiveBlock (L : Layout ν) (env : Environment) (block : MqsCldFile L.payloadMax) :
    PushM ν Bool := do
  if ← checkAssemblyBuffer L env block then
    copyBlock L block
    pure (decide (block.offset + block.length = block.totalLength))
  else pure false

/-! ### Handlers -/

/-- How every handler sends its response. -/
def respond (topic : Topic) : PushM ν Unit := do
  emit (.modifyEpollEvent .epollOut)
  emit (.send topic)
  emit (.modifyEpollEvent .epollIn)

/-- `handleDataLogPushRequest`. -/
def handleDataLogPushRequest (env : Environment) (dataSet : DataSet ν) : PushM ν Unit := do
  let s ← get
  -- The result is dropped, so that the response follows a failed insert too.
  let _ ← mysqlInsertDataSet env s.idDevice dataSet
  respond .dataLogPushResponse

/-- The second half of `handleRawDataPushRequest`, after a complete transfer. -/
def storeTransfer (L : Layout ν) (env : Environment) : PushM ν Unit := do
  let s ← get
  let pRawDataSet := L.rawDataSet (s.rawDataSetAssemblyBuffer.getD [])
  -- Neither result is looked at before the response.
  let _ ← mysqlInsertRawDataSet env s.idDevice pRawDataSet
  let _ ← mysqlUpdateDataRequired env s.idDevice pRawDataSet.idMeasurement 0
  respond .rawDataPushResponse
  modify fun s => { s with rawDataSetAssemblyBuffer := none, maxAssemblyLength := 0 }

/-- `handleRawDataPushRequest`. -/
def handleRawDataPushRequest (L : Layout ν) (env : Environment)
    (block : MqsCldFile L.payloadMax) : PushM ν Unit := do
  if ← receiveBlock L env block then storeTransfer L env else pure ()

/-- `handleDeviceRegistrationRequest`. -/
def handleDeviceRegistrationRequest (idDevice : UInt64) : PushM ν Unit := do
  modify fun s => { s with idDevice := idDevice }
  respond .deviceRegisterResponse

/-- `handleRawDataRequiredRequest`. -/
def handleRawDataRequiredRequest (env : Environment) : PushM ν Unit := do
  let s ← get
  let idMeasurement ← mysqlGetDataRequired env s.idDevice
  respond (.rawDataRequiredResponse idMeasurement)

/-- The file, version and batch handlers, as far as they matter here: some
    queries, each in its own `try`, and some responses. -/
def handleOther (env : Environment) : Nat → Nat → PushM ν Unit
  | 0, 0 => pure ()
  | 0, responses + 1 => do
      respond .other
      handleOther env 0 responses
  | queries + 1, responses => do
      let _ ← catchSql (do let _ ← execute env .query; pure true) false
      handleOther env queries responses

/-- A request, by its topic. -/
inductive Request (L : Layout ν) where
  | dataLogPush (dataSet : DataSet ν)
  | deviceRegister (idDevice : UInt64)
  | goodbye
  | rawDataPush (block : MqsCldFile L.payloadMax)
  | rawDataRequired
  /-- A file, version or batch request, or an unknown topic. -/
  | other (queries responses : Nat)

/-- `handleRequest`: whether the connection stays open. -/
def handleRequest (L : Layout ν) (env : Environment) : Request L → PushM ν Bool
  | .dataLogPush dataSet => do
      handleDataLogPushRequest env dataSet
      pure true
  | .deviceRegister idDevice => do
      handleDeviceRegistrationRequest idDevice
      pure true
  | .goodbye => pure false
  | .rawDataPush block => do
      handleRawDataPushRequest L env block
      pure true
  | .rawDataRequired => do
      handleRawDataRequiredRequest env
      pure true
  | .other queries responses => do
      handleOther env queries responses
      pure true

/-- One request with the states around it. -/
structure Exchange (L : Layout ν) where
  before : Session ν
  request : Request L
  after : Session ν

/-- What happened during the request. -/
def Exchange.events {L : Layout ν} (x : Exchange L) : List (Event ν) :=
  x.after.events.drop x.before.events.length

/-- The requests of a connection, until one closes it or crashes. -/
def serve (L : Layout ν) (env : Environment) : Session ν → List (Request L) → List (Exchange L)
  | _, [] => []
  | s, r :: rs => match handleRequest L env r s with
    | .ok true t => { before := s, request := r, after := t } :: serve L env t rs
    | .ok false t => [{ before := s, request := r, after := t }]
    | .error _ t => [{ before := s, request := r, after := t }]

/-- A request after which the connection is still open. -/
def sessionStep (L : Layout ν) (env : Environment) (s : Session ν) (r : Request L) :
    Option (Session ν) :=
  match handleRequest L env r s with
  | .ok true t => some t
  | .ok false _ => none
  | .error _ _ => none

/-- A connection as a machine: its runs are the sequences of requests between
    which it is open. -/
def sessions (L : Layout ν) (env : Environment) : Machine (Session ν) (Request L) :=
  { step := sessionStep L env }

end Push

end EpollServer
