import EpollServer.Core.Push
import EpollServer.Core.Sending
import EpollServer.Core.Library

/-!
# Requests and what They Do to a Connection

`handleRequest` of `server.cpp` on the memory of a message, with the handlers
for files, versions and batches, and what all handlers do to the socket: the
events it is registered for, the messages sent and the acknowledges awaited.

The handlers of the pushes are those of `Core.Push`. They record what they do
to the link, and `push` does it. `amilinkReadMessage` is the one of `Core.Link`
in the same way.

A `Context` holds what the program does not decide: which modification of an
epoll event succeeds, what is read in place of an acknowledge, what a query
gives, what is in the library and what `lseek` and `read` return. It also
holds what the code uses of `mqs.h` and of the JSON library. The outcomes are
numbered, each kind by itself, and `World` counts them.

A loop takes a bound on its passes. One that has used it up has not ended, and
is `Interruption.unfinished`. A number of 32 bits that the code takes from
`lseek` or `read` is the result modulo `2 ^ 32`.

`log` is not part of the program. It records the frames handed to the kernel,
each wait for an acknowledge with the events the socket is registered for,
every message with what `amilinkSendMessage` returned, and the queries.

## Main definitions

* `Response`: The messages that are sent.
* `Context`: What the program does not decide.
* `World`: The state of a connection and of the server around it.
* `modifyEpollEvent`, `amilinkSendMessage`: The link.
* `push`: A handler of the pushes.
* `handleDataFetchRequest`, `handleVersionRequest`: Batches and versions.
* `handleAlgoRequest`, `handleFirmwareRequest`, `handleFileRequest`: Files.
* `handleRequest`: A request in memory.
* `amilinkReadMessage`, `amilinkHeartbeat`: The rest of the link.
-/

namespace EpollServer

namespace Requests

open Library (Json JsonLibrary Interruption LibraryFile)
open Push (MqsCldFile)

/-- An entry of `batchStruct`. The number is a string that ends in its array. -/
structure Batch where
  batchNumber : List UInt8
  meat_type : UInt32
  batch_uid : UInt32
  deriving DecidableEq, Repr

/-- A message that is sent, with blocks of up to so many bytes. -/
inductive Response (payloadMax : Nat) where
  | dataLogPush
  | rawDataPush
  | rawDataRequired (idMeasurement : UInt32)
  | fetchTest (count : Int) (batchStruct : List Batch)
  | deviceRegister
  | file (block : MqsCldFile payloadMax)
  | version (version : UInt32)

/-- The topic of a response. -/
def Response.topic {P : Nat} : Response P → Message.Topic
  | .dataLogPush => .dataLogPushResponse
  | .rawDataPush => .rawDataPushResponse
  | .rawDataRequired _ => .rawDataRequiredResponse
  | .fetchTest _ _ => .fetchTestResponse
  | .deviceRegister => .deviceRegisterResponse
  | .file _ => .fileResponse
  | .version _ => .versionResponse

/-- The field `length` of the block, which `amilinkSendMessage` reads of a file
    response only. -/
def Response.blockLength {P : Nat} : Response P → UInt32
  | .file block => block.length
  | _ => 0

/-- The rows of a query that were read before the last one, or before
    `SQLException`. -/
structure ResultSet (ρ : Type) where
  rows : List ρ
  throws : Bool
  deriving DecidableEq, Repr

/-- A row of the batch query. -/
structure BatchRow where
  batchCode : List UInt8
  meatType : UInt32
  batch_uid : UInt32
  deriving DecidableEq, Repr

/-- The queries, with the values bound to them, but for the time. -/
inductive Query where
  | company (idDevice : UInt64)
  | meatTypes (companyID : Int)
  | batches (companyID : Int)
  deriving DecidableEq, Repr

/-- A part of a message in memory. -/
structure Field (β : Type) where
  start : Nat
  size : Nat
  read : List UInt8 → β

/-- What a part of a message holds. -/
def Field.get {β : Type} (f : Field β) (memory : List UInt8) : β :=
  f.read ((memory.drop f.start).take f.size)

/-- Where the requests have their parts in `MqsCldMsg_t`. Of a string or of the
    data of a block it is the start. -/
structure RequestLayout (ν : Type) where
  topic : Field Message.Topic
  dataLogPushReq : Field (Push.DataSet ν)
  idDevice : Field UInt64
  filename : Nat
  versionPrefix : Nat
  versionPostfix : Nat
  algoVersion : Field UInt32
  blockOffset : Field UInt32
  blockLength : Field UInt32
  blockTotalLength : Field UInt32
  blockData : Nat

/-- What `read` returns: -1, or some bytes. -/
abbrev ReadResult (payloadMax : Nat) := Option {bytes : List UInt8 // bytes.length ≤ payloadMax}

/-- What the program does not decide. -/
structure Context (ν : Type) where
  layout : Push.Layout ν
  sizes : Message.Sizes
  request : RequestLayout ν
  /-- `sizeof(batchNumber)`. -/
  sizeofBatchNumber : Nat
  link : Link.Config
  json : JsonLibrary ν
  /-- The descriptor. -/
  connection : Nat
  push : Push.Environment
  /-- Whether the n-th `EPOLL_CTL_MOD` succeeds. -/
  modifications : Nat → Bool
  /-- What `readFrame` returns at each attempt to send the n-th message. -/
  replies : Nat → Nat → Link.PhysicalFrame
  /-- The results of the n-th statement, if it is one of these queries. -/
  companies : Nat → ResultSet Int
  meatTypes : Nat → ResultSet Int
  batches : Nat → ResultSet BatchRow
  /-- The file at a path for `std::ifstream`, and the names in the library. -/
  file : List UInt8 → LibraryFile ν
  listing : Option (List (List UInt8))
  /-- Whether `open` succeeds for a path, and the n-th result of `lseek` and of `read`. -/
  openable : List UInt8 → Bool
  seeks : Nat → Int
  reads : Nat → ReadResult layout.payloadMax

/-- What is recorded. -/
inductive Event (payloadMax : Nat) where
  /-- `IPUtilSendData` in `linkSendData`, for so many bytes of a message. -/
  | sendData (response : Response payloadMax) (length : UInt16)
  /-- `readAck` waits, with the socket registered for these events. -/
  | awaitAck (registered : Epoll.Interest)
  /-- `amilinkSendMessage` has returned. -/
  | message (response : Response payloadMax) (dataSent : UInt16)
  /-- `linkSendHeader`, or a heartbeat. -/
  | sendHeader (header : Link.Header)
  | query (q : Query)

/-- The state of a connection, the variable `isAlgorithmNeeded`, the events
    each descriptor is registered for, and how often what was done. -/
structure World (ν : Type) (payloadMax : Nat) where
  session : Push.Session ν
  isAlgorithmNeeded : Bool
  interest : Nat → Epoll.Interest
  modified : Nat
  sends : Nat
  attempts : Nat
  seeks : Nat
  reads : Nat
  log : List (Event payloadMax)

variable {ν : Type}

/-- A function of the server. -/
abbrev Context.M (X : Context ν) (β : Type) :=
  EStateM Interruption (World ν X.layout.payloadMax) β

variable (X : Context ν)

/-- A computation without effects. -/
def lift {β : Type} : Except Interruption β → X.M β
  | .ok b => pure b
  | .error e => throw e

/-- It is recorded, and nothing else happens. -/
def emit (e : Event X.layout.payloadMax) : X.M Unit :=
  modify fun w => { w with log := w.log ++ [e] }

/-! ### The link -/

/-- `Server::modifyEpollEvent`. -/
def modifyEpollEvent (fd : Nat) (events : Epoll.Interest) : X.M Bool := fun w =>
  .ok (X.modifications w.modified) { w with
    interest :=
      if X.modifications w.modified then Function.update w.interest fd events else w.interest
    modified := w.modified + 1 }

/-- A modification of the connection. No caller looks at its result. -/
def setEvents (events : Epoll.Interest) : X.M Unit := do
  let _ ← modifyEpollEvent X X.connection events
  pure ()

/-- `readAck`. -/
def readAck : X.M Link.Cmd := fun w =>
  .ok (Link.ackOf X.link (X.replies w.sends w.attempts)) { w with
    attempts := w.attempts + 1
    log := w.log ++ [.awaitAck (w.interest X.connection)] }

/-- What `linkSendData` calls. -/
def port : Link.Port X.M (Response X.layout.payloadMax) :=
  { modifyEpollEvent := setEvents X
    sendData := fun response length => emit X (.sendData response length)
    readAck := readAck X }

/-- `amilinkSendMessage`. -/
def amilinkSendMessage (response : Response X.layout.payloadMax) : X.M UInt16 := do
  modify fun w => { w with attempts := 0 }
  let dataSent ← Link.amilinkSendMessage X.link.retryMax X.sizes (port X) response response.topic
    response.blockLength
  modify fun w => { w with
    sends := w.sends + 1
    log := w.log ++ [.message response dataSent] }
  pure dataSent

/-- How every handler sends its response. -/
def respond (response : Response X.layout.payloadMax) : X.M Unit := do
  setEvents X .epollOut
  let _ ← amilinkSendMessage X response
  setEvents X .epollIn

/-! ### The pushes -/

/-- What a handler of the pushes has recorded. -/
def perform : Push.Event ν → X.M Unit
  | .statement _ _ => pure ()
  | .modifyEpollEvent events => setEvents X events
  | .send topic => match topic with
    | .dataLogPushResponse => do
        let _ ← amilinkSendMessage X .dataLogPush
        pure ()
    | .rawDataPushResponse => do
        let _ ← amilinkSendMessage X .rawDataPush
        pure ()
    | .rawDataRequiredResponse idMeasurement => do
        let _ ← amilinkSendMessage X (.rawDataRequired idMeasurement)
        pure ()
    | .deviceRegisterResponse => do
        let _ ← amilinkSendMessage X .deviceRegister
        pure ()
    -- The other handlers are here themselves.
    | .other => pure ()

/-- All that a handler has recorded, in its order. -/
def performAll : List (Push.Event ν) → X.M Unit
  | [] => pure ()
  | e :: E => do
      perform X e
      performAll E

/-- A request that `Core.Push` handles. -/
def push (r : Push.Request X.layout) : X.M Bool := fun w =>
  match Push.handleRequest X.layout X.push r w.session with
  | .error _ s => .error .undefined { w with session := s }
  | .ok more s => (do
      performAll X (s.events.drop w.session.events.length)
      pure more) { w with session := s }

/-! ### Queries -/

/-- A query: its number on the connection. -/
def query (q : Query) : X.M Nat := fun w =>
  .ok w.session.statements { w with
    session := { w.session with statements := w.session.statements + 1 }
    log := w.log ++ [.query q] }

/-- `getCompanyIDFromDevice`. -/
def getCompanyIDFromDevice (idDevice : UInt64) : X.M Int := do
  let n ← query X (.company idDevice)
  pure ((X.companies n).rows.headD 0)

/-- `getUniqueMeatTypesForCompany`. -/
def getUniqueMeatTypesForCompany (companyID : Int) : X.M (List Int) := do
  let n ← query X (.meatTypes companyID)
  pure (X.meatTypes n).rows

/-- `BatchInfo`. -/
structure BatchInfo where
  batchCodes : List BatchRow
  totalCount : Int
  deriving DecidableEq, Repr

/-- `getStructBatchCodesByCurrentDate`. A code is cut to 8 bytes, and the number
    of the last row, a `size_t`, to an `int`. -/
def getStructBatchCodesByCurrentDate (companyID : Int) : X.M BatchInfo := do
  let n ← query X (.batches companyID)
  let result := X.batches n
  pure {
    batchCodes := result.rows.map fun row =>
      { row with batchCode := (row.batchCode.takeWhile (· ≠ 0)).take 8 }
    totalCount := if result.throws then 0 else (result.rows.length : Int).bmod (2 ^ 32) }

/-! ### Batches and versions -/

/-- A cleared entry. -/
def noBatch : Batch := { batchNumber := [], meat_type := 0, batch_uid := 0 }

/-- The loop of `handleDataFetchRequest` that copies the codes, from index `i`
    on. -/
def copyBatches : Nat → List BatchRow → List Batch → Except Interruption (List Batch)
  | _, [], batchStruct => pure batchStruct
  | i, row :: rest, batchStruct =>
      if i < batchStruct.length then
        copyBatches (i + 1) rest (batchStruct.set i
          { batchNumber := row.batchCode.take X.sizeofBatchNumber
            meat_type := row.meatType
            batch_uid := row.batch_uid })
      else throw .undefined

/-- The batches of a company. There is none with the id 0. -/
def companyBatches (companyID : Int) : X.M BatchInfo :=
  if companyID = 0 then pure { batchCodes := [], totalCount := 0 }
  else getStructBatchCodesByCurrentDate X companyID

/-- The entries `handleDataFetchRequest` fills. -/
def fillBatches (batchInfobuffer : BatchInfo) : X.M (List Batch) :=
  if batchInfobuffer.totalCount = 0 then pure (List.replicate 5 noBatch)
  else
    lift X (copyBatches X 0 (batchInfobuffer.batchCodes.take batchInfobuffer.totalCount.toNat)
      (List.replicate 5 noBatch))

/-- `handleDataFetchRequest`. -/
def handleDataFetchRequest : X.M Unit := do
  let w ← get
  let companyID ← getCompanyIDFromDevice X w.session.idDevice
  let batchInfobuffer ← companyBatches X companyID
  let batchStruct ← fillBatches X batchInfobuffer
  respond X (.fetchTest batchInfobuffer.totalCount batchStruct)

/-- `".algo"`. -/
def algoPostfix : List UInt8 := ['.', 'a', 'l', 'g', 'o'].map fun ch => UInt8.ofNat ch.toNat

/-- `".dfu"`. -/
def dfuPostfix : List UInt8 := ['.', 'd', 'f', 'u'].map fun ch => UInt8.ofNat ch.toNat

/-- `isAlgorithmNeeded` is set if the version differs from that of the client. -/
def compareVersions (version algoVersion : UInt32) : X.M Unit := modify fun w =>
  if version ≠ algoVersion then { w with isAlgorithmNeeded := true } else w

/-- The version `handleVersionRequest` answers. -/
def lookUpVersion (pre post : List UInt8) (algoVersion : UInt32) : X.M UInt32 :=
  if post = algoPostfix then do
    let version := Library.getAlgoVersion X.json X.file X.listing pre post
    compareVersions X version algoVersion
    pure version
  else lift X (Library.getFileVersion X.listing pre post)

/-- `handleVersionRequest`. -/
def handleVersionRequest (pre post : List UInt8) (algoVersion : UInt32) : X.M Unit := do
  let version ← lookUpVersion X pre post algoVersion
  respond X (.version version)

/-! ### Files -/

/-- An array after some bytes were written to its front. -/
def overwrite {P : Nat} (bytes : List UInt8) (data : Vector UInt8 P) : Vector UInt8 P :=
  Vector.ofFn fun i => bytes.getD i data[i]

/-- `fileErrorResponse`. -/
def fileErrorResponse : X.M Unit :=
  respond X (.file { offset := 0, length := 0, totalLength := 0, data := Vector.replicate _ 0 })

/-- The loop of `handleAlgoRequest` that sends `updatedJson`. -/
def sendChunks (updatedJson : List UInt8) :
    Nat → Nat → Nat → Vector UInt8 X.layout.payloadMax → X.M Unit
  | 0, _, _, _ => throw .unfinished
  | fuel + 1, remain, offset, data =>
      if 0 < remain then do
        let chunkSize := min remain X.layout.payloadMax
        -- `response` is declared in front of the loop, so a block keeps what it does not write.
        let data := overwrite ((updatedJson.drop offset).take chunkSize) data
        setEvents X .epollOut
        let dataSent ← amilinkSendMessage X (.file {
          offset := UInt32.ofNat offset
          length := UInt32.ofNat chunkSize
          totalLength := UInt32.ofNat updatedJson.length
          data := data })
        -- This path has no `EPOLLIN` of its own: the error response sets it.
        if dataSent = 0 then fileErrorResponse X
        else do
          setEvents X .epollIn
          sendChunks updatedJson fuel (remain - chunkSize) (offset + chunkSize) data
      else pure ()

/-- The algorithm of the answer: it is there if it is needed. -/
def takeAlgorithm (originalJson : Json ν) : X.M (Option (Json ν)) := do
  let w ← get
  if w.isAlgorithmNeeded then do
    -- The flag is cleared behind the access, which may throw.
    let algorithm ← lift X (X.json.index "algorithm" originalJson)
    modify fun w => { w with isAlgorithmNeeded := false }
    pure (some algorithm)
  else pure none

/-- The `try` block of `handleAlgoRequest`, after the file was read. -/
def sendAlgoJson (fuel : Nat) (requestedIds : List Int) (originalJson : Json ν) : X.M Unit := do
  let algorithm ← takeAlgorithm X originalJson
  let meatTypes ← lift X (X.json.index "meat_types" originalJson)
  let filteredMeatTypes ← lift X
    (Library.filterMeatTypes X.json requestedIds (X.json.elements meatTypes) [])
  let updatedJson := X.json.dump (Library.answer algorithm filteredMeatTypes)
  sendChunks X updatedJson fuel updatedJson.length 0 (Vector.replicate _ 0)

/-- The `try` block of `handleAlgoRequest`. -/
def sendAlgoFile (fuel : Nat) (requestedIds : List Int) (filename : List UInt8) : X.M Unit :=
  match X.file (Library.path filename) with
  | .closed => throw .exception
  | .malformed => throw .exception
  | .json originalJson => sendAlgoJson X fuel requestedIds originalJson

/-- `try { body } catch (const std::exception &e) { handler }`. -/
def catchException (body handler : X.M Unit) : X.M Unit := fun w =>
  match body w with
  | .error .exception t => handler t
  | result => result

/-- `handleAlgoRequest`. -/
def handleAlgoRequest (fuel : Nat) (filename : List UInt8) : X.M Unit := do
  let w ← get
  let companyID ← getCompanyIDFromDevice X w.session.idDevice
  let requestedIds ← getUniqueMeatTypesForCompany X companyID
  catchException X (sendAlgoFile X fuel requestedIds filename) (fileErrorResponse X)

/-- `lseek`, as an `int32_t`. -/
def lseek : X.M Int := fun w =>
  .ok ((X.seeks w.seeks).bmod (2 ^ 32)) { w with seeks := w.seeks + 1 }

/-- `read`, of one block at the most. -/
def read : X.M (ReadResult X.layout.payloadMax) := fun w =>
  .ok (X.reads w.reads) { w with reads := w.reads + 1 }

/-- What `read` returns, as a `uint32_t`. -/
def readSize {P : Nat} : ReadResult P → UInt32
  | none => 0xFFFFFFFF
  | some bytes => UInt32.ofNat bytes.val.length

/-- The bytes `read` has written. -/
def readBytes {P : Nat} : ReadResult P → List UInt8
  | none => []
  | some bytes => bytes.val

/-- The loop of `handleFirmwareRequest`: whether it was left with `ok`. -/
def firmwareLoop (totalLength : UInt32) :
    Nat → UInt32 → UInt32 → Bool → Vector UInt8 X.layout.payloadMax → X.M Bool
  | 0, _, _, _, _ => throw .unfinished
  | fuel + 1, remain, offset, ok, data =>
      if 0 < remain ∧ ok = true then do
        let result ← read X
        -- `read` writes into the response itself.
        let data := overwrite (readBytes result) data
        if 0 < readSize result then do
          setEvents X .epollOut
          let dataSent ← amilinkSendMessage X (.file {
            offset := offset
            length := readSize result
            totalLength := totalLength
            data := data })
          setEvents X .epollIn
          -- `remain` has no sign: it wraps if more was read than is left.
          firmwareLoop totalLength fuel (remain - readSize result) (offset + readSize result)
            (decide (0 < dataSent)) data
        -- The end of the file is taken for an error.
        else firmwareLoop totalLength fuel remain offset false data
      else pure ok

/-- `handleFirmwareRequest`, up to the test of `ok` at its end. -/
def sendFirmware (fuel : Nat) (filename : List UInt8) : X.M Bool :=
  if X.openable (Library.path filename) then do
    let totalLength ← lseek X
    if totalLength < 0 then pure false
    else do
      let status ← lseek X
      if status < 0 then pure false
      else
        -- For an empty file the loop has no pass, and `ok` is left true.
        firmwareLoop X (UInt32.ofInt totalLength) fuel (UInt32.ofInt totalLength) 0 true
          (Vector.replicate _ 0)
  else pure false

/-- `handleFirmwareRequest`. -/
def handleFirmwareRequest (fuel : Nat) (filename : List UInt8) : X.M Unit := do
  let ok ← sendFirmware X fuel filename
  if ok then pure () else fileErrorResponse X

/-- `handleFileRequest`. -/
def handleFileRequest (fuel : Nat) (filename : List UInt8) : X.M Unit :=
  if 5 < filename.length then
    if filename.drop (filename.length - 5) = algoPostfix then handleAlgoRequest X fuel filename
    else if filename.drop (filename.length - 4) = dfuPostfix then
      handleFirmwareRequest X fuel filename
    else pure ()
  else pure ()

/-! ### A request in memory -/

/-- The string that starts here. -/
def cString (memory : List UInt8) (start : Nat) : List UInt8 :=
  (memory.drop start).takeWhile (· ≠ 0)

/-- The block of a raw data push. -/
def blockOf (memory : List UInt8) : MqsCldFile X.layout.payloadMax :=
  { offset := X.request.blockOffset.get memory
    length := X.request.blockLength.get memory
    totalLength := X.request.blockTotalLength.get memory
    data := Vector.ofFn fun i => memory.getD (X.request.blockData + i) 0 }

/-- `handleRequest`: whether the connection stays open. -/
def handleRequest (fuel : Nat) (request : List UInt8) : X.M Bool :=
  match X.request.topic.get request with
  | .dataLogPushRequest => push X (.dataLogPush (X.request.dataLogPushReq.get request))
  | .deviceRegisterRequest => push X (.deviceRegister (X.request.idDevice.get request))
  | .fileRequest => do
      handleFileRequest X fuel (cString request X.request.filename)
      pure true
  | .goodbyeRequest => push X .goodbye
  | .rawDataPushRequest => push X (.rawDataPush (blockOf X request))
  | .rawDataRequiredRequest => push X .rawDataRequired
  | .versionRequest => do
      handleVersionRequest X (cString request X.request.versionPrefix)
        (cString request X.request.versionPostfix) (X.request.algoVersion.get request)
      pure true
  | .fetchTestRequest => do
      handleDataFetchRequest X
      pure true
  | _ => pure true

/-! ### The rest of the link -/

/-- What `Core.Link` has recorded. -/
def performLink : List Link.Event → X.M Unit
  | [] => pure ()
  | .modifyEpollEvent events :: E => do
      setEvents X events
      performLink E
  | .sendHeader header :: E => do
      emit X (.sendHeader header)
      performLink E

/-- `amilinkReadMessage`, for a connection with these frames to come. -/
def amilinkReadMessage (message : List UInt8) (s : Link.State) : X.M (Nat × List UInt8) :=
  match Link.amilinkReadMessage X.link message s with
  | none => throw .unfinished
  | some (messageLength, message', t) => do
      performLink X (t.log.drop s.log.length)
      pure (messageLength, message')

/-- `amilinkHeartbeat`. `IPUtilSendData` returns `sendLen` for a buffer of this
    length. -/
def amilinkHeartbeat (sendLen xmitBufferLength : Int) : X.M Bool := do
  setEvents X .epollOut
  emit X (.sendHeader (Link.replyHeader X.link .heartbeat))
  setEvents X .epollIn
  pure (decide (sendLen = xmitBufferLength))

end Requests

end EpollServer
