import EpollServer.Theory.Assembly.Header
import EpollServer.Theory.Blocks

/-!
# What a Request Depends on

A message is received into a variable that was not initialised, and only its
length tells how much of it was written. `connectionHandler` compares that with
0 and passes the variable on. What lies behind the received bytes is read with
the rest, so that a short request may do different things in two runs that
differ in nothing else.

`reading` is what the handler of its topic reads of a request in memory, and a
request does no more than what is done for that (`handleRequest_reading`). For
most topics this is plain. Of a block the bytes count that are looked at: none
of a refused one, the header if a first block declares another length, and else
as many as are copied. `lookedAt` says how many in terms of the numbers of the
block, and blocks that agree so far are `Alike`.

So the same is done if the same is read, and the same is read if the received
bytes reach to its end (`Covers`). For a registration and a data log push the
converse holds, since the session shows the id and the first statement the data
set. Two names or two blocks may have the same effect by accident, when neither
file exists or neither block is accepted.

## Main definitions

* `Push.lookedAt`, `Push.Alike`: The bytes of a block that are looked at.
* `Reading`, `reading`: What is read of a request.
* `memoryOf`: The memory behind a message.
* `Covers`: The received bytes reach to the end of what is read.
* `ReadingFixed`, `Determined`: Independence of what was in memory.

## Theorems

* `Push.Alike.push_eq`: Blocks that are alike are handled alike.
* `handleRequest_reading`: A request does what is done for what is read.
* `reading_append`: What is read of a request that covers it.
* `push_session`: The session behind a push.
* `idDevice_fixed`, `dataSet_fixed`: What the effect tells of the request.
* `request_determined`: When a request depends on the received bytes only.
-/

namespace EpollServer

namespace Push

variable {ν : Type}

/-- How many bytes of the data of a block are looked at. -/
def lookedAt (L : Layout ν) (s : Session ν) (block : MqsCldFile L.payloadMax) : Nat :=
  if block.offset + block.length ≤ block.totalLength then
    if block.offset = 0 then
      if L.sizeofRawDataSet ≤ block.length.toNat then
        if block.totalLength = declaredLength L block then block.length.toNat
        else L.sizeofRawDataSet
      else 0
    else if block.totalLength = s.maxAssemblyLength then block.length.toNat else 0
  else 0

/-- Two blocks that agree on their numbers and on the bytes that are looked at. -/
structure Alike (L : Layout ν) (s : Session ν) (block block' : MqsCldFile L.payloadMax) :
    Prop where
  offset : block'.offset = block.offset
  length : block'.length = block.length
  totalLength : block'.totalLength = block.totalLength
  data : block'.data.toList.take (lookedAt L s block) = block.data.toList.take (lookedAt L s block)

/-- If the header is looked at, it is the same in both. -/
theorem Alike.declaredLength {L : Layout ν} (hL : L.Lawful) {s : Session ν}
    {block block' : MqsCldFile L.payloadMax} (h : Alike L s block block')
    (hheader : L.sizeofRawDataSet ≤ lookedAt L s block) :
    declaredLength L block' = declaredLength L block := by
  have htake := congrArg (List.take L.sizeofRawDataSet) h.data
  rw [List.take_take, List.take_take, Nat.min_eq_left hheader] at htake
  rcases hL.header _ _ htake with ⟨hbase, hafter⟩
  rw [Push.declaredLength, hbase, hafter]
  rfl

/-- The check is the same for both. -/
theorem Alike.check_eq {L : Layout ν} (hL : L.Lawful) (env : Environment)
    {s : Session ν} {block block' : MqsCldFile L.payloadMax} (h : Alike L s block block') :
    checkAssemblyBuffer L env block' s = checkAssemblyBuffer L env block s := by
  rw [checkAssemblyBuffer_eq, checkAssemblyBuffer_eq, h.offset, h.length, h.totalLength]
  -- The check asks in this order, and what it looks at is the same in both.
  by_cases hsum : block.offset + block.length ≤ block.totalLength
  swap
  · rw [if_neg hsum, if_neg hsum]
  by_cases hzero : block.offset = 0
  swap
  · rw [if_neg hzero, if_neg hzero]
  by_cases hlong : L.sizeofRawDataSet ≤ block.length.toNat
  · have hheader : L.sizeofRawDataSet ≤ lookedAt L s block := by
      rw [lookedAt, if_pos hsum, if_pos hzero, if_pos hlong]
      split
      · exact hlong
      · exact le_refl _
    rw [h.declaredLength hL hheader]
  · rw [if_pos hsum, if_pos hsum, if_pos hzero, if_pos hzero, if_neg fun hdecl => hlong hdecl.1,
      if_neg fun hdecl => hlong hdecl.1]

/-- As much is looked at of both. -/
theorem Alike.lookedAt_eq {L : Layout ν} (hL : L.Lawful) {s : Session ν}
    {block block' : MqsCldFile L.payloadMax} (h : Alike L s block block') :
    lookedAt L s block' = lookedAt L s block := by
  -- Without the header the numbers decide.
  by_cases hheader : L.sizeofRawDataSet ≤ lookedAt L s block
  · unfold lookedAt
    rw [h.offset, h.length, h.totalLength, h.declaredLength hL hheader]
  · unfold lookedAt at hheader ⊢
    rw [h.offset, h.length, h.totalLength]
    by_cases hsum : block.offset + block.length ≤ block.totalLength
    swap
    · rw [if_neg hsum, if_neg hsum]
    by_cases hzero : block.offset = 0
    swap
    · rw [if_pos hsum, if_pos hsum, if_neg hzero, if_neg hzero]
    by_cases hlong : L.sizeofRawDataSet ≤ block.length.toNat
    · refine absurd ?_ hheader
      rw [if_pos hsum, if_pos hzero, if_pos hlong]
      split
      · exact hlong
      · exact le_refl _
    · rw [if_pos hsum, if_pos hsum, if_pos hzero, if_pos hzero, if_neg hlong, if_neg hlong]

/-- An accepted block is looked at as far as it is copied. -/
theorem lookedAt_of_accepted {L : Layout ν} {env : Environment} {s t : Session ν}
    {block : MqsCldFile L.payloadMax} (h : checkAssemblyBuffer L env block s = .ok true t) :
    lookedAt L s block = block.length.toNat := by
  -- A first block declares the length, and a later one keeps to it.
  rcases checkAssemblyBuffer_accepts L env block s t h with
    ⟨hzero, hlong, hle, hdecl, _⟩ | ⟨hzero, hsum, hmax, _⟩
  · have hsum : block.offset + block.length ≤ block.totalLength := by
      rw [hzero, UInt32.zero_add]
      exact hle
    rw [lookedAt, if_pos hsum, if_pos hzero, if_pos hlong, if_pos hdecl]
  · rw [lookedAt, if_pos hsum, if_neg hzero, if_pos hmax]

/-- The copy is the same for both. -/
theorem copyBlock_congr {L : Layout ν} {block block' : MqsCldFile L.payloadMax}
    (hoffset : block'.offset = block.offset) (hlength : block'.length = block.length)
    (hdata : block'.data.toList.take block.length.toNat =
      block.data.toList.take block.length.toNat) :
    copyBlock L block' = copyBlock L block := by
  unfold copyBlock
  simp only [hoffset, hlength, hdata]

/-- A push is handled in the same way for both. -/
theorem Alike.push_eq {L : Layout ν} (hL : L.Lawful) (env : Environment)
    {s : Session ν} {block block' : MqsCldFile L.payloadMax} (h : Alike L s block block') :
    handleRawDataPushRequest L env block' s = handleRawDataPushRequest L env block s := by
  have hcheck := h.check_eq hL env
  have hreceive : receiveBlock L env block' s = receiveBlock L env block s := by
    unfold receiveBlock
    cases hrun : checkAssemblyBuffer L env block s with
    | error e t =>
        rw [hrun] at hcheck
        rw [Effect.bind_error _ hcheck, Effect.bind_error _ hrun]
    | ok accepted t =>
        rw [hrun] at hcheck
        rw [Effect.bind_ok _ hcheck, Effect.bind_ok _ hrun]
        cases accepted with
        | false => rfl
        | true =>
            -- All that is copied was looked at.
            have hdata := h.data
            rw [lookedAt_of_accepted hrun] at hdata
            simp only [if_true, copyBlock_congr h.offset h.length hdata, h.offset, h.length,
              h.totalLength]
  exact Effect.bind_congr_run _ hreceive

/-- The first statement of a data log push has the data set. -/
theorem handleRequest_dataLogPush (L : Layout ν) (env : Environment) (dataSet : DataSet ν)
    (s : Session ν) :
    ∃ t success E, handleRequest L env (.dataLogPush dataSet) s = .ok true t ∧
      t.events = s.events ++ .statement (.insertDataSet s.idDevice dataSet) success :: E := by
  -- The first statement is recorded whether it succeeds or not.
  have hinsert : ∃ b success E, mysqlInsertDataSet env s.idDevice dataSet s =
      .ok b (s.after (.statement (.insertDataSet s.idDevice dataSet) success :: E)) := by
    cases hout : env.outcomes s.statements with
    | exception =>
        refine ⟨false, false, [], ?_⟩
        simp only [mysqlInsertDataSet, catchSql, bind, EStateM.bind, execute, hout,
          Outcome.succeeds]
        rfl
    | done row =>
        let raw : Statement ν := .insertDataSetRaw s.idDevice dataSet.idMeasurement
          dataSet.sweep1fs dataSet.sweep2fs dataSet.initFreq
        cases hout' : env.outcomes (s.statements + 1) with
        | exception =>
            refine ⟨false, true, [.statement raw false], ?_⟩
            simp only [mysqlInsertDataSet, catchSql, bind, EStateM.bind, execute, hout, hout',
              Outcome.succeeds, List.append_assoc]
            rfl
        | done row' =>
            refine ⟨true, true, [.statement raw true], ?_⟩
            simp only [mysqlInsertDataSet, catchSql, bind, EStateM.bind, execute, hout, hout',
              Outcome.succeeds, List.append_assoc]
            rfl
  rcases hinsert with ⟨b, success, E, hinsert⟩
  rcases handleDataLogPushRequest_events env dataSet s with ⟨E', b', hE', hrun, _⟩
  rw [hinsert, EStateM.Result.ok.injEq] at hE'
  have hevents : s.events ++ _ = s.events ++ E' := congrArg Session.events hE'.2
  rw [List.append_cancel_left_eq] at hevents
  refine ⟨_, success, E ++ responseEvents .dataLogPushResponse, Effect.bind_ok _ hrun, ?_⟩
  rw [← hevents]
  rfl

end Push

namespace Requests

open Effect (Holds bind_ok bind_congr_run holds_pure holds_modify holds_bind holds_ite ok_of_holds)
open Push (MqsCldFile Alike lookedAt)

variable {ν : Type}

/-- What a handler reads of a request. -/
inductive Reading (ν : Type) where
  /-- Nothing is done. -/
  | ignored
  | goodbye
  | rawDataRequired
  | dataFetch
  | dataLogPush (dataSet : Push.DataSet ν)
  | deviceRegister (idDevice : UInt64)
  | file (filename : List UInt8)
  | version (pre post : List UInt8) (algoVersion : Option UInt32)
  | rawDataPush (offset length totalLength : UInt32) (bytes : List UInt8)

/-- A file name that something is done with. -/
def isSupported (filename : List UInt8) : Bool :=
  5 < filename.length ∧ (filename.drop (filename.length - 5) = algoPostfix ∨
    filename.drop (filename.length - 4) = dfuPostfix)

variable (X : Context ν)

/-- What its handler reads of a request, by its topic. The version of the
    algorithm is read for the postfix `.algo` only, and of a block the bytes
    that are looked at. -/
def reading (s : Push.Session ν) (memory : List UInt8) : Reading ν :=
  match X.request.topic.get memory with
  | .dataLogPushRequest => .dataLogPush (X.request.dataLogPushReq.get memory)
  | .deviceRegisterRequest => .deviceRegister (X.request.idDevice.get memory)
  | .fileRequest =>
      if isSupported (cString memory X.request.filename) then
        .file (cString memory X.request.filename)
      else .ignored
  | .goodbyeRequest => .goodbye
  | .rawDataPushRequest =>
      .rawDataPush (X.request.blockOffset.get memory) (X.request.blockLength.get memory)
        (X.request.blockTotalLength.get memory)
        ((blockOf X memory).data.toList.take (lookedAt X.layout s (blockOf X memory)))
  | .rawDataRequiredRequest => .rawDataRequired
  | .versionRequest =>
      .version (cString memory X.request.versionPrefix) (cString memory X.request.versionPostfix)
        (if cString memory X.request.versionPostfix = algoPostfix then
          some (X.request.algoVersion.get memory) else none)
  | .fetchTestRequest => .dataFetch
  | _ => .ignored

/-- What is done for that. -/
def handleReading (fuel : Nat) : Reading ν → X.M Bool
  | .ignored => pure true
  | .goodbye => push X .goodbye
  | .rawDataRequired => push X .rawDataRequired
  | .dataFetch => do
      handleDataFetchRequest X
      pure true
  | .dataLogPush dataSet => push X (.dataLogPush dataSet)
  | .deviceRegister idDevice => push X (.deviceRegister idDevice)
  | .file filename => do
      handleFileRequest X fuel filename
      pure true
  | .version pre post algoVersion => do
      handleVersionRequest X pre post (algoVersion.getD 0)
      pure true
  | .rawDataPush offset length totalLength bytes =>
      push X (.rawDataPush {
        offset := offset
        length := length
        totalLength := totalLength
        data := overwrite bytes (Vector.replicate _ 0) })

/-- The memory of `request` behind a message: what was received is written over
    what was there. -/
def memoryOf (received init : List UInt8) : List UInt8 :=
  (Link.handleFrame X.link init (Link.dataFrame X.link received)).2.1

/-- The bytes of a field have been received. -/
def Field.Within {β : Type} (f : Field β) (received : List UInt8) : Prop :=
  f.start + f.size ≤ received.length

/-- The received bytes cover the topic and what is read for it: a string up to
    its end, and the data of a block as far as it is looked at. -/
def Covers (s : Push.Session ν) (received : List UInt8) : Prop :=
  X.request.topic.Within received ∧ match X.request.topic.get received with
    | .dataLogPushRequest => X.request.dataLogPushReq.Within received
    | .deviceRegisterRequest => X.request.idDevice.Within received
    | .fileRequest => 0 ∈ received.drop X.request.filename
    | .rawDataPushRequest =>
        X.request.blockOffset.Within received ∧ X.request.blockLength.Within received ∧
          X.request.blockTotalLength.Within received ∧
          X.request.blockData +
            min (lookedAt X.layout s (blockOf X received)) X.layout.payloadMax ≤ received.length
    | .versionRequest =>
        0 ∈ received.drop X.request.versionPrefix ∧ 0 ∈ received.drop X.request.versionPostfix ∧
          (cString received X.request.versionPostfix = algoPostfix →
            X.request.algoVersion.Within received)
    | _ => True

/-- What is read of a request is the same whatever was in its memory. -/
def ReadingFixed (size : Nat) (received : List UInt8) (s : Push.Session ν) : Prop :=
  ∀ init init' : List UInt8, init.length = size → init'.length = size →
    reading X s (memoryOf X received init') = reading X s (memoryOf X received init)

/-- What a request does is the same whatever was in its memory. -/
def Determined (size : Nat) (received : List UInt8) (w : World ν X.layout.payloadMax) : Prop :=
  ∀ (fuel : Nat) (init init' : List UInt8), init.length = size → init'.length = size →
    handleRequest X fuel (memoryOf X received init') w =
      handleRequest X fuel (memoryOf X received init) w

variable {X}

theorem memoryOf_eq (received init : List UInt8) :
    memoryOf X received init = received ++ init.drop received.length := by
  simp only [memoryOf, Link.handleFrame, Link.dataFrame, if_true]

/-! ### A handler does no more than it reads -/

/-- Nothing is done with other names. -/
theorem handleFileRequest_unsupported {filename : List UInt8} (h : isSupported filename = false)
    (fuel : Nat) : handleFileRequest X fuel filename = pure () := by
  unfold isSupported at h
  rw [decide_eq_false_iff_not, not_and_or, not_or] at h
  unfold handleFileRequest
  rcases h with h | ⟨halgo, hdfu⟩
  · rw [if_neg h]
  · rw [if_neg halgo, if_neg hdfu]
    split
    · rfl
    · rfl

/-- The version of the algorithm matters for the postfix `.algo` only. -/
theorem handleVersionRequest_reading (pre post : List UInt8) (algoVersion : UInt32) :
    handleVersionRequest X pre post
        ((if post = algoPostfix then some algoVersion else none).getD 0) =
      handleVersionRequest X pre post algoVersion := by
  by_cases hpost : post = algoPostfix
  · rw [if_pos hpost]
    rfl
  · unfold handleVersionRequest lookUpVersion
    rw [if_neg hpost, if_neg hpost]

/-- The bytes that are looked at are enough of a block. -/
theorem push_looked (hL : X.layout.Lawful) (block : MqsCldFile X.layout.payloadMax)
    (w : World ν X.layout.payloadMax) :
    push X (.rawDataPush { block with
        data := overwrite (block.data.toList.take (lookedAt X.layout w.session block))
          (Vector.replicate _ 0) }) w =
      push X (.rawDataPush block) w := by
  let k := lookedAt X.layout w.session block
  -- The bytes stand at the front of the other array, as far as there are any.
  have hlength : (block.data.toList.take k).length = min k X.layout.payloadMax := by
    rw [List.length_take, Vector.length_toList]
  have htake := take_overwrite (block.data.toList.take k) (Vector.replicate X.layout.payloadMax 0)
    (by rw [hlength]; exact Nat.min_le_right _ _)
  rw [hlength] at htake
  have halike : Alike X.layout w.session block { block with
      data := overwrite (block.data.toList.take k) (Vector.replicate X.layout.payloadMax 0) } :=
    ⟨rfl, rfl, rfl, by
      refine Eq.trans (List.take_eq_take_iff.mpr ?_) htake
      rw [Vector.length_toList]
      omega⟩
  have hrun : Push.handleRequest X.layout X.push (.rawDataPush { block with
        data := overwrite (block.data.toList.take k) (Vector.replicate _ 0) }) w.session =
      Push.handleRequest X.layout X.push (.rawDataPush block) w.session :=
    bind_congr_run _ (halike.push_eq hL X.push)
  unfold push
  rw [hrun]

/-- A request does what is done for what is read of it. -/
theorem handleRequest_reading (hL : X.layout.Lawful) (fuel : Nat) (memory : List UInt8)
    (w : World ν X.layout.payloadMax) :
    handleRequest X fuel memory w = handleReading X fuel (reading X w.session memory) w := by
  unfold handleRequest reading
  -- Only three requests read more of the message than a field.
  cases htopic : X.request.topic.get memory with
  | fileRequest =>
      simp only []
      by_cases hsupported : isSupported (cString memory X.request.filename) = true
      · rw [if_pos hsupported]
        rfl
      · rw [if_neg hsupported,
          handleFileRequest_unsupported (Bool.not_eq_true _ ▸ hsupported)]
        rfl
  | rawDataPushRequest => exact (push_looked hL (blockOf X memory) w).symm
  | versionRequest =>
      simp only [handleReading, handleVersionRequest_reading]
  | _ => rfl

/-- A request of which the same is read does the same. -/
theorem determined_of_fixed (hL : X.layout.Lawful) {size : Nat} {received : List UInt8}
    {w : World ν X.layout.payloadMax} (h : ReadingFixed X size received w.session) :
    Determined X size received w := by
  intro fuel init init' hinit hinit'
  rw [handleRequest_reading hL, handleRequest_reading hL, h init init' hinit hinit']

/-! ### Received bytes -/

theorem Field.get_append {β : Type} {f : Field β} {received : List UInt8} (h : f.Within received)
    (tail : List UInt8) : f.get (received ++ tail) = f.get received := by
  unfold Field.Within at h
  unfold Field.get
  rw [List.drop_append_of_le_length (by omega), List.take_append_of_le_length]
  rw [List.length_drop]
  omega

/-- A string that ends in what was received. -/
theorem cString_append {received : List UInt8} {start : Nat} (h : 0 ∈ received.drop start)
    (tail : List UInt8) : cString (received ++ tail) start = cString received start := by
  have hlt : start < received.length := by
    by_contra hle
    rw [List.drop_of_length_le (not_lt.mp hle)] at h
    exact absurd h List.not_mem_nil
  unfold cString
  rw [List.drop_append_of_le_length (le_of_lt hlt), List.takeWhile_append, if_neg]
  intro hlength
  -- Otherwise no byte of it would be 0.
  have hself := (List.takeWhile_prefix (fun b : UInt8 => decide (b ≠ 0))
    (l := received.drop start)).eq_of_length hlength
  have hzero := List.mem_takeWhile_imp (hself ▸ h)
  exact absurd hzero (by decide)

/-- Received numbers and bytes make a block that is like that in memory. -/
theorem blockOf_append {s : Push.Session ν} {received : List UInt8}
    (hoffset : X.request.blockOffset.Within received)
    (hlength : X.request.blockLength.Within received)
    (htotal : X.request.blockTotalLength.Within received)
    (hdata : X.request.blockData +
      min (lookedAt X.layout s (blockOf X received)) X.layout.payloadMax ≤ received.length)
    (tail : List UInt8) :
    Alike X.layout s (blockOf X received) (blockOf X (received ++ tail)) where
  offset := Field.get_append hoffset tail
  length := Field.get_append hlength tail
  totalLength := Field.get_append htotal tail
  data := by
    refine List.ext_getElem ?_ fun i hi hi' => ?_
    · simp only [List.length_take, Vector.length_toList]
    · -- A byte that is looked at has been received.
      rw [List.length_take, Vector.length_toList] at hi
      have hlt : X.request.blockData + i < received.length := by omega
      rw [List.getElem_take, List.getElem_take, Vector.getElem_toList, Vector.getElem_toList]
      unfold blockOf
      rw [Vector.getElem_ofFn, Vector.getElem_ofFn, List.getD_eq_getElem?_getD,
        List.getD_eq_getElem?_getD]
      exact congrArg (Option.getD · 0) (List.getElem?_append_left hlt)

/-- Of a request that covers it the same is read, whatever follows. -/
theorem reading_append (hL : X.layout.Lawful) {s : Push.Session ν} {received : List UInt8}
    (h : Covers X s received) (tail : List UInt8) :
    reading X s (received ++ tail) = reading X s received := by
  rcases h with ⟨htopic, hcovers⟩
  unfold reading
  rw [Field.get_append htopic]
  -- What is read depends on the topic; each field of it lies within what has come.
  cases hget : X.request.topic.get received with
  | dataLogPushRequest =>
      rw [hget] at hcovers
      exact congrArg Reading.dataLogPush (Field.get_append hcovers tail)
  | deviceRegisterRequest =>
      rw [hget] at hcovers
      exact congrArg Reading.deviceRegister (Field.get_append hcovers tail)
  | fileRequest =>
      rw [hget] at hcovers
      simp only [cString_append hcovers]
  | rawDataPushRequest =>
      rw [hget] at hcovers
      rcases hcovers with ⟨hoffset, hlength, htotal, hdata⟩
      have halike := blockOf_append hoffset hlength htotal hdata tail
      simp only [Field.get_append hoffset, Field.get_append hlength, Field.get_append htotal,
        halike.lookedAt_eq hL, halike.data]
  | versionRequest =>
      rw [hget] at hcovers
      rcases hcovers with ⟨hpre, hpost, halgo⟩
      simp only [cString_append hpre, cString_append hpost]
      by_cases hends : cString received X.request.versionPostfix = algoPostfix
      · rw [if_pos hends, if_pos hends, Field.get_append (halgo hends)]
      · rw [if_neg hends, if_neg hends]
  | _ => rfl

theorem fixed_of_covers (hL : X.layout.Lawful) {s : Push.Session ν} {received : List UInt8}
    (h : Covers X s received) (size : Nat) : ReadingFixed X size received s := by
  intro init init' _ _
  rw [memoryOf_eq, memoryOf_eq, reading_append hL h, reading_append hL h]

/-! ### Requests of one field -/

/-- There is a result, and the session is left as it is. -/
def Leaves (X : Context ν) (s : Push.Session ν) {β : Type} (x : X.M β) : Prop :=
  Holds (fun w => w.session = s) x (fun _ t => t.session = s) fun _ _ => False

theorem leaves_setEvents (s : Push.Session ν) (events : Epoll.Interest) :
    Leaves X s (setEvents X events) := fun _ h => h

theorem leaves_sendRetry (s : Push.Session ν) (response : Response X.layout.payloadMax)
    (length : UInt16) : ∀ (attempts : Nat) (dataSent : UInt16),
    Leaves X s (Link.sendRetry (port X) response length attempts dataSent) := by
  intro attempts
  induction attempts with
  | zero => exact fun dataSent => holds_pure dataSent fun _ h => h
  | succ attempts ih =>
      intro dataSent
      refine holds_ite (fun _ => holds_pure dataSent fun _ h => h) fun _ => ?_
      have hattempt : Leaves X s (Link.linkSendData (port X) response length) := fun _ h => h
      exact holds_bind hattempt fun sent => ih sent

theorem leaves_amilinkSendMessage (s : Push.Session ν) (response : Response X.layout.payloadMax) :
    Leaves X s (amilinkSendMessage X response) := by
  refine holds_bind (Q := fun _ t => t.session = s) (holds_modify _ fun _ h => h) fun _ => ?_
  refine holds_bind (leaves_sendRetry s response _ _ _) fun dataSent => ?_
  exact holds_bind (Q := fun _ t => t.session = s) (holds_modify _ fun _ h => h) fun _ =>
    holds_pure dataSent fun _ h => h

theorem leaves_performAll (s : Push.Session ν) : ∀ E : List (Push.Event ν),
    Leaves X s (performAll X E) := by
  intro E
  have hsend : ∀ response, Leaves X s (do let _ ← amilinkSendMessage X response; pure ()) :=
    fun response => holds_bind (leaves_amilinkSendMessage s response) fun _ =>
      holds_pure () fun _ h => h
  -- Induction on the log: no event of it changes the session.
  induction E with
  | nil => exact holds_pure () fun _ h => h
  | cons e E ih =>
      have he : Leaves X s (perform X e) := by
        cases e with
        | statement st success => exact holds_pure () fun _ h => h
        | modifyEpollEvent events => exact leaves_setEvents s events
        | send topic =>
            cases topic with
            | other => exact holds_pure () fun _ h => h
            | _ => exact hsend _
      exact holds_bind he fun _ => ih

/-- A push leaves the session of its handler. -/
theorem push_session {r : Push.Request X.layout} {w : World ν X.layout.payloadMax}
    {s : Push.Session ν} {more : Bool}
    (h : Push.handleRequest X.layout X.push r w.session = .ok more s) :
    ∃ t, push X r w = .ok more t ∧ t.session = s := by
  rcases ok_of_holds (leaves_performAll s (s.events.drop w.session.events.length))
    (s := { w with session := s }) rfl with ⟨⟨⟩, t, ht, hsession⟩
  refine ⟨t, ?_, hsession⟩
  unfold push
  rw [h]
  exact bind_ok _ ht

/-- The topic of a request is this one whatever was in its memory. -/
def TopicFixed (X : Context ν) (size : Nat) (received : List UInt8) (topic : Message.Topic) :
    Prop :=
  ∀ init : List UInt8, init.length = size → X.request.topic.get (memoryOf X received init) = topic

/-- What a registration does is the same only if the id is. -/
theorem idDevice_fixed {size : Nat} {received : List UInt8} {w : World ν X.layout.payloadMax}
    (htopic : TopicFixed X size received .deviceRegisterRequest)
    (h : Determined X size received w) {init init' : List UInt8} (hinit : init.length = size)
    (hinit' : init'.length = size) :
    X.request.idDevice.get (memoryOf X received init') =
      X.request.idDevice.get (memoryOf X received init) := by
  have hrun : ∀ memory, X.request.topic.get memory = .deviceRegisterRequest →
      ∃ t, handleRequest X 0 memory w = .ok true t ∧
        t.session.idDevice = X.request.idDevice.get memory := by
    intro memory hmemory
    rcases push_session (X := X) (w := w) (r := .deviceRegister (X.request.idDevice.get memory)) rfl
      with ⟨t, ht, hsession⟩
    refine ⟨t, ?_, by rw [hsession]⟩
    unfold handleRequest
    rw [hmemory]
    exact ht
  rcases hrun _ (htopic init hinit) with ⟨t, ht, hid⟩
  rcases hrun _ (htopic init' hinit') with ⟨t', ht', hid'⟩
  -- The sessions behind both are the same, and so are the ids in them.
  have heq := h 0 init init' hinit hinit'
  rw [ht, ht', EStateM.Result.ok.injEq] at heq
  rw [← hid, ← hid', heq.2]

/-- What a data log push does is the same only if the data set is. -/
theorem dataSet_fixed {size : Nat} {received : List UInt8} {w : World ν X.layout.payloadMax}
    (htopic : TopicFixed X size received .dataLogPushRequest)
    (h : Determined X size received w) {init init' : List UInt8} (hinit : init.length = size)
    (hinit' : init'.length = size) :
    X.request.dataLogPushReq.get (memoryOf X received init') =
      X.request.dataLogPushReq.get (memoryOf X received init) := by
  have hrun : ∀ memory, X.request.topic.get memory = .dataLogPushRequest →
      ∃ t success E, handleRequest X 0 memory w = .ok true t ∧ t.session.events =
        w.session.events ++ .statement (.insertDataSet w.session.idDevice
          (X.request.dataLogPushReq.get memory)) success :: E := by
    intro memory hmemory
    rcases Push.handleRequest_dataLogPush X.layout X.push (X.request.dataLogPushReq.get memory)
      w.session with ⟨s, success, E, hpush, hevents⟩
    rcases push_session (w := w) hpush with ⟨t, ht, hsession⟩
    refine ⟨t, success, E, ?_, by rw [hsession]; exact hevents⟩
    unfold handleRequest
    rw [hmemory]
    exact ht
  rcases hrun _ (htopic init hinit) with ⟨t, success, E, ht, hevents⟩
  rcases hrun _ (htopic init' hinit') with ⟨t', success', E', ht', hevents'⟩
  -- The first events behind those of before are the same.
  have heq := h 0 init init' hinit hinit'
  rw [ht, ht', EStateM.Result.ok.injEq] at heq
  rw [heq.2, hevents, List.append_cancel_left_eq, List.cons.injEq, Push.Event.statement.injEq,
    Push.Statement.insertDataSet.injEq] at hevents'
  exact hevents'.1.1.2.symm

/-- Where what is done tells what was read, the reading is the same only if what
    is done is. -/
theorem fixed_of_determined {size : Nat} {received : List UInt8}
    {w : World ν X.layout.payloadMax} {topic : Message.Topic}
    (htopic : TopicFixed X size received topic) (hfile : topic ≠ .fileRequest)
    (hblock : topic ≠ .rawDataPushRequest) (hversion : topic ≠ .versionRequest)
    -- The topic is the same for both memories, so the two readings differ by one field.
    (h : Determined X size received w) : ReadingFixed X size received w.session := by
  intro init init' hinit hinit'
  unfold reading
  rw [htopic init hinit, htopic init' hinit']
  cases topic with
  | fileRequest => exact absurd rfl hfile
  | rawDataPushRequest => exact absurd rfl hblock
  | versionRequest => exact absurd rfl hversion
  | deviceRegisterRequest =>
      exact congrArg Reading.deviceRegister (idDevice_fixed htopic h hinit hinit')
  | dataLogPushRequest =>
      exact congrArg Reading.dataLogPush (dataSet_fixed htopic h hinit hinit')
  | _ => rfl

/-- What a request does depends on the received bytes only, if what is read of
    it does, and it does if the received bytes cover that. For the topics without
    a name, a version or a block it is the only way. -/
theorem request_determined (hL : X.layout.Lawful) (size : Nat) (received : List UInt8)
    (w : World ν X.layout.payloadMax) :
    (ReadingFixed X size received w.session → Determined X size received w) ∧
      (Covers X w.session received → ReadingFixed X size received w.session) ∧
      ∀ topic, TopicFixed X size received topic → topic ≠ .fileRequest →
        topic ≠ .rawDataPushRequest → topic ≠ .versionRequest →
        (Determined X size received w ↔ ReadingFixed X size received w.session) :=
  ⟨determined_of_fixed hL, fun h => fixed_of_covers hL h size, fun _ htopic hfile hblock hversion =>
    ⟨fixed_of_determined htopic hfile hblock hversion, determined_of_fixed hL⟩⟩

/-- A registration of full length. -/
theorem request_determined_register :
    Determined quietServer 77 [2, 9, 0, 0, 0, 0, 0, 0, 0] (openedWorld _) := by
  have hdetermined := request_determined (X := quietServer) Push.packedLayout_lawful 77
    [2, 9, 0, 0, 0, 0, 0, 0, 0] (openedWorld _)
  exact hdetermined.1 (hdetermined.2.1 ⟨show (1 : Nat) ≤ 9 by decide, show (9 : Nat) ≤ 9 by decide⟩)

/-- A registration of two bytes takes its id from what was in memory. -/
theorem short_register_not_determined :
    ¬ Determined quietServer 77 [2, 9] (openedWorld _) := by
  intro hdetermined
  have htopic : TopicFixed quietServer 77 [2, 9] .deviceRegisterRequest := by
    intro init _
    rw [memoryOf_eq]
    rfl
  have hid := idDevice_fixed htopic hdetermined
    (show (List.replicate 77 (0 : UInt8)).length = 77 from rfl)
    (show (List.replicate 77 (1 : UInt8)).length = 77 from rfl)
  rw [memoryOf_eq, memoryOf_eq] at hid
  exact absurd hid (by decide)

end Requests

end EpollServer
