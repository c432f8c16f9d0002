import Mathlib

/-!
# Messages and their Lengths

The topics of `MqsCldMsg_t` and the length that `amilinkSendMessage` computes
for a message.

A message is a topic with a union behind it, of which the topic says what it
holds. The header `mqs.h` is not part of the repository, so the sizes of the
topic and of the members of the union are a structure, under the names of the
members. The two blocks are of the same type, `MqsCldFile_t`, and sent only as
far as they are filled: with `length` bytes of their array of data.

## Main definitions

* `Topic`: The topics the program tells apart.
* `Sizes`: The sizes of the members of a message.
* `messageLength`: The length in `amilinkSendMessage`.
-/

namespace EpollServer

namespace Message

/-- `MqsCldTopic_t`. -/
inductive Topic where
  | dataLogPushRequest
  | dataLogPushResponse
  | fetchTestRequest
  | fetchTestResponse
  | fileRequest
  | fileResponse
  | rawDataPushRequest
  | rawDataPushResponse
  | rawDataRequiredRequest
  | rawDataRequiredResponse
  | versionRequest
  | versionResponse
  | deviceRegisterRequest
  | deviceRegisterResponse
  | goodbyeRequest
  | other (code : Nat)
  deriving DecidableEq, Repr

/-- The size of each member of `MqsCldMsg_t`. -/
structure Sizes where
  topic : Nat
  dataLogPushReq : Nat
  dataLogPushResp : Nat
  testFetchReq : Nat
  testFetchResp : Nat
  filePullReq : Nat
  filePullResp : Nat
  rawDataPushReq : Nat
  rawDataPushResponse : Nat
  rawDataRequiredReq : Nat
  rawDataRequiredResp : Nat
  versionReq : Nat
  versionResp : Nat
  deviceRegisterReq : Nat
  deviceRegisterResp : Nat
  /-- `MQS_CLD_DATA_PAYLOAD_MAX`. -/
  payloadMax : Nat
  deriving DecidableEq, Repr

/-- The `int32_t length` of `amilinkSendMessage`, modulo `2 ^ 32`.
    `blockLength` is the field `length` of the block, if the message holds one. -/
def messageLength (S : Sizes) (blockLength : UInt32) : Topic → UInt32
  | .dataLogPushRequest => UInt32.ofNat (S.topic + S.dataLogPushReq)
  | .dataLogPushResponse => UInt32.ofNat (S.topic + S.dataLogPushResp)
  | .fetchTestRequest => UInt32.ofNat (S.topic + S.testFetchReq)
  | .fetchTestResponse => UInt32.ofNat (S.topic + S.testFetchResp)
  | .fileRequest => UInt32.ofNat (S.topic + S.filePullReq)
  | .fileResponse =>
      UInt32.ofNat (S.topic + (S.filePullResp - S.payloadMax + blockLength.toNat))
  | .rawDataPushRequest =>
      UInt32.ofNat (S.topic + (S.rawDataPushReq - S.payloadMax + blockLength.toNat))
  | .rawDataPushResponse => UInt32.ofNat (S.topic + S.rawDataPushResponse)
  | .rawDataRequiredRequest => UInt32.ofNat (S.topic + S.rawDataRequiredReq)
  | .rawDataRequiredResponse => UInt32.ofNat (S.topic + S.rawDataRequiredResp)
  | .versionRequest => UInt32.ofNat (S.topic + S.versionReq)
  | .versionResponse => UInt32.ofNat (S.topic + S.versionResp)
  | .deviceRegisterRequest => UInt32.ofNat (S.topic + S.deviceRegisterReq)
  | .deviceRegisterResponse => UInt32.ofNat (S.topic + S.deviceRegisterResp)
  | .goodbyeRequest => UInt32.ofNat S.topic
  | .other _ => UInt32.ofNat S.topic

end Message

end EpollServer
