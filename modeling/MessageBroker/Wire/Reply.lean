import MessageBroker.Wire.Field
import MessageBroker.Broker
/-!
# Replies on the wire

A reply is a header, the correlation id of its request, and a body: a publish reply, which is
a status code and, on success, the message id, partition and offset; or a stream frame, which
opens a subscription, carries a message or ends it with a status code.

## Main definitions

* `ErrorCode.toInt16`, `ErrorCode.ofInt16`
* `PublishReply`, `encodePublishReply`, `decodePublishReply`
* `StreamFrame`, `encodeStreamFrame`, `decodeStreamFrame`
* `encodeResponseHeader`, `decodeResponseHeader`
-/

namespace MessageBroker

/-- The number written for a status code. -/
def ErrorCode.toInt16 (c : ErrorCode) : Int16 := Int16.ofInt c.toInt

/-- The status code a number stands for. -/
def ErrorCode.ofInt16 (v : Int16) : ErrorCode := ErrorCode.ofInt v.toInt

namespace Wire

/-- Writes the header of a reply: the correlation id. -/
def encodeResponseHeader (correlationId : Int32) : List UInt8 := encodeI32 correlationId

/-- Reads the header of a reply. -/
def decodeResponseHeader : Decoder Int32 := decodeI32

/-- The reply to a publish. -/
inductive PublishReply where
  | accepted (r : PublishResponse)
  | rejected (code : ErrorCode)
  deriving DecidableEq

/-- Writes a publish reply: status `0` then id, partition and offset (as a signed 64-bit
word), or just the status. -/
def encodePublishReply : PublishReply → Except WireError (List UInt8)
  | .accepted r => do
    let id ← encodeString (some r.id)
    let partition ← encodeString (some r.partition)
    pure (encodeI16 ErrorCode.none.toInt16 ++ id ++ partition ++ encodeI64 (Int64.ofNat r.offset))
  | .rejected code => .ok (encodeI16 code.toInt16)

/-- Reads a publish reply: any status but `0` ends it; the offset is the signed word read as
unsigned. -/
def decodePublishReply : Decoder PublishReply := do
  let code := ErrorCode.ofInt16 (← decodeI16)
  if code ≠ .none then pure (.rejected code)
  else
    let id ← decodeRequiredString "Message id"
    let partition ← decodeRequiredString "Partition"
    let offset ← decodeI64
    pure (.accepted ⟨id, partition, offset.toUInt64.toNat⟩)

/-- A frame of a subscription stream. -/
inductive StreamFrame where
  /-- the subscription is open, under this consumer id -/
  | opened (consumerId : Int64)
  /-- a delivered message: partition, offset and content -/
  | message (partition : String) (offset : Nat) (body : List UInt8)
  /-- the stream ends, with a status -/
  | ended (code : ErrorCode)
  deriving DecidableEq

/-- Writes a stream frame: a one-byte tag (`0`, `1`, `2`) and the frame's fields. -/
def encodeStreamFrame : StreamFrame → Except WireError (List UInt8)
  | .opened id => .ok (encodeI8 0 ++ encodeI64 id)
  | .message partition offset body => do
    let p ← encodeString (some partition)
    let b ← encodeBytes (some body)
    pure (encodeI8 1 ++ p ++ encodeI64 (Int64.ofNat offset) ++ b)
  | .ended code => .ok (encodeI8 2 ++ encodeI16 code.toInt16)

/-- Reads a stream frame; null content reads as empty. -/
def decodeStreamFrame : Decoder StreamFrame := do
  let tag ← decodeI8
  if tag = 0 then pure (.opened (← decodeI64))
  else if tag = 1 then
    let partition ← decodeRequiredString "Partition"
    let offset ← decodeI64
    let body ← decodeBytes
    pure (.message partition offset.toUInt64.toNat (body.getD []))
  else if tag = 2 then pure (.ended (ErrorCode.ofInt16 (← decodeI16)))
  else Decoder.fail .unknownFrameKind

end Wire

end MessageBroker
