import MessageBroker.Wire.Field
import MessageBroker.Broker
/-!
# Requests on the wire

A request is a header, the api key and a correlation id, and a body by api: a publish names
topic, key, time to live, content and producer; a subscribe names a topic; a health check has
no body.

## Main definitions

* `ApiKey`, `RequestHeader`, with `encode`, `decode` and `peekCorrelationId`
* `encodePublish`, `decodePublish`, `encodeSubscribe`, `decodeSubscribe`
-/

namespace MessageBroker.Wire

/-- The apis a request may call. -/
inductive ApiKey where
  | publish
  | subscribe
  | health
  deriving DecidableEq, Repr

/-- The number of each api. -/
def ApiKey.code : ApiKey → Int16
  | .publish => 0
  | .subscribe => 1
  | .health => 2

/-- The api a number names. -/
def ApiKey.ofCode? (v : Int16) : Option ApiKey :=
  if v = 0 then some .publish
  else if v = 1 then some .subscribe
  else if v = 2 then some .health
  else none

/-- The header of a request. -/
structure RequestHeader where
  api : ApiKey
  correlationId : Int32
  deriving DecidableEq, Repr

namespace RequestHeader

/-- Writes the api number, then the correlation id. -/
def encode (h : RequestHeader) : List UInt8 :=
  encodeI16 h.api.code ++ encodeI32 h.correlationId

/-- Reads a header; an api number that names no api fails once it is read. -/
def decode : Decoder RequestHeader := do
  let raw ← decodeI16
  match ApiKey.ofCode? raw with
  | none => Decoder.fail .unknownApiKey
  | some api => pure ⟨api, ← decodeI32⟩

/-- The correlation id of a frame, read at bytes 2 to 6 whatever the api: a frame that cannot
be read can still be answered. -/
def peekCorrelationId (frame : List UInt8) : Option Int32 :=
  if 6 ≤ frame.length then some (UInt32.ofNat (ofWord ((frame.drop 2).take 4))).toInt32
  else none

end RequestHeader

/-- Writes a publish request: topic, key, time to live, content, and the producer id or `-1`. -/
def encodePublish (r : PublishRequest) : Except WireError (List UInt8) := do
  let topic ← encodeString (some r.topic)
  let key ← encodeString r.key
  let body ← encodeBytes (some r.body)
  pure (topic ++ key ++ encodeI64 r.ttlMs ++ body ++ encodeI64 (r.producerId.getD (-1)))

/-- Reads a publish request; null content reads as empty, and a negative producer id as
none. -/
def decodePublish : Decoder PublishRequest := do
  let topic ← decodeRequiredString "Topic"
  let key ← decodeString
  let ttlMs ← decodeI64
  let body ← decodeBytes
  let producer ← decodeI64
  pure ⟨topic, body.getD [], ttlMs, key, if producer.toInt < 0 then none else some producer⟩

/-- Writes a subscribe request: its topic. -/
def encodeSubscribe (topic : String) : Except WireError (List UInt8) :=
  encodeString (some topic)

/-- Reads a subscribe request: a topic that must not be null. -/
def decodeSubscribe : Decoder String :=
  decodeRequiredString "Topic"

end MessageBroker.Wire
