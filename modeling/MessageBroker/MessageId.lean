import MessageBroker.Error
import MessageBroker.Text.Split
/-!
# Message ids

A message is named by its topic, its partition and its offset, written `topic/partition@offset`.
Reading cuts at the last `@` (a partition key may hold `@`), then at the first `/` (a topic name
holds none), reads the offset as a 64-bit unsigned decimal, and then checks the topic name.

## Main definitions

* `MessageId`, `MessageId.render`, `MessageId.parse`
* `TopicPartition.render`: `topic/partition`
-/

namespace MessageBroker

/-- The written form of a partition of a topic: `topic/partition`. -/
def TopicPartition.render (topic : TopicName) (key : String) : String :=
  topic.val ++ "/" ++ key

/-- The name of one message. -/
structure MessageId where
  topic : TopicName
  partition : String
  offset : Nat
  deriving DecidableEq

namespace MessageId

/-- The written form `topic/partition@offset`. -/
def render (m : MessageId) : String :=
  TopicPartition.render m.topic m.partition ++ "@" ++ toString m.offset

/-- Reads a message id. A text without `@`, without `/` before its last `@`, or whose offset
is not a 64-bit unsigned decimal is malformed; the topic name is checked last. -/
def parse (s : String) : Except BrokerError MessageId :=
  let malformed : BrokerError := .invalidArgument ("Malformed message id '" ++ s ++ "'")
  match Text.splitLast? '@' s with
  | none => .error malformed
  | some (left, digits) =>
    match Text.splitFirst? '/' left with
    | none => .error malformed
    | some (topic, partition) =>
      match Text.readU64 digits with
      | .error _ => .error malformed
      | .ok offset => do
        let t ← TopicName.parse topic
        pure ⟨t, partition, offset⟩

end MessageId

end MessageBroker
