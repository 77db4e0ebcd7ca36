import MessageBroker.Storage
import MessageBroker.Subscription
/-!
# The broker

The broker publishes into its storage and opens subscriptions on it. A publish with a time to
live stamps the message with an expiry, and fails, storing nothing, when the span does not fit
a clock offset or the expiry falls after the calendar. Consumers are numbered from `1`, one per
successful subscribe, and the broker counts the subscriptions not yet dropped.

The requests of clients come on top: a publish request names its topic as text and its time to
live in signed milliseconds; reads and topic management name topics as text and offsets as
signed numbers.

## Main definitions

* `Broker`, `Broker.publish`, `Broker.subscribe`, `Broker.release`
* `PublishRequest`, `PublishResponse`, `Broker.publishRequest`
* `TopicMetadata`, `Broker.createTopic`, `Broker.describe`, `Broker.explore`, …
-/

namespace MessageBroker

/-- A broker: its storage, the next consumer id and the number of live subscriptions. -/
structure Broker where
  storage : Storage
  nextConsumer : Nat
  active : Nat

namespace Broker

/-- A broker on an empty storage. -/
def create (defaultPartitions : Nat) : Broker :=
  ⟨Storage.create defaultPartitions, 1, 0⟩

/-- Publishes content to a topic, with an optional key and time to live. -/
def publish (b : Broker) (now : Instant) (topic : TopicName) (content : List UInt8)
    (key : Option String) (ttl : Option Span) : Except BrokerError (Broker × MessageId) := do
  let expiresAt ← match ttl with
    | none => pure none
    | some d => (expiryAfter now d).mapError fun e => .invalidArgument e.message
  let r := b.storage.save topic content key expiresAt
  pure ({ b with storage := r.1 }, r.2)

/-- Opens a subscription on every partition the topic has now, each cursor at its high
watermark, under the next consumer id. -/
def subscribe (b : Broker) (topic : TopicName) : Except BrokerError (Broker × Subscription) := do
  let cursors ← b.storage.openCursors topic
  pure ({ b with nextConsumer := b.nextConsumer + 1, active := b.active + 1 },
    Subscription.open_ b.nextConsumer topic cursors)

/-- Counts a subscription as dropped. -/
def release (b : Broker) : Broker := { b with active := b.active - 1 }

/-- The current state of a subscription's topic. -/
def topicOf (b : Broker) (s : Subscription) : Topic :=
  (b.storage.topic? s.topic).getD (Topic.create s.topic)

end Broker

/-- A client's request to publish. -/
structure PublishRequest where
  topic : String
  body : List UInt8
  /-- The time to live in milliseconds; `0` for none. -/
  ttlMs : Int64
  key : Option String
  producerId : Option Int64
  deriving DecidableEq

/-- What a successful publish answers: the message id, written, with its partition and offset. -/
structure PublishResponse where
  id : String
  partition : String
  offset : Nat
  deriving DecidableEq

/-- The answer for a message id. -/
def PublishResponse.ofId (m : MessageId) : PublishResponse :=
  ⟨m.render, m.partition, m.offset⟩

/-- A topic's name and its partition keys, ascending. -/
structure TopicMetadata where
  name : String
  partitions : List String
  deriving DecidableEq

namespace Broker

/-- Serves a publish request: the topic name is checked first, then the time to live, which
must not be negative; a positive one is a span of that many milliseconds. An empty key routes
like no key. -/
def publishRequest (b : Broker) (now : Instant) (r : PublishRequest) :
    Except BrokerError (Broker × PublishResponse) := do
  let topic ← TopicName.parse r.topic
  if r.ttlMs.toInt < 0 then
    throw (.invalidArgument ("TTL cannot be negative, got " ++ toString r.ttlMs.toInt ++ "ms"))
  let ttl := if 0 < r.ttlMs.toInt then some (Span.ofMillis r.ttlMs.toInt.toNat) else none
  let key := r.key.filter (· ≠ "")
  let res ← b.publish now topic r.body key ttl
  pure (res.1, PublishResponse.ofId res.2)

/-- The newest message of a topic. -/
def get (b : Broker) (topic : String) : Except BrokerError Message := do
  b.storage.get (← TopicName.parse topic)

/-- A message by topic, optional partition and signed offset (`-1` for the newest). -/
def explore (b : Broker) (topic : String) (partition : Option String) (offset : Int) :
    Except BrokerError Message := do
  let t ← TopicName.parse topic
  let spec ← OffsetSpec.ofInt offset
  match partition with
  | some k => b.storage.explorePartition t k spec
  | none => b.storage.explore t spec

/-- Resets every partition of a topic. -/
def resetTopic (b : Broker) (topic : String) : Except BrokerError Broker := do
  let s ← b.storage.resetOffset (← TopicName.parse topic)
  pure { b with storage := s }

/-- A topic's name and partition keys. -/
def describe (b : Broker) (topic : String) : Except BrokerError TopicMetadata := do
  let t ← TopicName.parse topic
  pure ⟨t.val, ← b.storage.partitions t⟩

/-- Creates a topic, or adds the partitions it lacks, and describes it. -/
def createTopic (b : Broker) (topic : String) (keys : List String) :
    Except BrokerError (Broker × TopicMetadata) := do
  let t ← TopicName.parse topic
  let b' := { b with storage := b.storage.createTopic t keys }
  pure (b', ← b'.describe topic)

/-- The names of all topics, ascending. -/
def listTopics (b : Broker) : List String :=
  b.storage.listTopics.map (·.val)

/-- Subscribes to a topic named as text. -/
def subscribeTo (b : Broker) (topic : String) : Except BrokerError (Broker × Subscription) := do
  b.subscribe (← TopicName.parse topic)

end Broker

end MessageBroker
