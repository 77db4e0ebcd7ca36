import MessageBroker.Log.Topic
import MessageBroker.Log.Cursor
import MessageBroker.MessageId
/-!
# Storage

The store of a broker: its topics by name, in ascending name order, and the number of
partitions a topic gets when a first publish creates it. The partitions of such a topic are
keyed `""`, `"1"`, … up to one less than that number, and there is always at least the default
one.

## Main definitions

* `partitionKeys`: the keys of a topic with a number of partitions
* `Storage`, with `save`, `get`, `explore`, `explorePartition`, `resetOffset`, `createTopic`,
  `listTopics`, `partitions`, `openCursors`

## Main results

* `partitionKeys_length`: `partitionKeys n` has `max n 1` keys
-/

namespace MessageBroker

/-- The keys of a topic with `count` partitions: the default key, then `"1"`, `"2"`, … —
always at least the default one. -/
def partitionKeys (count : Nat) : List String :=
  (List.range (max count 1)).map fun i => if i = 0 then "" else toString i

theorem partitionKeys_length (count : Nat) : (partitionKeys count).length = max count 1 := by
  simp [partitionKeys]

/-- The topics of a broker, and the partition count of topics that a publish creates. -/
structure Storage where
  /-- Partitions given to a topic created by its first publish. -/
  defaultPartitions : Nat
  /-- The topics, in ascending name order. -/
  topics : List Topic

/-- Inserts a topic before the first one with a larger name. -/
def insertByName (t : Topic) : List Topic → List Topic
  | [] => [t]
  | u :: us => if t.name.val < u.name.val then t :: u :: us else u :: insertByName t us

namespace Storage

/-- A store with no topic. -/
def create (defaultPartitions : Nat) : Storage := ⟨defaultPartitions, []⟩

/-- The topic of a name, if there is one. -/
def topic? (s : Storage) (name : TopicName) : Option Topic :=
  s.topics.find? (·.name == name)

/-- The topic of a name, or the failure that there is none. -/
def topic (s : Storage) (name : TopicName) : Except BrokerError Topic :=
  match s.topic? name with
  | some t => .ok t
  | none => .error (.topicNotFound name)

/-- Stores a topic, in place of the one of its name or as a new one. -/
def put (s : Storage) (t : Topic) : Storage :=
  if s.topics.any (·.name == t.name) then
    { s with topics := s.topics.map fun u => if u.name == t.name then t else u }
  else { s with topics := insertByName t s.topics }

/-- Routes and appends a message to a topic, creating the topic with the default partition
count when it does not exist. Answers the id of the message. -/
def save (s : Storage) (name : TopicName) (content : List UInt8) (key : Option String)
    (expiresAt : Option Instant) : Storage × MessageId :=
  let t := (s.topic? name).getD (Topic.withKeys name (partitionKeys s.defaultPartitions))
  let r := t.route key content expiresAt
  (s.put r.1, ⟨name, r.2.1, r.2.2⟩)

/-- The newest message of a topic, or the failure that it has none. -/
def latestOf (t : Topic) : Except BrokerError Message :=
  match t.latest with
  | some m => .ok m
  | none => .error (.offsetNotFound t.name .latest)

/-- The newest message of a topic. -/
def get (s : Storage) (name : TopicName) : Except BrokerError Message := do
  latestOf (← s.topic name)

/-- The newest message of a topic, or the message at an offset of its default partition, read
through the handle the topic holds on it. -/
def explore (s : Storage) (name : TopicName) (spec : OffsetSpec) : Except BrokerError Message := do
  let t ← s.topic name
  match spec with
  | .latest => latestOf t
  | .exactly o =>
    match t.defaultPartition.readAt o with
    | some m => .ok m
    | none => .error (.offsetNotFound t.name spec)

/-- The newest message of one partition of a topic, or its message at an offset. -/
def explorePartition (s : Storage) (name : TopicName) (key : String) (spec : OffsetSpec) :
    Except BrokerError Message := do
  let t ← s.topic name
  match t.find? key with
  | none => .error (.partitionNotFound t.name key)
  | some p =>
    let found := match spec with
      | .latest => p.readLatest
      | .exactly o => p.readAt o
    match found with
    | some m => .ok m
    | none => .error (.offsetNotFound t.name spec)

/-- Resets every partition of a topic. -/
def resetOffset (s : Storage) (name : TopicName) : Except BrokerError Storage := do
  let t ← s.topic name
  pure (s.put t.reset)

/-- Creates a topic if it does not exist, then adds the partitions it lacks. -/
def createTopic (s : Storage) (name : TopicName) (keys : List String) : Storage :=
  let t := (s.topic? name).getD (Topic.create name)
  s.put (keys.foldl (fun t k => (t.addPartition k).1) t)

/-- The names of the topics, ascending. -/
def listTopics (s : Storage) : List TopicName :=
  s.topics.map (·.name)

/-- The partition keys of a topic, ascending. -/
def partitions (s : Storage) (name : TopicName) : Except BrokerError (List String) := do
  pure (← s.topic name).keys

/-- One cursor per partition of a topic, each at its high watermark, in key order. -/
def openCursors (s : Storage) (name : TopicName) : Except BrokerError (List Cursor) := do
  pure ((← s.topic name).partitions.map Cursor.atLatest)

end Storage

end MessageBroker
