import MessageBroker.Log.Message
import MessageBroker.Queue
import MessageBroker.Topic.Name
/-!
# Partitions

A partition is an append-only log of messages. Offsets count appends from `0`; the next offset
is the high watermark. The partition retains the messages from its start offset on: a reset
keeps only the last message and moves the start to it (or to the high watermark when the
partition holds nothing). A read below the start has been chased past, a read at or beyond the
high watermark waits for data. Each append also publishes the new high watermark on a watch
channel, which waiting cursors read instead of the log; a reset publishes nothing.

## Main definitions

* `Partition`, `Partition.create`
* `Partition.append`, `Partition.reset`
* `PartitionRead`, `Partition.read`, `Partition.readAt`, `Partition.readLatest`

## Main results

* `next_append`, `toList_retained_append`: what an append does
* `read_of_lt_start`, `read_of_le_next`: the two reads that find no message
-/

namespace MessageBroker

/-- What a read at an offset finds. -/
inductive PartitionRead where
  /-- the message at that offset -/
  | ready (m : Message)
  /-- nothing yet: the offset is at or beyond the high watermark -/
  | pending
  /-- the offset lies below the start, which is given -/
  | chasedPast (start : Nat)
  deriving DecidableEq

/-- A partition of a topic. -/
structure Partition where
  /-- The topic it belongs to. -/
  topic : TopicName
  /-- Its key; the empty key names the default partition. -/
  key : String
  /-- The first offset still retained. -/
  start : Nat
  /-- The offset the next append gets: the high watermark. -/
  next : Nat
  /-- The messages from `start` to `next`, oldest first. -/
  retained : Queue Message
  /-- The value the watermark channel holds: the last high watermark an append published. -/
  watermark : Nat

namespace Partition

/-- A partition with no message. -/
def create (topic : TopicName) (key : String) : Partition :=
  ⟨topic, key, 0, 0, .empty, 0⟩

/-- Appends a message with its topic-wide sequence number, then publishes the new high
watermark; answers the partition after it and the offset the message got. -/
def append (p : Partition) (sequence : Nat) (content : List UInt8) (expiresAt : Option Instant) :
    Partition × Nat :=
  ({ p with
      next := p.next + 1
      retained := p.retained.push ⟨p.next, p.key, sequence, content, expiresAt⟩
      watermark := p.next + 1 }, p.next)

/-- What a read at `offset` finds. -/
def read (p : Partition) (offset : Nat) : PartitionRead :=
  if offset < p.start then .chasedPast p.start
  else if p.next ≤ offset then .pending
  else match p.retained.get? (offset - p.start) with
    | some m => .ready m
    | none => .pending

/-- The message at `offset`, if the partition holds it. -/
def readAt (p : Partition) (offset : Nat) : Option Message :=
  match p.read offset with
  | .ready m => some m
  | _ => none

/-- The last message held. -/
def readLatest (p : Partition) : Option Message :=
  p.retained.peekBack

/-- Drops every retained message but the last, and starts the partition at it (at the high
watermark when nothing is held). Answers the partition and its new start. -/
def reset (p : Partition) : Partition × Nat :=
  let kept : Queue Message := ⟨p.retained.toList.drop (p.retained.size - 1)⟩
  let start := (kept.peek.map (·.offset)).getD p.next
  ({ p with start := start, retained := kept }, start)

/-- The offset the next append gets. -/
def highWatermark (p : Partition) : Nat := p.next

/-- The number of messages held. -/
def size (p : Partition) : Nat := p.retained.size

@[simp] theorem next_append (p : Partition) (s : Nat) (c : List UInt8) (e : Option Instant) :
    (p.append s c e).1.next = p.next + 1 := rfl

@[simp] theorem offset_append (p : Partition) (s : Nat) (c : List UInt8) (e : Option Instant) :
    (p.append s c e).2 = p.next := rfl

@[simp] theorem toList_retained_append (p : Partition) (s : Nat) (c : List UInt8)
    (e : Option Instant) :
    (p.append s c e).1.retained.toList = p.retained.toList ++ [⟨p.next, p.key, s, c, e⟩] := rfl

@[simp] theorem key_append (p : Partition) (s : Nat) (c : List UInt8) (e : Option Instant) :
    (p.append s c e).1.key = p.key := rfl

theorem read_of_lt_start {p : Partition} {o : Nat} (h : o < p.start) :
    p.read o = .chasedPast p.start := by
  simp [read, h]

theorem read_of_le_next {p : Partition} {o : Nat} (h₁ : p.start ≤ o) (h₂ : p.next ≤ o) :
    p.read o = .pending := by
  simp [read, Nat.not_lt.mpr h₁, h₂]

end Partition

end MessageBroker
