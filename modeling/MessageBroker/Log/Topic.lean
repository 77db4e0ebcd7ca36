import MessageBroker.Log.Partition
/-!
# Topics

A topic is a set of partitions under distinct keys, kept in ascending key order, always with
the default partition under the empty key. A message with a non-empty key goes to that key's
partition, which is created when missing; a message without a key, or with the empty key, goes
round robin: a counter of such messages, taken modulo the number of partitions, picks a
partition in key order. Every message of a topic gets the next number of one topic-wide
sequence.

Partitions are shared objects. The partition map holds each one by reference, and the topic
holds a second reference to its default partition apart from the map: reads of the topic at an
offset go through that handle. So a topic keeps its partitions in cells, each at the place it
was made in, which is its identity; the map binds each key to an identity, and the handle is
the identity of the default partition. A change to a partition is a change to its cell, seen
through every reference to it. That every identity names a cell, and that no two keys share
one, holds by construction, as it does of references; that the map binds `""` to the cell the
handle names, and each key to a partition of that key, is a property of the operations.

## Main definitions

* `Topic`, `Topic.create`, `Topic.withKeys`
* `Topic.keys`, `Topic.partitions`, `Topic.slot?`, `Topic.find?`, `Topic.defaultPartition`
* `Topic.addPartition`, `Topic.update`, `Topic.modify`, `Topic.appendAt`, `Topic.appendTo`
* `Topic.nextRoundRobin`, `Topic.keyedPartition`, `Topic.target`, `Topic.route`
* `Topic.latest`, `Topic.reset`

## Main results

* `perm_insertByKey`: inserting a binding in key order adds it and nothing else
* `addPartition_of_mem`: adding a key that is there changes nothing
-/

namespace MessageBroker

/-- Inserts a binding of the partition map before the first one with a larger key. -/
def insertByKey (s : String × Nat) : List (String × Nat) → List (String × Nat)
  | [] => [s]
  | r :: rs => if s.1 < r.1 then s :: r :: rs else r :: insertByKey s rs

theorem perm_insertByKey {s : String × Nat} {l : List (String × Nat)} :
    List.Perm (insertByKey s l) (s :: l) := by
  induction l with
  | nil => exact List.Perm.refl _
  | cons r rs ih =>
    unfold insertByKey
    split
    · exact List.Perm.refl _
    · exact (ih.cons r).trans (List.Perm.swap s r rs)

/-- A topic: its partitions in cells, the partition map and the handle on the default
partition, both by identity, and two counters. -/
structure Topic where
  name : TopicName
  /-- Every partition the topic has made, each at its identity: the place it was made in. -/
  cells : List Partition
  /-- The partition map: each key bound to the identity of its partition, in ascending key
  order. -/
  slots : List (String × Nat)
  /-- The handle on the default partition, held apart from the map: its identity. -/
  defaultCell : Nat
  /-- The number of messages routed round robin so far. -/
  roundRobin : Nat
  /-- The sequence number the next message gets. -/
  sequence : Nat
  /-- Every identity the map holds names a partition made. -/
  slot_lt : ∀ s ∈ slots, s.2 < cells.length
  /-- So does the handle. -/
  defaultCell_lt : defaultCell < cells.length
  /-- No two keys share a partition: each partition was made for one key. -/
  nodup_ids : (slots.map (·.2)).Nodup

namespace Topic

/-- A topic with only its default partition, which the map binds to `""` and the handle
holds. -/
def create (name : TopicName) : Topic where
  name := name
  cells := [Partition.create name ""]
  slots := [("", 0)]
  defaultCell := 0
  roundRobin := 0
  sequence := 0
  slot_lt s hs := by
    rw [List.mem_singleton] at hs
    rw [hs]
    exact Nat.zero_lt_one
  defaultCell_lt := Nat.zero_lt_one
  nodup_ids := List.nodup_cons.mpr ⟨List.not_mem_nil, List.nodup_nil⟩

/-- The keys of the map, ascending. -/
def keys (t : Topic) : List String := t.slots.map (·.1)

/-- The partitions of the map, in key order. -/
def partitions (t : Topic) : List Partition := t.slots.filterMap fun s => t.cells[s.2]?

/-- The identity the map binds a key to. -/
def slot? (t : Topic) (key : String) : Option Nat := t.slots.lookup key

/-- The partition the map binds a key to. -/
def find? (t : Topic) (key : String) : Option Partition :=
  (t.slot? key).bind fun i => t.cells[i]?

/-- The default partition, read through the handle. -/
def defaultPartition (t : Topic) : Partition :=
  have := t.defaultCell_lt
  t.cells[t.defaultCell]

/-- Makes an empty partition of the topic under a key, at a new identity, and binds the key
to it. -/
def makePartition (t : Topic) (key : String) : Topic where
  name := t.name
  cells := t.cells ++ [Partition.create t.name key]
  slots := insertByKey (key, t.cells.length) t.slots
  defaultCell := t.defaultCell
  roundRobin := t.roundRobin
  sequence := t.sequence
  slot_lt s hs := by
    rw [List.length_append, List.length_singleton]
    rcases List.mem_cons.mp (perm_insertByKey.mem_iff.mp hs) with rfl | hs
    · exact Nat.lt_succ_self _
    · exact Nat.lt_succ_of_lt (t.slot_lt s hs)
  defaultCell_lt := by
    rw [List.length_append, List.length_singleton]
    exact Nat.lt_succ_of_lt t.defaultCell_lt
  nodup_ids := by
    rw [(perm_insertByKey.map _).nodup_iff, List.map_cons, List.nodup_cons]
    -- the new identity lies above every identity held
    refine ⟨fun h => ?_, t.nodup_ids⟩
    obtain ⟨s, hs, hs2⟩ := List.mem_map.mp h
    exact Nat.lt_irrefl _ (hs2 ▸ t.slot_lt s hs)

/-- Adds an empty partition under a key unless there is one; answers whether it was added. -/
def addPartition (t : Topic) (key : String) : Topic × Bool :=
  if t.keys.contains key then (t, false) else (t.makePartition key, true)

/-- A topic with the default partition and one partition per listed key; repeated keys and
the empty key add nothing more. -/
def withKeys (name : TopicName) (keys : List String) : Topic :=
  keys.foldl (fun t k => (t.addPartition k).1) (create name)

/-- Replaces the partition of identity `i` by `f` of it. -/
def update (t : Topic) (i : Nat) (f : Partition → Partition) : Topic :=
  { t with
    cells := t.cells.modify i f
    slot_lt := fun s hs => by
      rw [List.length_modify]
      exact t.slot_lt s hs
    defaultCell_lt := by
      rw [List.length_modify]
      exact t.defaultCell_lt }

/-- Replaces the partition under `key` by `f` of it. -/
def modify (t : Topic) (key : String) (f : Partition → Partition) : Topic :=
  match t.slot? key with
  | some i => t.update i f
  | none => t

/-- Appends a message to the partition of identity `i` with the topic's next sequence number;
answers the topic, the key of the partition and the offset the message got. An identity the
topic never made appends nothing. -/
def appendAt (t : Topic) (i : Nat) (content : List UInt8) (expiresAt : Option Instant) :
    Topic × String × Nat :=
  match t.cells[i]? with
  | none => (t, "", 0)
  | some p =>
    let r := p.append t.sequence content expiresAt
    ({ t.update i (fun _ => r.1) with sequence := t.sequence + 1 }, p.key, r.2)

/-- Appends a message to the partition under `key`; answers the topic and the offset. A
missing key appends nothing and answers offset `0`. -/
def appendTo (t : Topic) (key : String) (content : List UInt8) (expiresAt : Option Instant) :
    Topic × Nat :=
  match t.slot? key with
  | none => (t, 0)
  | some i =>
    let r := t.appendAt i content expiresAt
    (r.1, r.2.2)

/-- The partition an unkeyed message goes to: the one at the counter, modulo the number of
partitions, in key order, or the default partition through its handle when there is none
there; and the topic with its counter moved on. -/
def nextRoundRobin (t : Topic) : Topic × Nat :=
  let i := ((t.slots[t.roundRobin % t.slots.length]?).map (·.2)).getD t.defaultCell
  ({ t with roundRobin := t.roundRobin + 1 }, i)

/-- The partition of a non-empty key, made when missing: the topic and its identity. -/
def keyedPartition (t : Topic) (key : String) : Topic × Nat :=
  match t.slot? key with
  | some i => (t, i)
  | none => (t.makePartition key, t.cells.length)

/-- The partition a message goes to: a non-empty key's own, made when missing; for no key or
the empty key, the next one in the round robin. Answers the topic made ready and the partition's
identity. -/
def target (t : Topic) : Option String → Topic × Nat
  | some k => if k = "" then t.nextRoundRobin else t.keyedPartition k
  | none => t.nextRoundRobin

/-- Routes a message and appends it to the partition it goes to. Answers the topic, the key of
the partition and the offset. -/
def route (t : Topic) (key : Option String) (content : List UInt8)
    (expiresAt : Option Instant) : Topic × String × Nat :=
  let r := t.target key
  r.1.appendAt r.2 content expiresAt

/-- The newest message of the topic: the one with the largest sequence number among the last
messages of the partitions. -/
def latest (t : Topic) : Option Message :=
  (t.partitions.filterMap (·.readLatest)).foldl
    (fun best m => match best with
      | some b => if b.sequence ≤ m.sequence then some m else some b
      | none => some m) none

/-- Resets every partition of the map, one after another. -/
def reset (t : Topic) : Topic :=
  t.slots.foldl (fun t s => t.update s.2 fun p => p.reset.1) t

theorem addPartition_of_mem {t : Topic} {k : String} (h : k ∈ t.keys) :
    t.addPartition k = (t, false) := by
  simp [addPartition, h]

end Topic

end MessageBroker
