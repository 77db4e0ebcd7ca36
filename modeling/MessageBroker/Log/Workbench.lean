import MessageBroker.Log.Topic
import MessageBroker.Log.Cursor
/-!
# Workbench

A workbench holds one topic and the cursors opened on its partitions, numbered from `0`, and
serves commands one at a time: routing and appending, adding and resetting partitions, reads at
offsets, expiry checks and cursor reads. A command on a key the topic lacks, or on a cursor
number not opened, is answered as such.

## Main definitions

* `Workbench`, `Workbench.Command`, `Workbench.Answer`, `Workbench.perform`
-/

namespace MessageBroker

/-- A topic and the cursors opened on it. -/
structure Workbench where
  topic : Topic
  cursors : List Cursor

namespace Workbench

/-- A command on a workbench. -/
inductive Command where
  | route (key : Option String) (content : List UInt8) (expiresAt : Option Instant)
  | append (key : String) (content : List UInt8) (expiresAt : Option Instant)
  | addPartition (key : String)
  | partitions
  | latest
  | resetTopic
  | reset (key : String)
  | readAt (key : String) (offset : Nat)
  | readLatest (key : String)
  | poll (key : String) (offset : Nat)
  | expired (key : String) (offset : Nat) (now : Instant)
  | info (key : String)
  | cursor (key : String) (offset : Option Nat)
  | tryNext (cursor : Nat)

/-- What a workbench answers. -/
inductive Answer where
  | routed (key : String) (offset : Nat)
  | appended (offset : Nat)
  | created (added : Bool)
  | keys (keys : List String)
  | message (m : Option Message)
  | done
  | started (start : Nat)
  | read (r : PartitionRead)
  | expired (e : Option Bool)
  | info (p : Partition)
  | opened (index : Nat) (c : Cursor)
  | next (r : Except BrokerError (Option Message)) (position : Nat)
  | noSuchPartition (key : String)
  | noSuchCursor (index : Nat)

/-- Serves a command that needs the partition under `key`. -/
def withPartition (w : Workbench) (key : String) (f : Partition → Workbench × Answer) :
    Workbench × Answer :=
  match w.topic.find? key with
  | some p => f p
  | none => (w, .noSuchPartition key)

/-- Serves one command. -/
def perform (w : Workbench) : Command → Workbench × Answer
  | .route key content e =>
    let r := w.topic.route key content e
    ({ w with topic := r.1 }, .routed r.2.1 r.2.2)
  | .append key content e => w.withPartition key fun _ =>
    let r := w.topic.appendTo key content e
    ({ w with topic := r.1 }, .appended r.2)
  | .addPartition key =>
    let r := w.topic.addPartition key
    ({ w with topic := r.1 }, .created r.2)
  | .partitions => (w, .keys w.topic.keys)
  | .latest => (w, .message w.topic.latest)
  | .resetTopic => ({ w with topic := w.topic.reset }, .done)
  | .reset key => w.withPartition key fun p =>
    let r := p.reset
    ({ w with topic := w.topic.modify key fun _ => r.1 }, .started r.2)
  | .readAt key o => w.withPartition key fun p => (w, .message (p.readAt o))
  | .readLatest key => w.withPartition key fun p => (w, .message p.readLatest)
  | .poll key o => w.withPartition key fun p => (w, .read (p.read o))
  | .expired key o now => w.withPartition key fun p =>
    (w, .expired ((p.readAt o).map (·.isExpired now)))
  | .info key => w.withPartition key fun p => (w, .info p)
  | .cursor key o => w.withPartition key fun p =>
    let c := match o with
      | some o => Cursor.atOffset p o
      | none => Cursor.atLatest p
    ({ w with cursors := w.cursors ++ [c] }, .opened w.cursors.length c)
  | .tryNext i =>
    match w.cursors[i]? with
    | none => (w, .noSuchCursor i)
    | some c =>
      match w.topic.find? c.key with
      | none => (w, .noSuchCursor i)
      | some p =>
        let r := c.tryNext p
        ({ w with cursors := w.cursors.set i r.1 }, .next r.2 r.1.position)

end Workbench

end MessageBroker
