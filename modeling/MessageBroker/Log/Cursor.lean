import MessageBroker.Log.Partition
import MessageBroker.Error
/-!
# Cursors

A cursor reads one partition from a position on. Reading the message at its position moves it
past that message; at the high watermark it waits; below the partition's start it fails, and
stays where it is. A cursor that waits for data watches the partition's watermark channel, not
its log: the wait is over once the channel holds a high watermark beyond the cursor.

## Main definitions

* `Cursor`, `Cursor.atLatest`, `Cursor.tryNext`
* `Cursor.signalled`: the condition a wait for data returns on
-/

namespace MessageBroker

/-- A reading position in a partition. -/
structure Cursor where
  topic : TopicName
  key : String
  position : Nat
  deriving DecidableEq

namespace Cursor

/-- A cursor at the high watermark of a partition: it sees only what comes after. -/
def atLatest (p : Partition) : Cursor := ⟨p.topic, p.key, p.highWatermark⟩

/-- A cursor at a given position of a partition. -/
def atOffset (p : Partition) (position : Nat) : Cursor := ⟨p.topic, p.key, position⟩

/-- Reads at the cursor's position in `p`: the message, moving past it; nothing yet; or a
failure for a position below the start. -/
def tryNext (c : Cursor) (p : Partition) : Cursor × Except BrokerError (Option Message) :=
  match p.read c.position with
  | .ready m => ({ c with position := m.offset + 1 }, .ok (some m))
  | .pending => (c, .ok none)
  | .chasedPast _ => (c, .error (.offsetNotFound c.topic (.exactly c.position)))

/-- The condition a wait for data returns on: the watermark channel of `p` holds a high
watermark beyond the cursor's position. The channel's value is checked before any waiting, so a
wait whose condition holds already returns at once. -/
def signalled (c : Cursor) (p : Partition) : Bool := decide (c.position < p.watermark)

end Cursor

end MessageBroker
