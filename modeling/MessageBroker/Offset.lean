import MessageBroker.Text.Decimal
/-!
# Offsets

An offset is the position of a message in its partition: the number of messages appended to
the partition before it. Offsets are 64-bit unsigned on the wire; in the library they are
natural numbers. A read names either an exact offset or the latest message.

## Main definitions

* `OffsetSpec`: the latest message, or an exact offset
* `OffsetSpec.render`: `latest`, or the offset in decimal
* `nextOffset?`: the following offset, while it is still a 64-bit offset
-/

namespace MessageBroker

/-- Where a read looks: at the latest message, or at an exact offset. -/
inductive OffsetSpec where
  | latest
  | exactly (offset : Nat)
  deriving DecidableEq, Repr

/-- The text of a read position: `latest`, or the offset in decimal. -/
def OffsetSpec.render : OffsetSpec → String
  | .latest => "latest"
  | .exactly o => toString o

/-- The offset after `o`, while it is still below `2 ^ 64`. -/
def nextOffset? (o : Nat) : Option Nat :=
  if o < Text.u64Max then some (o + 1) else none

end MessageBroker
