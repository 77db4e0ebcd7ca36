import MessageBroker.Clock
/-!
# Messages

A message as a partition stores it: its offset in the partition, the partition's key, its
sequence number in the topic, its content and, if it has a time to live, when it expires.

## Main definitions

* `Message`, `Message.isExpired`
-/

namespace MessageBroker

/-- A stored message. -/
structure Message where
  /-- Its position in its partition. -/
  offset : Nat
  /-- The key of its partition. -/
  partition : String
  /-- Its number among all messages of its topic, from `0`. -/
  sequence : Nat
  /-- The bytes published. -/
  content : List UInt8
  /-- When it expires, if it has a time to live. -/
  expiresAt : Option Instant
  deriving DecidableEq

/-- A message has expired at `now` when it has an expiry and that expiry is not after `now`. -/
def Message.isExpired (m : Message) (now : Instant) : Bool :=
  match m.expiresAt with
  | some e => decide (e ≤ now)
  | none => false

end MessageBroker
