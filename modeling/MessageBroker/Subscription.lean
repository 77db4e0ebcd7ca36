import MessageBroker.Log.Topic
import MessageBroker.Log.Cursor
/-!
# Subscriptions

A subscription follows every partition of a topic that existed when it was opened, with one
cursor per partition. Each poll tries the cursors in rotation, starting after the one that
delivered last, and delivers the first message found. A cursor that was chased past fails the
subscription. A cancelled subscription ends at its next poll, and an ended subscription is
closed by the poll after.

States: open, then streaming from the first poll; cancelled or failed when it ends; closed
after.

## Main definitions

* `SubscriptionState`, `Delivery`, `Subscription`
* `Subscription.pollCursors`, `Subscription.next`
* `Subscription.wakes`: whether the wait after a poll that found nothing returns at once
* `Subscription.drain`, `Subscription.collect`: polls until no message comes
-/

namespace MessageBroker

/-- The life of a subscription. -/
inductive SubscriptionState where
  | opened
  | streaming
  | cancelled
  | failed
  | closed
  deriving DecidableEq, Repr

/-- What one poll of a subscription gives. -/
inductive Delivery where
  /-- a message -/
  | message (m : Message)
  /-- the failure that ends the subscription -/
  | failure (e : BrokerError)
  /-- the end: nothing more will come -/
  | finished
  /-- nothing yet -/
  | pending
  deriving DecidableEq

/-- Whether a delivery is a message. -/
def Delivery.isMessage : Delivery → Bool
  | .message _ => true
  | _ => false

/-- A subscription to a topic. -/
structure Subscription where
  /-- The consumer id it was opened under. -/
  consumer : Nat
  topic : TopicName
  /-- One cursor per partition, in key order. -/
  cursors : List Cursor
  /-- The cursor the next poll tries first. -/
  nextCursor : Nat
  /-- Whether its cancellation was asked for. -/
  cancelRequested : Bool
  state : SubscriptionState

namespace Subscription

/-- Opens a subscription with its cursors. -/
def open_ (consumer : Nat) (topic : TopicName) (cursors : List Cursor) : Subscription :=
  ⟨consumer, topic, cursors, 0, false, .opened⟩

/-- The keys of the partitions it follows. -/
def partitions (s : Subscription) : List String := s.cursors.map (·.key)

/-- The read of one cursor in the topic's current partition of its key. -/
def tryCursor (t : Topic) (c : Cursor) : Cursor × Except BrokerError (Option Message) :=
  match t.find? c.key with
  | some p => c.tryNext p
  | none => (c, .ok none)

/-- Tries the cursors at `start + step` for each listed step, modulo `count`, until one gives
a message (answered with its index) or fails. -/
def pollSteps (t : Topic) (start count : Nat) :
    List Nat → List Cursor → List Cursor × Except BrokerError (Option (Message × Nat))
  | [], cs => (cs, .ok none)
  | step :: rest, cs =>
    let index := (start + step) % count
    match cs[index]? with
    | none => pollSteps t start count rest cs
    | some c =>
      let r := tryCursor t c
      let cs' := cs.set index r.1
      match r.2 with
      | .error e => (cs', .error e)
      | .ok (some m) => (cs', .ok (some (m, index)))
      | .ok none => pollSteps t start count rest cs'

/-- One round over the cursors in rotation from `nextCursor`: the first message found moves
the rotation past its cursor; a failure leaves the rotation where it is. -/
def pollCursors (s : Subscription) (t : Topic) : Subscription × Except BrokerError (Option Message) :=
  let count := s.cursors.length
  let r := pollSteps t s.nextCursor count (List.range count) s.cursors
  match r.2 with
  | .ok (some (m, index)) => ({ s with cursors := r.1, nextCursor := (index + 1) % count }, .ok (some m))
  | .ok none => ({ s with cursors := r.1 }, .ok none)
  | .error e => ({ s with cursors := r.1 }, .error e)

/-- One poll: an ended subscription closes and gives the end; an open one starts streaming; a
cancelled one ends; otherwise the cursors are polled, and a failure fails the subscription. -/
def next (s : Subscription) (t : Topic) : Subscription × Delivery :=
  match s.state with
  | .cancelled | .failed | .closed => ({ s with state := .closed }, .finished)
  | .opened | .streaming =>
    let s := { s with state := .streaming }
    if s.cancelRequested then ({ s with state := .cancelled }, .finished)
    else
      match s.pollCursors t with
      | (s', .ok (some m)) => (s', .message m)
      | (s', .ok none) => (s', .pending)
      | (s', .error e) => ({ s' with state := .failed }, .failure e)

/-- Whether the wait after a poll that found nothing returns at once: the cancellation was asked
for, or the watermark channel of some cursor's partition signals data at that cursor. With no
cursor, only a cancellation ends the wait. -/
def wakes (s : Subscription) (t : Topic) : Bool :=
  s.cancelRequested || s.cursors.any fun c =>
    match t.find? c.key with
    | some p => c.signalled p
    | none => false

/-- The messages still to come for the cursors: the sum, over the cursors, of the high watermark
of each one's partition less its position. -/
def backlog (s : Subscription) (t : Topic) : Nat :=
  (s.cursors.map fun c => ((t.find? c.key).map (·.highWatermark - c.position)).getD 0).foldr
    (· + ·) 0

/-- Polls at most `fuel` times, stopping after the first delivery that is not a message. -/
def drainFor (t : Topic) : Nat → Subscription → Subscription × List Delivery
  | 0, s => (s, [])
  | fuel + 1, s =>
    let r := s.next t
    if r.2.isMessage then
      let rest := drainFor t fuel r.1
      (rest.1, r.2 :: rest.2)
    else (r.1, [r.2])

/-- Polls until a delivery that is not a message, and includes it. Each message moves one
cursor forward, so the backlog plus one polls always reach that delivery. -/
def drain (s : Subscription) (t : Topic) : Subscription × List Delivery :=
  drainFor t (s.backlog t + 1) s

/-- Polls as a stream: messages and a failure are items; the stream stops at the end, or when
nothing is there yet. Answers the items and whether the stream ended. -/
def collectFor (t : Topic) : Nat → Subscription → List Delivery × Bool
  | 0, _ => ([], false)
  | fuel + 1, s =>
    match s.next t with
    | (_, .finished) => ([], true)
    | (_, .pending) => ([], false)
    | (s', d) =>
      let rest := collectFor t fuel s'
      (d :: rest.1, rest.2)

/-- The items of the subscription read as a stream, and whether the stream ended. A failure
is followed by the end, so the backlog plus two polls always reach the end or a wait. -/
def collect (s : Subscription) (t : Topic) : List Delivery × Bool :=
  collectFor t (s.backlog t + 2) s

end Subscription

end MessageBroker
