import MessageBroker.Broker
/-!
# Client sessions

A session is one client talking to one broker: it publishes, reads, manages topics and holds
the subscriptions it opened, numbered from `0` in the order they were opened. A subscription
read as a stream is gone afterwards, like a dropped one; a number that names no live
subscription is answered as such.

## Main definitions

* `Session`, `Session.Request`, `Session.Answer`
* `Session.handle`: one request and its answer
-/

namespace MessageBroker

/-- A client of a broker, with its subscriptions by number. -/
structure Session where
  broker : Broker
  /-- The subscriptions opened so far; a dropped one leaves its number empty. -/
  subscriptions : List (Option Subscription)

namespace Session

/-- A session on a fresh broker. -/
def create (defaultPartitions : Nat) : Session :=
  ⟨Broker.create defaultPartitions, []⟩

/-- What a client asks. -/
inductive Request where
  | publish (r : PublishRequest)
  | get (topic : String)
  | explore (topic : String) (partition : Option String) (offset : Int)
  /-- a stored message with all it records, read from the storage itself under a checked name -/
  | inspect (topic : TopicName) (partition : Option String) (offset : Int)
  | reset (topic : String)
  | createTopic (topic : String) (keys : List String)
  | describe (topic : String)
  | listTopics
  | subscribe (topic : String)
  | next (sub : Nat)
  | drain (sub : Nat)
  | collect (sub : Nat)
  | cancel (sub : Nat)
  | state (sub : Nat)
  | drop (sub : Nat)
  | active
  /-- a publish straight to the broker under a checked name, with an optional span as time to
  live -/
  | publishDirect (topic : TopicName) (body : List UInt8) (key : Option String) (ttl : Option Span)

/-- What a session answers. -/
inductive Answer where
  | published (r : PublishResponse)
  | message (m : Message)
  | inspected (m : Message)
  | done
  | topic (info : TopicMetadata)
  | topics (names : List String)
  | subscribed (sub : Nat) (s : Subscription)
  | polled (d : Delivery) (state : SubscriptionState)
  | drained (ds : List Delivery) (state : SubscriptionState)
  /-- the stream's items, whether it ended, and the live subscriptions after it is dropped -/
  | collected (ds : List Delivery) (ended : Bool) (active : Nat)
  | state (state : SubscriptionState)
  | described (s : Subscription)
  | active (n : Nat)
  | publishedId (id : MessageId)
  | failed (e : BrokerError)
  | noSuchSubscription (sub : Nat)

/-- The live subscription under a number. -/
def subscription? (s : Session) (sub : Nat) : Option Subscription :=
  (s.subscriptions[sub]?).bind id

/-- Stores a subscription under its number. -/
def setSubscription (s : Session) (sub : Nat) (x : Option Subscription) : Session :=
  { s with subscriptions := s.subscriptions.set sub x }

/-- Serves a request on a live subscription. -/
def withSubscription (s : Session) (sub : Nat) (f : Subscription → Session × Answer) :
    Session × Answer :=
  match s.subscription? sub with
  | some x => f x
  | none => (s, .noSuchSubscription sub)

/-- Answers a broker result, keeping the session on failure. -/
def answer {α : Type} (s : Session) (r : Except BrokerError α) (f : α → Session × Answer) :
    Session × Answer :=
  match r with
  | .ok a => f a
  | .error e => (s, .failed e)

/-- Serves one request at the instant `now`. -/
def handle (s : Session) (now : Instant) : Request → Session × Answer
  | .publish r => s.answer (s.broker.publishRequest now r) fun p =>
      ({ s with broker := p.1 }, .published p.2)
  | .get topic => s.answer (s.broker.get topic) fun m => (s, .message m)
  | .explore topic partition offset =>
      s.answer (s.broker.explore topic partition offset) fun m => (s, .message m)
  | .inspect topic partition offset =>
      let r : Except BrokerError Message := do
        let spec ← OffsetSpec.ofInt offset
        match partition with
        | some k => s.broker.storage.explorePartition topic k spec
        | none => s.broker.storage.explore topic spec
      s.answer r fun m => (s, .inspected m)
  | .reset topic => s.answer (s.broker.resetTopic topic) fun b => ({ s with broker := b }, .done)
  | .createTopic topic keys => s.answer (s.broker.createTopic topic keys) fun p =>
      ({ s with broker := p.1 }, .topic p.2)
  | .describe topic => s.answer (s.broker.describe topic) fun m => (s, .topic m)
  | .listTopics => (s, .topics s.broker.listTopics)
  | .subscribe topic => s.answer (s.broker.subscribeTo topic) fun p =>
      ({ broker := p.1, subscriptions := s.subscriptions ++ [some p.2] },
        .subscribed s.subscriptions.length p.2)
  | .next sub => s.withSubscription sub fun x =>
      let r := x.next (s.broker.topicOf x)
      (s.setSubscription sub (some r.1), .polled r.2 r.1.state)
  | .drain sub => s.withSubscription sub fun x =>
      let r := x.drain (s.broker.topicOf x)
      (s.setSubscription sub (some r.1), .drained r.2 r.1.state)
  | .collect sub => s.withSubscription sub fun x =>
      let r := x.collect (s.broker.topicOf x)
      let s' := { s.setSubscription sub none with broker := s.broker.release }
      (s', .collected r.1 r.2 s'.broker.active)
  | .cancel sub => s.withSubscription sub fun x =>
      (s.setSubscription sub (some { x with cancelRequested := true }), .state x.state)
  | .state sub => s.withSubscription sub fun x => (s, .described x)
  | .drop sub => s.withSubscription sub fun _ =>
      let s' := { s.setSubscription sub none with broker := s.broker.release }
      (s', .active s'.broker.active)
  | .active => (s, .active s.broker.active)
  | .publishDirect topic body key ttl =>
      let r : Except BrokerError (Broker × MessageId) :=
        s.broker.publish now topic body key ttl
      s.answer r fun p => ({ s with broker := p.1 }, .publishedId p.2)

/-- Serves requests in order, collecting the answers. -/
def run (s : Session) (now : Instant) : List Request → Session × List Answer
  | [] => (s, [])
  | r :: rs =>
    let a := s.handle now r
    let rest := a.1.run now rs
    (rest.1, a.2 :: rest.2)

end Session

end MessageBroker
