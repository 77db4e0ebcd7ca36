import MessageBroker.Proofs.Delivery
import MessageBroker.Proofs.MessageIdText
/-!
# Counting subscriptions

A broker hands out consumer ids from `1`, one per successful subscribe, and counts the
subscriptions that have not been dropped: a subscribe that succeeds counts one more, and dropping
a subscription, or reading it to its end as a stream, counts one less, whatever state it is in. A
subscribe to a missing topic fails and changes nothing.

A session keeps its subscriptions under the numbers they were opened with, and a dropped one
leaves its number empty. This module says what each request can do to those numbers and to the
broker's two counters (`Session.Effect`), states the bookkeeping that every session reachable from
a fresh one keeps (`Session.Accounted`), and reads off, for every run, the consumer ids of the
successful subscribes and the count of live subscriptions.

## Main definitions

* `Session.Answer.opened`: the subscription a successful subscribe answers
* `Session.Request.drops`: whether a request, with its answer, dropped a subscription
* `Session.Effect`: the four things a request can do to the subscriptions and the counters
* `Session.Accounted`: the counters agree with the subscriptions, and the ids with the numbers

## Main results

* `Session.handle_effect`: every request does one of the four
* `Session.Accounted.effect`, `Session.Accounted.run`: every step, and so every run, keeps the
  bookkeeping, counting the subscriptions opened and dropped on the way
* `Session.subscription_accounting`: the count and the ids after every run from a fresh session
-/

namespace MessageBroker

/-- A computation that succeeds after a bind succeeded at its first step. -/
theorem except_bind_eq_ok {ε α β : Type} {x : Except ε α} {f : α → Except ε β} {b : β}
    (h : x >>= f = .ok b) : ∃ a, x = .ok a ∧ f a = .ok b := by
  cases x with
  | error e => cases h
  | ok a => exact ⟨a, rfl, h⟩

/-! ## The counters of a broker -/

namespace Broker

variable {b : Broker} {now : Instant}

/-- The consumer counter and the count of live subscriptions of `b'` are those of `b`. -/
def SameCounts (b b' : Broker) : Prop :=
  b'.nextConsumer = b.nextConsumer ∧ b'.active = b.active

theorem sameCounts_storage (b : Broker) (st : Storage) : b.SameCounts { b with storage := st } :=
  ⟨rfl, rfl⟩

theorem publish_sameCounts {topic : TopicName} {c : List UInt8} {key : Option String}
    {ttl : Option Span} {p : Broker × MessageId} (h : b.publish now topic c key ttl = .ok p) :
    b.SameCounts p.1 := by
  cases ttl with
  | none =>
    rw [publish_none, Except.ok.injEq] at h
    exact h ▸ sameCounts_storage b _
  | some d =>
    rw [publish_some] at h
    cases he : expiryAfter now d with
    | error e => simp [he] at h
    | ok x =>
      simp only [he, Except.ok.injEq] at h
      exact h ▸ sameCounts_storage b _

theorem publishRequest_sameCounts {r : PublishRequest} {p : Broker × PublishResponse}
    (h : b.publishRequest now r = .ok p) : b.SameCounts p.1 := by
  -- an accepted request is one save, and a rejected one answers an error
  have hr : ¬ r.Rejected now := fun hrej => by
    obtain ⟨e, he⟩ := (publishRequest_eq_error_iff b now).mpr hrej
    rw [he] at h
    cases h
  obtain ⟨name, -, hok⟩ := publishRequest_of_accepted b now hr
  rw [hok, Except.ok.injEq] at h
  exact h ▸ sameCounts_storage b _

theorem resetTopic_sameCounts {topic : String} {b' : Broker} (h : b.resetTopic topic = .ok b') :
    b.SameCounts b' := by
  unfold resetTopic at h
  obtain ⟨t, -, h⟩ := except_bind_eq_ok h
  obtain ⟨st, -, h⟩ := except_bind_eq_ok h
  cases h
  exact sameCounts_storage b st

theorem createTopic_sameCounts {topic : String} {ks : List String} {p : Broker × TopicMetadata}
    (h : b.createTopic topic ks = .ok p) : b.SameCounts p.1 := by
  unfold createTopic at h
  obtain ⟨t, -, h⟩ := except_bind_eq_ok h
  obtain ⟨m, -, h⟩ := except_bind_eq_ok h
  cases h
  exact sameCounts_storage b _

/-- A subscribe opens a subscription under the next consumer id exactly when the topic exists,
and counts it. -/
theorem subscribe_eq (b : Broker) (name : TopicName) :
    b.subscribe name = match b.storage.topic? name with
      | some t => .ok ({ b with nextConsumer := b.nextConsumer + 1, active := b.active + 1 },
          Subscription.open_ b.nextConsumer name (t.partitions.map Cursor.atLatest))
      | none => .error (.topicNotFound name) := by
  unfold subscribe Storage.openCursors
  rw [Storage.topic_eq]
  cases b.storage.topic? name <;> rfl

theorem subscribeTo_eq_ok {topic : String} {p : Broker × Subscription}
    (h : b.subscribeTo topic = .ok p) :
    p.2.consumer = b.nextConsumer ∧ p.1.nextConsumer = b.nextConsumer + 1 ∧
      p.1.active = b.active + 1 := by
  unfold subscribeTo at h
  obtain ⟨t, -, h⟩ := except_bind_eq_ok h
  rw [subscribe_eq] at h
  -- only an existing topic is subscribed to
  split at h
  · cases h
    exact ⟨rfl, rfl, rfl⟩
  · cases h

end Broker

/-! ## Polls keep the consumer id -/

namespace Subscription

@[simp] theorem consumer_pollCursors (s : Subscription) (t : Topic) :
    (s.pollCursors t).1.consumer = s.consumer := by
  rcases pollCursors_cases s t with h | ⟨e, h⟩ | ⟨i, c, p, m, -, -, -, h⟩ <;> rw [h]

@[simp] theorem consumer_next (s : Subscription) (t : Topic) :
    (s.next t).1.consumer = s.consumer := by
  cases hst : s.state <;> simp only [next, hst]
  case opened | streaming =>
    split
    · rfl
    · split <;> rename_i h <;> simpa using (congrArg (·.1.consumer) h).symm

theorem consumer_drainFor (t : Topic) (fuel : Nat) (s : Subscription) :
    (drainFor t fuel s).1.consumer = s.consumer := by
  induction fuel generalizing s with
  | zero => rfl
  | succ fuel ih =>
    simp only [drainFor]
    split
    · rw [ih, consumer_next]
    · exact consumer_next s t

theorem consumer_drain (s : Subscription) (t : Topic) : (s.drain t).1.consumer = s.consumer :=
  consumer_drainFor t _ s

end Subscription

namespace Session

/-! ## What a request does to the subscriptions -/

/-- The subscription a successful subscribe answers. -/
def Answer.opened : Answer → Option Subscription
  | .subscribed _ x => some x
  | _ => none

/-- Whether serving a request with this answer dropped a subscription: a drop, or a read to the
end as a stream, of a live one. -/
def Request.drops : Request → Answer → Bool
  | .drop _, .active _ => true
  | .collect _, .collected .. => true
  | _, _ => false

theorem Request.drops_failed (req : Request) (e : BrokerError) : req.drops (.failed e) = false := by
  cases req <;> rfl

theorem Request.drops_subscribed (req : Request) (k : Nat) (x : Subscription) :
    req.drops (.subscribed k x) = false := by
  cases req <;> rfl

theorem Request.drops_noSuchSubscription (req : Request) (sub : Nat) :
    req.drops (.noSuchSubscription sub) = false := by
  cases req <;> rfl

/-- **The four things a request can do** to the subscriptions of a session and to the broker's
two counters: leave them; open a subscription under the next id and count it; replace a live
subscription by one of the same id; or drop a live subscription and count one less. Only a
subscribe answers a subscription, and only a drop answers that it dropped one. -/
inductive Effect (s : Session) (req : Request) : Session × Answer → Prop where
  | keeps {s' : Session} {a : Answer} : a.opened = none → req.drops a = false →
      s'.subscriptions = s.subscriptions → s.broker.SameCounts s'.broker → Effect s req (s', a)
  | opens {s' : Session} {x : Subscription} : x.consumer = s.broker.nextConsumer →
      s'.subscriptions = s.subscriptions ++ [some x] →
      s'.broker.nextConsumer = s.broker.nextConsumer + 1 →
      s'.broker.active = s.broker.active + 1 →
      Effect s req (s', .subscribed s.subscriptions.length x)
  | polls {s' : Session} {a : Answer} {i : Nat} {x y : Subscription} :
      s.subscriptions[i]? = some (some x) → a.opened = none → req.drops a = false →
      y.consumer = x.consumer → s'.subscriptions = s.subscriptions.set i (some y) →
      s.broker.SameCounts s'.broker → Effect s req (s', a)
  | drops {s' : Session} {a : Answer} {i : Nat} {x : Subscription} :
      s.subscriptions[i]? = some (some x) → a.opened = none → req.drops a = true →
      s'.subscriptions = s.subscriptions.set i none →
      s'.broker.nextConsumer = s.broker.nextConsumer → s'.broker.active = s.broker.active - 1 →
      Effect s req (s', a)

variable {s : Session} {req : Request}

theorem subscription?_eq_some {sub : Nat} {x : Subscription} :
    s.subscription? sub = some x ↔ s.subscriptions[sub]? = some (some x) := by
  unfold subscription?
  cases s.subscriptions[sub]? <;> simp

theorem effect_self {a : Answer} (ha : a.opened = none) (hd : req.drops a = false) :
    s.Effect req (s, a) :=
  .keeps ha hd rfl ⟨rfl, rfl⟩

/-- A broker call that keeps the subscriptions when it succeeds keeps them when it fails too. -/
theorem effect_answer {α : Type} {r : Except BrokerError α} {f : α → Session × Answer}
    (hf : ∀ a, r = .ok a → s.Effect req (f a)) : s.Effect req (s.answer r f) := by
  cases r with
  | ok a => exact hf a rfl
  | error e => exact effect_self rfl (req.drops_failed e)

theorem effect_withSubscription {sub : Nat} {f : Subscription → Session × Answer}
    (hf : ∀ x, s.subscriptions[sub]? = some (some x) → s.Effect req (f x)) :
    s.Effect req (s.withSubscription sub f) := by
  unfold withSubscription
  cases hx : s.subscription? sub with
  | none => exact effect_self rfl (req.drops_noSuchSubscription sub)
  | some x => exact hf x (subscription?_eq_some.mp hx)

/-- Replacing a live subscription by one of the same id, the broker left as it is. -/
theorem effect_replace {sub : Nat} {x y : Subscription} {a : Answer}
    (hx : s.subscriptions[sub]? = some (some x)) (ha : a.opened = none)
    (hd : req.drops a = false) (hy : y.consumer = x.consumer) :
    s.Effect req (s.setSubscription sub (some y), a) :=
  .polls hx ha hd hy rfl ⟨rfl, rfl⟩

/-- Dropping a live subscription, with the broker counting one less. -/
theorem effect_release {sub : Nat} {x : Subscription} {a : Answer}
    (hx : s.subscriptions[sub]? = some (some x)) (ha : a.opened = none) (hd : req.drops a = true) :
    s.Effect req ({ s.setSubscription sub none with broker := s.broker.release }, a) :=
  .drops hx ha hd rfl rfl rfl

/-- **Every request does one of the four.** -/
theorem handle_effect (s : Session) (now : Instant) (req : Request) :
    s.Effect req (s.handle now req) := by
  cases req with
  | publish r =>
    exact effect_answer fun p hp => .keeps rfl rfl rfl (Broker.publishRequest_sameCounts hp)
  | get topic => exact effect_answer fun _ _ => effect_self rfl rfl
  | explore topic partition offset => exact effect_answer fun _ _ => effect_self rfl rfl
  | inspect topic partition offset => exact effect_answer fun _ _ => effect_self rfl rfl
  | reset topic =>
    exact effect_answer fun b hb => .keeps rfl rfl rfl (Broker.resetTopic_sameCounts hb)
  | createTopic topic keys =>
    exact effect_answer fun p hp => .keeps rfl rfl rfl (Broker.createTopic_sameCounts hp)
  | describe topic => exact effect_answer fun _ _ => effect_self rfl rfl
  | listTopics => exact effect_self rfl rfl
  | subscribe topic =>
    refine effect_answer fun p hp => ?_
    obtain ⟨hc, hn, ha⟩ := Broker.subscribeTo_eq_ok hp
    exact .opens hc rfl hn ha
  | next sub => exact effect_withSubscription fun x hx => effect_replace hx rfl rfl (by simp)
  | drain sub =>
    exact effect_withSubscription fun x hx =>
      effect_replace hx rfl rfl (Subscription.consumer_drain x _)
  | collect sub => exact effect_withSubscription fun x hx => effect_release hx rfl rfl
  | cancel sub => exact effect_withSubscription fun x hx => effect_replace hx rfl rfl rfl
  | state sub => exact effect_withSubscription fun _ _ => effect_self rfl rfl
  | drop sub => exact effect_withSubscription fun x hx => effect_release hx rfl rfl
  | active => exact effect_self rfl rfl
  | publishDirect topic body key ttl =>
    exact effect_answer fun p hp => .keeps rfl rfl rfl (Broker.publish_sameCounts hp)

/-! ## The bookkeeping of a session -/

/-- **The bookkeeping of a session**: the next consumer id is one more than the number of
subscriptions opened, the live ones and the dropped ones together make up that number, and the
subscription under each number has the consumer id one more than it. -/
structure Accounted (s : Session) : Prop where
  nextConsumer_eq : s.broker.nextConsumer = s.subscriptions.length + 1
  active_add_dropped : s.broker.active + s.subscriptions.countP (·.isNone) = s.subscriptions.length
  consumer_eq : ∀ i x, s.subscriptions[i]? = some (some x) → x.consumer = i + 1

theorem accounted_create (n : Nat) : (create n).Accounted where
  nextConsumer_eq := rfl
  active_add_dropped := rfl
  consumer_eq _ _ h := by simp [create] at h

/-- A live subscription sits at a number below the length, and is not counted as dropped. -/
theorem countP_isNone_set {l : List (Option Subscription)} {i : Nat} {x : Subscription}
    (hx : l[i]? = some (some x)) (y : Option Subscription) :
    (l.set i y).countP (·.isNone) = l.countP (·.isNone) + if y.isNone then 1 else 0 := by
  obtain ⟨hi, hxi⟩ := List.getElem?_eq_some_iff.mp hx
  rw [List.countP_set hi, hxi]
  simp

/-- Replacing a live entry by one of the same consumer, or emptying it, keeps every entry at
its number. -/
theorem consumer_eq_set {l : List (Option Subscription)}
    (hl : ∀ i x, l[i]? = some (some x) → x.consumer = i + 1) {i : Nat} {x : Subscription}
    (hx : l[i]? = some (some x)) {y : Option Subscription}
    (hy : ∀ z ∈ y, z.consumer = x.consumer) :
    ∀ j z, (l.set i y)[j]? = some (some z) → z.consumer = j + 1 := by
  intro j z hz
  rw [List.getElem?_set] at hz
  split_ifs at hz with hij
  · obtain rfl := hij
    cases hz
    rw [hy z rfl]
    exact hl i x hx
  · exact hl j z hz

/-- While a subscription is live, the broker counts it. -/
theorem Accounted.active_pos (h : s.Accounted) {i : Nat} {x : Subscription}
    (hx : s.subscriptions[i]? = some (some x)) : 0 < s.broker.active := by
  -- emptying its number would count one more dropped, and no more than all are dropped
  have hle := List.countP_le_length (p := (·.isNone)) (l := s.subscriptions.set i none)
  rw [countP_isNone_set hx, List.length_set, Option.isNone_none, if_pos rfl] at hle
  have := h.active_add_dropped
  omega

/-- **One step keeps the bookkeeping.** -/
theorem Accounted.effect {r : Session × Answer} (h : s.Accounted) (he : s.Effect req r) :
    r.1.Accounted := by
  cases he with
  | keeps _ _ hsub hc =>
    exact ⟨hc.1 ▸ hsub ▸ h.nextConsumer_eq, hc.2 ▸ hsub ▸ h.active_add_dropped,
      hsub ▸ h.consumer_eq⟩
  | @opens s' x hx hsub hn ha =>
    refine ⟨by rw [hn, hsub, h.nextConsumer_eq, List.length_append, List.length_singleton], ?_,
      fun i y hy => ?_⟩
    · rw [ha, hsub, List.countP_append, List.length_append, ← h.active_add_dropped]
      simp
      omega
    · -- below the old length the numbers are as they were; at it sits the new subscription
      rw [hsub] at hy
      rcases Nat.lt_or_ge i s.subscriptions.length with hi | hi
      · rw [List.getElem?_append_left hi] at hy
        exact h.consumer_eq i y hy
      · rw [List.getElem?_append_right hi] at hy
        obtain ⟨h0, rfl⟩ : i - s.subscriptions.length = 0 ∧ x = y := by
          simpa [List.getElem?_cons] using hy
        rw [hx, h.nextConsumer_eq]
        omega
  | @polls s' a i x y hx _ _ hy hsub hc =>
    refine ⟨by rw [hc.1, hsub, List.length_set, h.nextConsumer_eq], ?_, ?_⟩
    · rw [hc.2, hsub, List.length_set, countP_isNone_set hx, ← h.active_add_dropped]
      simp
    · rw [hsub]
      exact consumer_eq_set h.consumer_eq hx fun z hz => by cases hz; exact hy
  | @drops s' a i x hx _ _ hsub hn ha =>
    have hpos := h.active_pos hx
    refine ⟨by rw [hn, hsub, List.length_set, h.nextConsumer_eq], ?_, ?_⟩
    · rw [ha, hsub, List.length_set, countP_isNone_set hx, ← h.active_add_dropped]
      simp
      omega
    · rw [hsub]
      exact consumer_eq_set h.consumer_eq hx fun z hz => by cases hz

/-- A step opens one subscription or none. -/
theorem Effect.length_eq {r : Session × Answer} (he : s.Effect req r) :
    r.1.subscriptions.length = s.subscriptions.length + if r.2.opened.isSome then 1 else 0 := by
  cases he with
  | keeps ho _ hsub => simp [hsub, ho]
  | opens _ hsub => simp [hsub, Answer.opened]
  | polls _ ho _ _ hsub => simp [hsub, ho]
  | drops _ ho _ hsub => simp [hsub, ho]

/-- A step drops one subscription exactly when it says so. -/
theorem Effect.countP_isNone {r : Session × Answer} (he : s.Effect req r) :
    r.1.subscriptions.countP (·.isNone) =
      s.subscriptions.countP (·.isNone) + if req.drops r.2 then 1 else 0 := by
  cases he with
  | keeps _ hd hsub => simp [hsub, hd]
  | opens _ hsub => simp [hsub, Request.drops_subscribed]
  | polls hx _ hd _ hsub => simp [hsub, hd, countP_isNone_set hx]
  | drops hx _ hd hsub => simp [hsub, hd, countP_isNone_set hx]

/-- The subscription a step opens has the consumer id one more than the number opened before. -/
theorem Accounted.consumer_opened {r : Session × Answer} (h : s.Accounted) (he : s.Effect req r)
    {x : Subscription} (hx : r.2.opened = some x) : x.consumer = s.subscriptions.length + 1 := by
  cases he with
  | keeps ho => simp [ho] at hx
  | opens hc =>
    cases hx
    rw [hc, h.nextConsumer_eq]
  | polls _ ho => simp [ho] at hx
  | drops _ ho => simp [ho] at hx

theorem run_cons (s : Session) (now : Instant) (req : Request) (rs : List Request) :
    s.run now (req :: rs) =
      (((s.handle now req).1.run now rs).1,
        (s.handle now req).2 :: ((s.handle now req).1.run now rs).2) := rfl

/-- **Every run keeps the bookkeeping**, by induction on the requests, one step at a time: the
subscriptions it answers are the ones it adds, numbered on from those there were with ids one
more than their numbers, and the numbers it empties are the drops it reports. -/
theorem Accounted.run (h : s.Accounted) (now : Instant) (rs : List Request) :
    let r := s.run now rs
    r.1.Accounted ∧
      r.1.subscriptions.length = s.subscriptions.length + (r.2.filterMap Answer.opened).length ∧
      r.1.subscriptions.countP (·.isNone) =
        s.subscriptions.countP (·.isNone) + (rs.zip r.2).countP (fun q => q.1.drops q.2) ∧
      (r.2.filterMap Answer.opened).map (·.consumer) =
        List.range' (s.subscriptions.length + 1) (r.2.filterMap Answer.opened).length := by
  induction rs generalizing s with
  | nil => simp [Session.run, h]
  | cons req rs ih =>
    have he := handle_effect s now req
    obtain ⟨hacc, hlen, hcount, hids⟩ := ih (h.effect he)
    refine ⟨hacc, ?_, ?_, ?_⟩ <;> rw [run_cons]
    · rw [hlen, he.length_eq, List.filterMap_cons]
      cases (s.handle now req).2.opened <;> simp
      omega
    · simp only [List.zip_cons_cons, List.countP_cons, hcount, he.countP_isNone]
      omega
    · rw [List.filterMap_cons]
      cases ho : (s.handle now req).2.opened with
      | none =>
        rw [hids, he.length_eq, ho]
        rfl
      | some x =>
        rw [List.map_cons, hids, he.length_eq, ho, h.consumer_opened he ho, List.length_cons,
          List.range'_succ]
        rfl

/-! ## Subscribing and dropping -/

/-- A subscribe that fails leaves the session as it was. -/
theorem handle_subscribe_of_failed {now : Instant} {topic : String} {e : BrokerError}
    (h : (s.handle now (.subscribe topic)).2 = .failed e) :
    (s.handle now (.subscribe topic)).1 = s := by
  simp only [handle, answer] at h ⊢
  split
  · rename_i hs
    simp [hs] at h
  · rfl

/-- A subscribe by the name of a topic fails with the topic unknown exactly when it is missing. -/
theorem handle_subscribe_val_eq_failed_iff (now : Instant) (t : TopicName) :
    (s.handle now (.subscribe t.val)).2 = .failed (.topicNotFound t) ↔
      s.broker.storage.topic? t = none := by
  simp only [handle, answer, Broker.subscribeTo, TopicName.parse_val, bind, Except.bind,
    Broker.subscribe_eq]
  cases s.broker.storage.topic? t <;> simp

/-- **Dropping a live subscription counts one less**, whatever state the subscription is in. -/
theorem Accounted.handle_drop (h : s.Accounted) (now : Instant) {i : Nat} {x : Subscription}
    (hx : s.subscription? i = some x) :
    (s.handle now (.drop i)).1.broker.active + 1 = s.broker.active := by
  have hpos := h.active_pos (subscription?_eq_some.mp hx)
  simp only [handle, withSubscription, hx, Broker.release]
  omega

/-- **Subscription accounting**, along every run of requests on a fresh session. The successful
subscribes got the consumer ids `1`, `2`, … in order, one each, and no other request spent one;
the live subscriptions and those dropped (by a drop, or by a read to the end as a stream) make
up the subscriptions opened. From there, a subscribe that fails changes nothing, a subscribe by
the name of a topic fails with the topic unknown exactly when the topic is missing, and dropping
a live subscription counts one less, whatever state it is in. -/
theorem subscription_accounting (n : Nat) (now : Instant) (rs : List Request) :
    let r := (create n).run now rs
    let opened := r.2.filterMap Answer.opened
    r.1.broker.active + (rs.zip r.2).countP (fun q => q.1.drops q.2) = opened.length ∧
    opened.map (·.consumer) = List.range' 1 opened.length ∧
    r.1.broker.nextConsumer = opened.length + 1 ∧
    (∀ topic e, (r.1.handle now (.subscribe topic)).2 = .failed e →
      (r.1.handle now (.subscribe topic)).1 = r.1) ∧
    (∀ t : TopicName, (r.1.handle now (.subscribe t.val)).2 = .failed (.topicNotFound t) ↔
      r.1.broker.storage.topic? t = none) ∧
    (∀ i x, r.1.subscription? i = some x →
      (r.1.handle now (.drop i)).1.broker.active + 1 = r.1.broker.active) := by
  dsimp only
  -- a fresh session has no subscription, so the run counts everything from zero
  have hnil : (create n).subscriptions = [] := rfl
  obtain ⟨hacc, hlen, hcount, hids⟩ := (accounted_create n).run now rs
  rw [hnil, List.length_nil, Nat.zero_add] at hlen hids
  rw [hnil, List.countP_nil, Nat.zero_add] at hcount
  refine ⟨?_, hids, by rw [hacc.nextConsumer_eq, hlen],
    fun _ _ hf => handle_subscribe_of_failed hf, fun t => handle_subscribe_val_eq_failed_iff now t,
    fun i x hx => hacc.handle_drop now hx⟩
  rw [← hcount, hacc.active_add_dropped, hlen]

end Session

end MessageBroker
