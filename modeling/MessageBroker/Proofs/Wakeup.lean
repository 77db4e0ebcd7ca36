import MessageBroker.Proofs.Rotation
/-!
# Wake-ups follow the log

A poll that finds nothing leaves the subscription waiting on the watermark channels of its
partitions: each append publishes the new high watermark there, and the wait of a cursor returns
once the channel holds a high watermark beyond its position. Readers decide from the log whether
there is something to read, waiters from the channel, so the two must never drift apart.

This module shows that they do not: in every partition reached by appends and resets, and in
every topic of every store reached from an empty one, the channel holds the high watermark. So
a cursor's wait returns exactly when it has something to read, its read then never finds
nothing, a call waits only when no cursor has anything to read, and the wait returns exactly
when the subscription is cancelled or some cursor has something to read.

## Main definitions

* `Topic.Signals`, `Storage.Signals`: every partition's channel holds its high watermark

## Main results

* `Partition.watermark_after`: along any appends and resets the channel holds the high watermark
* `Cursor.signalled_iff`: a cursor's wait returns exactly when it is below the high watermark
* `Storage.signals_runOps`: in a store reached from an empty one every topic signals
* `Subscription.wakes_iff`: a subscription's wait returns exactly when it is cancelled or a cursor
  has something to read
* `Subscription.next_eq_pending`: a call waits only when no cursor has anything to read
-/

namespace MessageBroker

/-! ## Partitions -/

namespace Partition

variable {p : Partition}

@[simp] theorem watermark_create (topic : TopicName) (key : String) :
    (create topic key).watermark = 0 := rfl

@[simp] theorem watermark_append (p : Partition) (s : Nat) (c : List UInt8)
    (e : Option Instant) : (p.append s c e).1.watermark = p.next + 1 := rfl

@[simp] theorem watermark_reset (p : Partition) : p.reset.1.watermark = p.watermark := rfl

/-- A call keeps the channel at the high watermark: an append moves both to the same place, a
reset moves neither. -/
theorem watermark_serve (h : p.watermark = p.highWatermark) (call : Call) :
    (p.serve call).1.watermark = (p.serve call).1.highWatermark := by
  cases call with
  | append e => rfl
  | reset => exact h

/-- **Along any appends and resets the channel holds the high watermark**, by induction on the
calls. -/
theorem watermark_after (h : p.watermark = p.highWatermark) (calls : List Call) :
    (p.after calls).watermark = (p.after calls).highWatermark := by
  induction calls generalizing p with
  | nil => exact h
  | cons call calls ih => exact ih (watermark_serve h call)

end Partition

/-! ## Cursors -/

namespace Cursor

variable {c : Cursor} {p : Partition}

/-- On a partition whose channel holds its high watermark, a cursor's wait returns exactly when
the cursor is below the high watermark. -/
theorem signalled_iff (h : p.watermark = p.highWatermark) :
    c.signalled p = true ↔ c.position < p.highWatermark := by
  rw [signalled, h, decide_eq_true_iff]

/-- An append that moves the high watermark past a cursor's position makes its wait return. -/
theorem signalled_append (p : Partition) (s : Nat) (d : List UInt8) (e : Option Instant)
    (h : c.position < (p.append s d e).1.highWatermark) : c.signalled (p.append s d e).1 = true :=
  (signalled_iff rfl).mpr h

/-- When a cursor's wait returns, its read finds a message or fails; it never finds nothing. -/
theorem tryNext_of_signalled {H : List Partition.Entry} (hp : p.Refines H)
    (h : p.watermark = p.highWatermark) (hs : c.signalled p = true) :
    (∃ m, (c.tryNext p).2 = .ok (some m)) ∨ ∃ e, (c.tryNext p).2 = .error e := by
  have hlt := (signalled_iff h).mp hs
  rcases tryNext_cases hp c with ⟨-, he⟩ | ⟨hw, -⟩ | ⟨-, -, m, -, hm⟩
  · exact .inr ⟨_, by rw [he]⟩
  · exact absurd hw (Nat.not_le.mpr hlt)
  · exact .inl ⟨m, by rw [hm]⟩

end Cursor

/-! ## Topics -/

namespace Topic

/-- **Every partition's channel holds its high watermark**: of every partition the topic has
made, bound in its map or not. -/
def Signals (t : Topic) : Prop :=
  ∀ p ∈ t.cells, p.watermark = p.highWatermark

variable {t : Topic}

theorem signals_create (name : TopicName) : (create name).Signals := by
  intro p hp
  simp only [create, List.mem_singleton] at hp
  rw [hp]
  rfl

theorem Signals.addPartition (h : t.Signals) (k : String) : (t.addPartition k).1.Signals := by
  unfold Topic.addPartition
  split
  · exact h
  · intro q hq
    rw [cells_makePartition, List.mem_append, List.mem_singleton] at hq
    rcases hq with hq | rfl
    · exact h q hq
    · rfl

theorem Signals.addPartitions (h : t.Signals) (keys : List String) :
    (keys.foldl (fun t k => (t.addPartition k).1) t).Signals := by
  induction keys generalizing t with
  | nil => exact h
  | cons k keys ih => exact ih (h.addPartition k)

theorem signals_withKeys (name : TopicName) (keys : List String) : (withKeys name keys).Signals :=
  (signals_create name).addPartitions keys

/-- An append replaces one partition by itself with one more message, whose channel it moves
with its high watermark. -/
theorem Signals.appendAt (h : t.Signals) (i : Nat) (c : List UInt8) (e : Option Instant) :
    (t.appendAt i c e).1.Signals := by
  cases hp : t.cells[i]? with
  | none =>
    unfold Topic.appendAt
    rw [hp]
    exact h
  | some p =>
    rw [appendAt_of_getElem? hp]
    intro q hq
    rcases mem_cells_update hq with hq | ⟨-, -, rfl⟩
    · exact h q hq
    · rfl

theorem Signals.target (h : t.Signals) (key : Option String) : (t.target key).1.Signals := by
  rcases target_cases (t := t) key with hr | ⟨k, -, hr⟩ <;> rw [hr]
  · exact h
  · rw [keyedPartition_fst]
    exact h.addPartition k

theorem Signals.route (h : t.Signals) (key : Option String) (c : List UInt8)
    (e : Option Instant) : (t.route key c e).1.Signals := by
  rw [route_eq_appendAt]
  exact (h.target key).appendAt _ c e

theorem Signals.reset (h : t.Signals) : t.reset.Signals := by
  intro q hq
  rcases mem_cells_reset hq with hq | ⟨p, hp, rfl⟩
  · exact h q hq
  · exact h p hp

end Topic

/-! ## Stores -/

namespace Storage

/-- **Every topic of the store signals.** -/
def Signals (s : Storage) : Prop :=
  ∀ name t, s.topic? name = some t → t.Signals

variable {s : Storage}

theorem signals_create (n : Nat) : (create n).Signals :=
  fun _ _ h => by simp [topic?_create] at h

theorem Signals.saveTarget (h : s.Signals) (name : TopicName) :
    (s.saveTarget name).Signals := by
  unfold Storage.saveTarget
  cases ht : s.topic? name with
  | none => exact Topic.signals_withKeys _ _
  | some t => exact h name t ht

/-- Every operation keeps the channels at the high watermarks: a save routes one message, a
creation adds empty partitions, and a reset moves no high watermark. -/
theorem Signals.apply (h : s.Signals) (op : Op) : (s.apply op).Signals := by
  intro name t' ht'
  rcases topic?_apply_cases (s := s) op name with
    ⟨-, hs⟩ | ⟨c, key, e, rfl, hs⟩ | ⟨keys, rfl, hs⟩ | ⟨rfl, hs⟩ <;> rw [hs] at ht'
  · exact h name t' ht'
  · cases ht'
    exact (h.saveTarget name).route key c e
  · cases ht'
    cases ht : s.topic? name with
    | none => exact (Topic.signals_create name).addPartitions keys
    | some t => exact (h name t ht).addPartitions keys
  · obtain ⟨t, ht, rfl⟩ := Option.map_eq_some_iff.mp ht'
    exact (h _ t ht).reset

theorem Signals.runOps (h : s.Signals) (ops : List Op) : (s.runOps ops).Signals := by
  induction ops generalizing s with
  | nil => exact h
  | cons op ops ih => exact ih (h.apply op)

/-- In every store reachable from an empty one, every topic signals. -/
theorem signals_runOps (n : Nat) (ops : List Op) : ((create n).runOps ops).Signals :=
  (signals_create n).runOps ops

end Storage

/-! ## Subscriptions -/

namespace Subscription

variable {s : Subscription} {t : Topic}

/-- On a topic that signals, a subscription's wait returns exactly when its cancellation was
asked for or one of its cursors is below its partition's high watermark. -/
theorem wakes_iff (h : t.Signals) :
    s.wakes t = true ↔ s.cancelRequested = true ∨
      ∃ c ∈ s.cursors, ∃ p, t.find? c.key = some p ∧ c.position < p.highWatermark := by
  unfold wakes
  rw [Bool.or_eq_true, List.any_eq_true]
  refine or_congr Iff.rfl (exists_congr fun c => and_congr Iff.rfl ?_)
  cases hp : t.find? c.key with
  | none => simp
  | some p => simp [Cursor.signalled_iff (h p (Topic.mem_cells_of_find? hp))]

/-- A call that waits found its subscription live and not cancelled, and a poll of its cursors
that found nothing; it leaves the subscription streaming and changes nothing else. -/
theorem next_eq_pending (h : (s.next t).2 = .pending) :
    s.cancelRequested = false ∧
      (({ s with state := .streaming } : Subscription).pollCursors t).2 = .ok none ∧
      (s.next t).1 = { s with state := .streaming } := by
  have hl : s.state = .opened ∨ s.state = .streaming := by
    cases hst : s.state <;> simp_all [next_of_ended]
  have hc : s.cancelRequested = false := by
    cases hc : s.cancelRequested
    · rfl
    · rw [next_of_cancelRequested hl hc] at h
      cases h
  have hcf := not_cancelRequested_streaming hc
  cases hr : ({ s with state := .streaming } : Subscription).pollCursors t with
  | mk s' r =>
    cases r with
    | ok o =>
      cases o with
      | some m =>
        rw [next_of_message hl hcf hr] at h
        cases h
      | none =>
        -- a poll that finds nothing changes nothing
        have hs' := pollCursors_of_none (s := { s with state := .streaming }) (t := t)
          (by rw [hr])
        rw [hr] at hs'
        rw [next_of_waiting hl hcf hr]
        exact ⟨hc, rfl, hs'⟩
    | error e =>
      rw [next_of_round_error hl hcf hr] at h
      cases h

/-- **A call waits only when there is nothing to read.** On a topic that refines its histories
and signals, a call that waits leaves the cursors where they were, all at or beyond their
partitions' high watermarks, and the wait it starts does not return at once. -/
theorem next_pending {hist : String → List Partition.Entry} (ht : t.Refines hist)
    (hs : t.Signals) (h : (s.next t).2 = .pending) :
    (s.next t).1.cursors = s.cursors ∧
      (∀ c ∈ s.cursors, ∀ p, t.find? c.key = some p → p.highWatermark ≤ c.position) ∧
      (s.next t).1.wakes t = false := by
  obtain ⟨hc, hpoll, hnext⟩ := next_eq_pending h
  have hall := (ht.pollCursors_eq_none_iff _).mp hpoll
  refine ⟨by rw [hnext], hall, Bool.eq_false_iff.mpr fun hw => ?_⟩
  rw [hnext] at hw
  rcases (wakes_iff hs).mp hw with hcr | ⟨c, hc', p, hp, hlt⟩
  · rw [hc] at hcr
    cases hcr
  · exact absurd (hall c hc' p hp) (Nat.not_le.mpr hlt)

/-- **The wake-up channel agrees with the log.**

* In every partition reached by appends and resets from its creation the channel holds the high
  watermark. A cursor's wait returns exactly when the cursor is below it, and then the cursor's
  read finds a message or fails, never nothing.
* Both start at `0`, an append moves both one past the old high watermark, and a reset moves
  neither.
* An append that moves the high watermark past a cursor's position makes the cursor's wait
  return.
* In every topic of every store reached from an empty one, a subscription's wait returns exactly
  when its cancellation was asked for or a cursor is below its partition's high watermark. A call
  waits only when every cursor is at or beyond its partition's high watermark; it then moves no
  cursor, and the wait it starts does not return at once.

The wait checks the channel's value before it sleeps, so a condition that holds already ends
it. -/
theorem wakeups_follow_the_log :
    (∀ (topic : TopicName) (key : String) (calls : List Partition.Call),
      let p := (Partition.create topic key).after calls
      p.watermark = p.highWatermark ∧
      ∀ c : Cursor, (c.signalled p = true ↔ c.position < p.highWatermark) ∧
        (c.signalled p = true →
          (∃ m, (c.tryNext p).2 = .ok (some m)) ∨ ∃ e, (c.tryNext p).2 = .error e)) ∧
    (∀ (topic : TopicName) (key : String),
      (Partition.create topic key).watermark = 0 ∧ (Partition.create topic key).highWatermark = 0) ∧
    (∀ (p : Partition) (seq : Nat) (d : List UInt8) (e : Option Instant),
      (p.append seq d e).1.watermark = p.highWatermark + 1 ∧
        (p.append seq d e).1.highWatermark = p.highWatermark + 1) ∧
    (∀ p : Partition,
      p.reset.1.watermark = p.watermark ∧ p.reset.1.highWatermark = p.highWatermark) ∧
    (∀ (p : Partition) (seq : Nat) (d : List UInt8) (e : Option Instant) (c : Cursor),
      c.position < (p.append seq d e).1.highWatermark → c.signalled (p.append seq d e).1 = true) ∧
    ∀ (n : Nat) (ops : List Storage.Op) (name : TopicName) (t : Topic),
      ((Storage.create n).runOps ops).topic? name = some t →
      (∀ s : Subscription, s.wakes t = true ↔ s.cancelRequested = true ∨
        ∃ c ∈ s.cursors, ∃ p, t.find? c.key = some p ∧ c.position < p.highWatermark) ∧
      ∀ s : Subscription, (s.next t).2 = .pending →
        (s.next t).1.cursors = s.cursors ∧
        (∀ c ∈ s.cursors, ∀ p, t.find? c.key = some p → p.highWatermark ≤ c.position) ∧
        (s.next t).1.wakes t = false := by
  refine ⟨fun topic key calls => ?_, fun _ _ => ⟨rfl, rfl⟩, fun _ _ _ _ => ⟨rfl, rfl⟩,
    fun _ => ⟨rfl, rfl⟩, fun p seq d e _ => Cursor.signalled_append p seq d e,
    fun n ops name t ht => ?_⟩
  · -- the partition refines the history of its appends, and its channel holds the watermark
    have hw := Partition.watermark_after (p := Partition.create topic key) rfl calls
    have hr := (Partition.refines_create topic key).after calls
    exact ⟨hw, fun c => ⟨Cursor.signalled_iff hw, Cursor.tryNext_of_signalled hr hw⟩⟩
  · obtain ⟨hist, hr⟩ := Storage.inv_runOps n ops name t ht
    have hs := Storage.signals_runOps n ops name t ht
    exact ⟨fun s => wakes_iff hs, fun s h => next_pending hr hs h⟩

/-- A subscription at the high watermark of a fresh topic waits, and its wait does not return;
once a message is saved to the topic, it does. -/
theorem fresh_subscription_waits_for_a_save :
    let name : TopicName := ⟨"orders", by decide⟩
    let s := open_ 1 name [⟨name, "", 0⟩]
    let t := Topic.create name
    let t' := ((Topic.create name).route none [1] none).1
    ((Storage.create 1).runOps [.createTopic name []]).topic? name = some t ∧
    ((Storage.create 1).runOps [.createTopic name [], .save name [1] none none]).topic? name =
      some t' ∧
    (s.next t).2 = .pending ∧
    ((s.next t).1.cursors = s.cursors ∧
      (∀ c ∈ s.cursors, ∀ p, t.find? c.key = some p → p.highWatermark ≤ c.position) ∧
      (s.next t).1.wakes t = false) ∧
    (s.next t).1.wakes t' = true := by
  intro name s t t'
  have h₁ : ((Storage.create 1).runOps [.createTopic name []]).topic? name = some t := rfl
  have h₂ : ((Storage.create 1).runOps [.createTopic name [], .save name [1] none none]).topic?
      name = some t' := rfl
  exact ⟨h₁, h₂, by decide, (wakeups_follow_the_log.2.2.2.2.2 1 _ name t h₁).2 s (by decide),
    ((wakeups_follow_the_log.2.2.2.2.2 1 _ name t' h₂).1 _).mpr
      (.inr ⟨⟨name, "", 0⟩, by decide, _, (Option.some_get (by decide)).symm, by decide⟩)⟩

end Subscription

end MessageBroker
