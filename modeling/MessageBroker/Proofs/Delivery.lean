import MessageBroker.Broker
import MessageBroker.Proofs.StoreRun
/-!
# Delivery to a subscription

A subscription opens one cursor per partition its topic has, each at that partition's high
watermark, and each poll tries the cursors in rotation until one reads a message. This module
shows that a poll moves at most one cursor, by exactly one offset, and only past the message it
delivers; and that, along any run of store operations and polls after the subscription opened,
what it delivered from each of its partitions is a prefix of what was saved to that partition
since, which starts at the watermark and has no gap.

## Main definitions

* `Delivery.messageIn`: the message of a delivery from one partition
* `Storage.savedTo`: the message an operation saves to a topic
* `Watch`, `Watch.step`, `Watch.run`: a subscription along a run of store operations and polls
* `Watch.Inv`: the invariant of such a run, against the histories of the topic

## Main results

* `Subscription.pollSteps_cases`, `Subscription.next_cases`: a poll moves at most one cursor
* `Watch.Inv.step`, `Watch.Inv.run`: every step, and so every run, keeps the invariant
* `Watch.subscription_delivers_each_once_in_order`: no loss, no repeat, per-partition order
-/

namespace MessageBroker

/-! ## One poll -/

namespace Subscription

/-- A cursor read finds nothing and stays, fails and stays, or reads the ready message at its
position and moves past it. -/
theorem tryCursor_cases (t : Topic) (c : Cursor) :
    tryCursor t c = (c, .ok none) ∨ (∃ e, tryCursor t c = (c, .error e)) ∨
      ∃ p m, t.find? c.key = some p ∧ p.read c.position = .ready m ∧
        tryCursor t c = ({ c with position := m.offset + 1 }, .ok (some m)) := by
  unfold tryCursor
  cases hp : t.find? c.key with
  | none => exact .inl rfl
  | some p =>
    dsimp only
    unfold Cursor.tryNext
    cases hr : p.read c.position with
    | ready m => exact .inr (.inr ⟨p, m, rfl, hr, rfl⟩)
    | pending => exact .inl rfl
    | chasedPast s => exact .inr (.inl ⟨_, rfl⟩)

theorem set_of_getElem? {cs : List Cursor} {i : Nat} {c : Cursor} (hc : cs[i]? = some c) :
    cs.set i c = cs := by
  obtain ⟨hi, rfl⟩ := List.getElem?_eq_some_iff.mp hc
  exact List.set_getElem_self hi

/-- **A round of cursor reads moves at most one cursor.** It finds nothing, or fails, and
leaves the cursors as they were; or one cursor reads the ready message at its position, moves
past it, and the round stops there. -/
theorem pollSteps_cases (t : Topic) (start count : Nat) (steps : List Nat) (cs : List Cursor) :
    pollSteps t start count steps cs = (cs, .ok none) ∨
      (∃ e, pollSteps t start count steps cs = (cs, .error e)) ∨
      ∃ i c p m, cs[i]? = some c ∧ t.find? c.key = some p ∧ p.read c.position = .ready m ∧
        pollSteps t start count steps cs =
          (cs.set i { c with position := m.offset + 1 }, .ok (some (m, i))) := by
  induction steps with
  | nil => exact .inl rfl
  | cons step rest ih =>
    unfold pollSteps
    dsimp only
    split
    · exact ih
    · rename_i c hc
      rcases tryCursor_cases t c with h | ⟨e, h⟩ | ⟨p, m, hp, hm, h⟩
      · -- nothing at this cursor: it stays, and the round goes on
        simp only [h, set_of_getElem? hc]
        exact ih
      · simp only [h, set_of_getElem? hc]
        exact .inr (.inl ⟨e, rfl⟩)
      · simp only [h]
        exact .inr (.inr ⟨_, c, p, m, hc, hp, hm, rfl⟩)

/-- One round over the cursors from the rotation's start: the subscription stays as it was, or
one cursor moves past the message it read and the rotation moves past that cursor. -/
theorem pollCursors_cases (s : Subscription) (t : Topic) :
    s.pollCursors t = (s, .ok none) ∨ (∃ e, s.pollCursors t = (s, .error e)) ∨
      ∃ i c p m, s.cursors[i]? = some c ∧ t.find? c.key = some p ∧
        p.read c.position = .ready m ∧
        s.pollCursors t = ({ s with
          cursors := s.cursors.set i { c with position := m.offset + 1 },
          nextCursor := (i + 1) % s.cursors.length }, .ok (some m)) := by
  unfold pollCursors
  rcases pollSteps_cases t s.nextCursor s.cursors.length (List.range s.cursors.length)
      s.cursors with h | ⟨e, h⟩ | ⟨i, c, p, m, hc, hp, hm, h⟩
  · exact .inl (by simp only [h])
  · exact .inr (.inl ⟨e, by simp only [h]⟩)
  · exact .inr (.inr ⟨i, c, p, m, hc, hp, hm, by simp only [h]⟩)

@[simp] theorem topic_pollCursors (s : Subscription) (t : Topic) :
    (s.pollCursors t).1.topic = s.topic := by
  rcases pollCursors_cases s t with h | ⟨e, h⟩ | ⟨i, c, p, m, -, -, -, h⟩ <;> rw [h]

@[simp] theorem topic_next (s : Subscription) (t : Topic) : (s.next t).1.topic = s.topic := by
  cases hst : s.state <;> simp only [next, hst]
  case opened | streaming =>
    split
    · rfl
    · split <;> rename_i h <;> simpa using (congrArg (·.1.topic) h).symm

/-- **A poll moves at most one cursor, by one message.** Either the cursors stay and no message
is delivered, or the cursor at one index reads the ready message at its position, moves past
it, and that message is delivered. -/
theorem next_cases (s : Subscription) (t : Topic) :
    ((s.next t).1.cursors = s.cursors ∧ ∀ m, (s.next t).2 ≠ .message m) ∨
      ∃ i c p m, s.cursors[i]? = some c ∧ t.find? c.key = some p ∧
        p.read c.position = .ready m ∧
        (s.next t).1.cursors = s.cursors.set i { c with position := m.offset + 1 } ∧
        (s.next t).2 = .message m := by
  cases hst : s.state <;> simp only [next, hst]
  -- an ended subscription only closes
  case cancelled | failed | closed => exact .inl ⟨by simp, fun m => by simp⟩
  -- a live one ends if it was cancelled, and is polled otherwise
  case opened | streaming =>
    split
    · exact .inl ⟨by simp, fun m => by simp⟩
    · rcases pollCursors_cases { s with state := .streaming } t with
        h | ⟨e, h⟩ | ⟨i, c, p, m, hc, hp, hm, h⟩
      · exact .inl ⟨by simp only [h], fun m => by simp only [h]; simp⟩
      · exact .inl ⟨by simp only [h], fun m => by simp only [h]; simp⟩
      · exact .inr ⟨i, c, p, m, hc, hp, hm, by simp only [h], by simp only [h]⟩

end Subscription

/-! ## Opening a subscription -/

/-- A subscription opens on a topic that exists, with one cursor at the high watermark of each
of its partitions, and leaves the store as it was. -/
theorem Broker.subscribe_eq_ok {b b₁ : Broker} {name : TopicName} {S : Subscription}
    (h : b.subscribe name = .ok (b₁, S)) :
    ∃ t, b.storage.topic? name = some t ∧ b₁.storage = b.storage ∧
      S = Subscription.open_ b.nextConsumer name (t.partitions.map Cursor.atLatest) := by
  unfold Broker.subscribe Storage.openCursors at h
  rw [Storage.topic_eq] at h
  cases ht : b.storage.topic? name with
  | none => simp [ht, bind, Except.bind] at h
  | some t =>
    simp only [ht, bind, Except.bind, pure, Except.pure, Except.ok.injEq, Prod.mk.injEq] at h
    obtain ⟨rfl, rfl⟩ := h
    exact ⟨t, rfl, rfl, rfl⟩

/-! ## A subscription along a run -/

/-- The message of a delivery, when it is one from the partition under `key`. -/
def Delivery.messageIn (key : String) : Delivery → Option Message
  | .message m => if m.partition = key then some m else none
  | _ => none

/-- The message an operation saves to the topic of `name`: a save to it stores its content and
expiry at the partition and offset it answers, numbered by the topic's counter. -/
def Storage.savedTo (s : Storage) (name : TopicName) : Storage.Op → List Message
  | .save n c key e =>
    if n = name then
      [⟨(s.save n c key e).2.offset, (s.save n c key e).2.partition, s.sequenceOf n, c, e⟩]
    else []
  | _ => []

/-- What happens around a subscription: a change to the store, or a poll. -/
inductive Event where
  | change (op : Storage.Op)
  | poll

/-- A subscription with the broker it reads from, the deliveries of its polls so far, and the
messages saved to its topic since it opened, oldest first. -/
structure Watch where
  broker : Broker
  sub : Subscription
  delivered : List Delivery
  written : List Message

namespace Watch

/-- One event: a change applies to the store and records what it saved to the subscription's
topic; a poll reads the topic as the store holds it and records the delivery. -/
def step (w : Watch) : Event → Watch
  | .change op => { w with
      broker := { w.broker with storage := w.broker.storage.apply op }
      written := w.written ++ w.broker.storage.savedTo w.sub.topic op }
  | .poll =>
    let r := w.sub.next (w.broker.topicOf w.sub)
    { w with sub := r.1, delivered := w.delivered ++ [r.2] }

/-- A run of events. -/
def run (w : Watch) (evs : List Event) : Watch :=
  evs.foldl step w

@[simp] theorem run_nil (w : Watch) : w.run [] = w := rfl

@[simp] theorem run_cons (w : Watch) (ev : Event) (evs : List Event) :
    w.run (ev :: evs) = (w.step ev).run evs := rfl

/-- **The invariant of a subscription along a run.** `ps` are the partitions its topic had when
it opened, `hist` the histories the topic refines now and `pos` the cursor of each key. The
subscription reads the topic of `name`, which is stored and refines `hist`; it has one cursor
per partition of `ps`, in order, between the partition's high watermark then and the end of its
history now; what it delivered from a partition is the window of the history from that
watermark up to the cursor; what was saved to the partition since is the history from the
watermark on; and every message it delivered came from a partition of `ps`. -/
structure Inv (w : Watch) (name : TopicName) (ps : List Partition)
    (hist : String → List Partition.Entry) (pos : String → Nat) : Prop where
  topic_eq : w.sub.topic = name
  refines : ∃ T, w.broker.storage.topic? name = some T ∧ T.Refines hist
  nodup : (ps.map (·.key)).Nodup
  cursors_eq : w.sub.cursors = ps.map fun p => Cursor.atOffset p (pos p.key)
  bounds : ∀ p ∈ ps, p.highWatermark ≤ pos p.key ∧ pos p.key ≤ (hist p.key).length
  delivered_eq : ∀ p ∈ ps, w.delivered.filterMap (Delivery.messageIn p.key) =
    ((Partition.stamped p.key (hist p.key)).take (pos p.key)).drop p.highWatermark
  written_eq : ∀ p ∈ ps,
    w.written.filter (·.partition = p.key) =
      (Partition.stamped p.key (hist p.key)).drop p.highWatermark
  delivered_mem : ∀ m, .message m ∈ w.delivered → m.partition ∈ ps.map (·.key)

end Watch

theorem Storage.savedTo_of_ne (s : Storage) {name : TopicName} {op : Storage.Op}
    (h : op.topic ≠ name) : s.savedTo name op = [] := by
  cases op with
  | save n c key e => exact if_neg h
  | createTopic n keys => rfl
  | resetOffset n => rfl

/-- Moving the cursor of one partition, among cursors of distinct keys, is changing the
position of its key. -/
theorem set_atOffset {ps : List Partition} (hnd : (ps.map (·.key)).Nodup) {i : Nat}
    {p : Partition} (hp : ps[i]? = some p) (pos : String → Nat) (n : Nat) :
    (ps.map fun q => Cursor.atOffset q (pos q.key)).set i (Cursor.atOffset p n) =
      ps.map fun q => Cursor.atOffset q (Function.update pos p.key n q.key) := by
  obtain ⟨hi, rfl⟩ := List.getElem?_eq_some_iff.mp hp
  apply List.ext_getElem (by simp)
  intro j h₁ h₂
  have hj : j < ps.length := by simpa using h₂
  rw [List.getElem_set]
  simp only [List.getElem_map]
  by_cases hij : i = j
  · subst hij
    simp
  · -- distinct indices hold distinct keys
    have hkey : ps[j].key ≠ ps[i].key := by
      intro heq
      have hi' : i < (ps.map (·.key)).length := by simpa using hi
      have hj' : j < (ps.map (·.key)).length := by simpa using hj
      have h' : (ps.map (·.key))[j] = (ps.map (·.key))[i] := by simpa using heq
      exact hij (hnd.getElem_inj_iff.mp h').symm
    rw [if_neg hij, Function.update_of_ne hkey]

namespace Watch

variable {w : Watch} {name : TopicName} {ps : List Partition}
  {hist : String → List Partition.Entry} {pos : String → Nat}

/-- A change that saves nothing to the topic and leaves it refining the same histories keeps
the invariant. -/
theorem Inv.change_of_saves_nothing (h : w.Inv name ps hist pos) {op : Storage.Op}
    (hsaved : w.broker.storage.savedTo name op = [])
    (hT : ∃ T, (w.broker.storage.apply op).topic? name = some T ∧ T.Refines hist) :
    (w.step (.change op)).Inv name ps hist pos := by
  have hw : (w.step (.change op)).written = w.written := by
    simp [step, h.topic_eq, hsaved]
  exact ⟨h.topic_eq, hT, h.nodup, h.cursors_eq, h.bounds, h.delivered_eq,
    by rw [hw]; exact h.written_eq, h.delivered_mem⟩

/-- A save to the topic appends one entry to the history of the key it routes to: the cursors
stay inside the old histories, and the message saved is the new last one of its partition. -/
theorem Inv.save (h : w.Inv name ps hist pos) (c : List UInt8) (key : Option String)
    (e : Option Instant) :
    ∃ hist', (w.step (.change (.save name c key e))).Inv name ps hist' pos := by
  obtain ⟨T, hT, hr⟩ := h.refines
  have htarget : w.broker.storage.saveTarget name = T := by simp [Storage.saveTarget, hT]
  obtain ⟨k, hk⟩ : ∃ k, (T.route key c e).2.1 = k := ⟨_, rfl⟩
  let x : Partition.Entry := ⟨T.sequence, c, e⟩
  have hmsg : w.broker.storage.savedTo w.sub.topic (.save name c key e) =
      [x.stamp k (hist k).length] := by
    rw [h.topic_eq, Storage.savedTo, if_pos rfl, Storage.save_eq, htarget, ← hk,
      ← hr.route_snd key c e]
    simp [Storage.sequenceOf, hT, Partition.Entry.stamp, x]
  have hroute := hr.route key c e
  rw [hk] at hroute
  -- the histories after the save have one more entry under `k` and are the same elsewhere
  refine ⟨Function.update hist k (hist k ++ [x]), h.topic_eq, ⟨_, ?_, hroute⟩, h.nodup,
    h.cursors_eq, fun p hp => ?_, fun p hp => ?_, fun p hp => ?_, h.delivered_mem⟩
  · simp only [step, Storage.apply, Storage.topic?_save, htarget, if_true]
  · obtain ⟨h₁, h₂⟩ := h.bounds p hp
    refine ⟨h₁, ?_⟩
    rw [Function.update_apply]
    split_ifs with hpk
    · rw [List.length_append, ← hpk]
      omega
    · exact h₂
  · -- a window ends at its cursor, inside the history as it was
    show w.delivered.filterMap _ = _
    rw [h.delivered_eq p hp, Function.update_apply]
    split_ifs with hpk
    · subst hpk
      rw [Partition.take_stamped_concat (h.bounds p hp).2]
    · rfl
  · -- the message saved is the new last entry under `k`, and no other key sees it
    show (w.written ++ w.broker.storage.savedTo w.sub.topic _).filter _ = _
    rw [hmsg, List.filter_append, h.written_eq p hp, Function.update_apply]
    split_ifs with hpk
    · subst hpk
      have hle : p.highWatermark ≤ (hist p.key).length :=
        Nat.le_trans (h.bounds p hp).1 (h.bounds p hp).2
      rw [Partition.drop_stamped_concat hle]
      simp
    · simp [Ne.symm hpk]

/-- **A change to the store keeps the invariant.** A change to another topic leaves this one as
it was; a creation adds partitions and a reset drops messages, both refining the same histories;
a save appends one entry. -/
theorem Inv.change (h : w.Inv name ps hist pos) (op : Storage.Op) :
    ∃ hist', (w.step (.change op)).Inv name ps hist' pos := by
  obtain ⟨T, hT, hr⟩ := h.refines
  rcases Storage.topic?_apply_cases (s := w.broker.storage) op name with
    ⟨hn, hs⟩ | ⟨c, key, e, rfl, -⟩ | ⟨keys, rfl, hs⟩ | ⟨rfl, hs⟩
  · exact ⟨hist, h.change_of_saves_nothing (Storage.savedTo_of_ne _ hn) ⟨T, hs.trans hT, hr⟩⟩
  · exact h.save c key e
  · refine ⟨hist, h.change_of_saves_nothing rfl ⟨_, ?_, hr.addPartitions keys⟩⟩
    rw [hs, hT, Option.getD_some]
  · refine ⟨hist, h.change_of_saves_nothing rfl ⟨_, ?_, hr.reset⟩⟩
    rw [hs, hT, Option.map_some]

/-- **A poll keeps the invariant.** Either nothing is delivered and the cursors stay, or the
cursor of one key reads the entry of the history at its position, moves past it, and that
message extends the key's window by one. -/
theorem Inv.poll (h : w.Inv name ps hist pos) : ∃ pos', (w.step .poll).Inv name ps hist pos' := by
  obtain ⟨T, hT, hr⟩ := h.refines
  have htopic : w.broker.topicOf w.sub = T := by simp [Broker.topicOf, h.topic_eq, hT]
  have hsub : (w.step .poll).sub = (w.sub.next T).1 := by simp [step, htopic]
  have hdel : (w.step .poll).delivered = w.delivered ++ [(w.sub.next T).2] := by
    simp [step, htopic]
  have htopic' : (w.step .poll).sub.topic = name := by
    rw [hsub, Subscription.topic_next]
    exact h.topic_eq
  rcases Subscription.next_cases w.sub T with ⟨hcs, hd⟩ | ⟨i, c, q, m, hc, hq, hm, hcs, hd⟩
  · -- no message: the cursors stay and no window grows
    have hnone : ∀ k, Delivery.messageIn k (w.sub.next T).2 = none := by
      intro k
      cases hx : (w.sub.next T).2 with
      | message m => exact absurd hx (hd m)
      | failure e => rfl
      | finished => rfl
      | pending => rfl
    refine ⟨pos, htopic', ⟨T, hT, hr⟩, h.nodup, by rw [hsub, hcs]; exact h.cursors_eq,
      h.bounds, fun p hp => ?_, h.written_eq, fun m' hm' => ?_⟩
    · rw [hdel, List.filterMap_append, h.delivered_eq p hp]
      simp [hnone]
    · rw [hdel, List.mem_append] at hm'
      rcases hm' with hm' | hm'
      · exact h.delivered_mem m' hm'
      · exact absurd (List.mem_singleton.mp hm').symm (hd m')
  · -- the cursor at `i` is the cursor of some partition of `ps`
    rw [h.cursors_eq, List.getElem?_map] at hc
    obtain ⟨p₀, hp₀, rfl⟩ := Option.map_eq_some_iff.mp hc
    simp only [Cursor.atOffset] at hq hm hcs
    -- it read the entry of its key's history at its position
    have hqkey := (Topic.find?_eq_some hr.keyed hq).2
    obtain ⟨hl, rfl⟩ := (hr.partition_of_find? hq).read_eq_ready hm
    rw [hqkey] at hd
    have hp₀mem : p₀ ∈ ps := List.mem_of_getElem? hp₀
    refine ⟨Function.update pos p₀.key (pos p₀.key + 1), htopic', ⟨T, hT, hr⟩, h.nodup,
      ?_, fun p hp => ?_, fun p hp => ?_, h.written_eq, fun m' hm' => ?_⟩
    · -- keys are distinct, so moving that cursor moves the position of its key only
      rw [hsub, hcs, h.cursors_eq]
      exact set_atOffset h.nodup hp₀ pos (pos p₀.key + 1)
    · obtain ⟨h₁, h₂⟩ := h.bounds p hp
      by_cases hpk : p.key = p₀.key
      · -- the cursor read an entry of the history, so one past it is still inside
        rw [hpk, Function.update_self]
        rw [hpk] at h₁
        omega
      · rw [Function.update_of_ne hpk]
        exact ⟨h₁, h₂⟩
    · rw [hdel, List.filterMap_append, h.delivered_eq p hp, hd]
      by_cases hpk : p.key = p₀.key
      · -- the window of the cursor's key grows by the message read
        have hle : p.highWatermark ≤
            ((Partition.stamped p₀.key (hist p₀.key)).take (pos p₀.key)).length := by
          have := (h.bounds p hp).1
          rw [hpk] at this
          simp only [List.length_take, Partition.length_stamped]
          omega
        rw [hpk, Function.update_self, Partition.take_succ_stamped hl,
          List.drop_append_of_le_length hle]
        simp [Delivery.messageIn]
      · rw [Function.update_of_ne hpk]
        simp [Delivery.messageIn, Ne.symm hpk]
    · rw [hdel, List.mem_append] at hm'
      rcases hm' with hm' | hm'
      · exact h.delivered_mem m' hm'
      · -- the message delivered carries the key of the cursor that read it
        rw [hd, List.mem_singleton, Delivery.message.injEq] at hm'
        rw [hm']
        exact List.mem_map_of_mem hp₀mem

/-- One event keeps the invariant, with the histories and cursors it leaves. -/
theorem Inv.step (h : w.Inv name ps hist pos) (ev : Event) :
    ∃ hist' pos', (w.step ev).Inv name ps hist' pos' := by
  cases ev with
  | change op =>
    obtain ⟨hist', h'⟩ := h.change op
    exact ⟨hist', pos, h'⟩
  | poll =>
    obtain ⟨pos', h'⟩ := h.poll
    exact ⟨hist, pos', h'⟩

/-- **Every run keeps the invariant**, by induction on the events from any state that has it. -/
theorem Inv.run (h : w.Inv name ps hist pos) (evs : List Event) :
    ∃ hist' pos', (w.run evs).Inv name ps hist' pos' := by
  induction evs generalizing w hist pos with
  | nil => exact ⟨hist, pos, h⟩
  | cons ev evs ih =>
    obtain ⟨hist', pos', h'⟩ := h.step ev
    exact ih h'

/-- What a partition delivered is a prefix of what was saved to it. -/
theorem Inv.delivered_prefix (h : w.Inv name ps hist pos) {p : Partition} (hp : p ∈ ps) :
    w.delivered.filterMap (Delivery.messageIn p.key) <+:
      w.written.filter (·.partition = p.key) := by
  -- the window up to the cursor is the start of everything from the watermark on
  rw [h.delivered_eq p hp, h.written_eq p hp, List.drop_take]
  exact List.take_prefix _ _

/-- What was saved to a partition sits at its offsets from the watermark on, one by one. -/
theorem Inv.written_offsets (h : w.Inv name ps hist pos) {p : Partition} (hp : p ∈ ps) :
    (w.written.filter (·.partition = p.key)).map (·.offset) =
      List.range' p.highWatermark (w.written.filter (·.partition = p.key)).length := by
  rw [h.written_eq p hp, List.map_drop, Partition.map_offset_stamped, List.range_eq_range',
    List.drop_range', List.length_drop, Partition.length_stamped]
  simp

/-- **A subscription starts with the invariant**: its cursors sit at the high watermarks, so
every window is empty, and nothing has been saved since. -/
theorem inv_subscribe {b b₁ : Broker} {S : Subscription} (hb : b.storage.Inv)
    (hS : b.subscribe name = .ok (b₁, S)) :
    ∃ t, b.storage.topic? name = some t ∧ S.partitions = t.keys ∧ ∃ hist,
      (Watch.mk b₁ S [] []).Inv name t.partitions hist
        fun k => ((t.find? k).map (·.highWatermark)).getD 0 := by
  obtain ⟨t, ht, hst, rfl⟩ := Broker.subscribe_eq_ok hS
  obtain ⟨hist, hr⟩ := hb name t ht
  -- each partition is found under its own key, and its watermark is the end of its history
  have hfind : ∀ p ∈ t.partitions, t.find? p.key = some p :=
    fun p hp => Topic.find?_of_mem hr.keyed hr.nodup hp
  have hlen : ∀ p ∈ t.partitions, p.highWatermark = (hist p.key).length :=
    fun p hp => (hr.partition p hp).next_eq
  have hkeys := hr.keyed.keys_eq
  refine ⟨t, ht, by simp [hkeys, Subscription.partitions, Subscription.open_, Cursor.atLatest], hist, rfl,
    ⟨t, hst ▸ ht, hr⟩, hkeys ▸ hr.nodup, ?_, fun p hp => ?_, fun p hp => ?_, fun p hp => ?_,
    fun m hm => ?_⟩
  · apply List.map_congr_left
    intro p hp
    simp [Cursor.atLatest, Cursor.atOffset, hfind p hp]
  · rw [hfind p hp, Option.map_some, Option.getD_some, ← hlen p hp]
    exact ⟨Nat.le_refl _, Nat.le_refl _⟩
  · simp [hfind p hp, hlen p hp]
  · simp [hlen p hp]
  · simp at hm

/-- **No loss, no repeat, order per partition.** Open a subscription on the topic of `name`
from a store that keeps the invariant (every store reached from an empty one does), and run any
events after it: store operations of every kind, on this topic or others, and polls. Every
message delivered comes from a partition the topic had when the subscription opened, so a
partition added later is never read; and for each of those partitions the messages delivered
from it are a prefix of the messages saved to it since, whose offsets run from its high
watermark at the opening, one by one. So nothing saved before the subscription opened is
delivered, and what is saved after is delivered in order, each message once and with no gap. -/
theorem subscription_delivers_each_once_in_order {b b₁ : Broker} {S : Subscription}
    (hb : b.storage.Inv) (hS : b.subscribe name = .ok (b₁, S)) (evs : List Event) :
    ∃ t, b.storage.topic? name = some t ∧ S.partitions = t.keys ∧
      let w := (Watch.mk b₁ S [] []).run evs
      (∀ m, .message m ∈ w.delivered → m.partition ∈ t.keys) ∧
      ∀ p ∈ t.partitions,
        w.delivered.filterMap (Delivery.messageIn p.key) <+:
          w.written.filter (·.partition = p.key) ∧
        (w.written.filter (·.partition = p.key)).map (·.offset) =
          List.range' p.highWatermark (w.written.filter (·.partition = p.key)).length := by
  obtain ⟨t, ht, hkeys, hist, h⟩ := inv_subscribe hb hS
  obtain ⟨hist', pos', h'⟩ := h.run evs
  obtain ⟨_, hr⟩ := hb name t ht
  refine ⟨t, ht, hkeys, fun m hm => ?_,
    fun p hp => ⟨h'.delivered_prefix hp, h'.written_offsets hp⟩⟩
  rw [hr.keyed.keys_eq]
  exact h'.delivered_mem m hm

/-- A subscription to a freshly created topic, then a save to it and a poll. -/
theorem delivery_after_fresh_subscription :
    let name : TopicName := ⟨"orders", by decide⟩
    let b : Broker := { Broker.create 1 with storage := (Storage.create 1).createTopic name [] }
    let b₁ : Broker := { b with nextConsumer := 2, active := 1 }
    let S : Subscription := Subscription.open_ 1 name [⟨name, "", 0⟩]
    let evs : List Event := [.change (.save name [1] none none), .poll]
    b.storage.Inv ∧ b.subscribe name = .ok (b₁, S) ∧
    ∃ t, b.storage.topic? name = some t ∧ S.partitions = t.keys ∧
      let w := (Watch.mk b₁ S [] []).run evs
      (∀ m, .message m ∈ w.delivered → m.partition ∈ t.keys) ∧
      ∀ p ∈ t.partitions,
        w.delivered.filterMap (Delivery.messageIn p.key) <+:
          w.written.filter (·.partition = p.key) ∧
        (w.written.filter (·.partition = p.key)).map (·.offset) =
          List.range' p.highWatermark (w.written.filter (·.partition = p.key)).length :=
  ⟨Storage.inv_runOps 1 [.createTopic _ []], rfl,
    subscription_delivers_each_once_in_order (Storage.inv_runOps 1 [.createTopic _ []]) rfl _⟩

end Watch

end MessageBroker
