import MessageBroker.Storage
import MessageBroker.Proofs.TopicLog
/-!
# Runs of a store

A store holds its topics by name. A save routes into a topic, creating it with the default
partitions when missing; a creation makes a topic with only its default partition and adds the
partitions it lacks; a reset resets every partition of a topic that exists. This module says
what each of these does to the topic of every name, states the invariant every store reachable
from an empty one keeps (each topic refines histories), and reads what a store answers after
any run: which topics exist, how the shared counter of a topic counts its saves, and which
message is the newest.

## Main definitions

* `Storage.Op`, `Storage.apply`, `Storage.runOps`: operations that change a store, and runs
* `Storage.Op.savesTo`, `Storage.Op.provisions`, `Storage.saves`: what an operation does to a name
* `Storage.saveTarget`: the topic a save routes into
* `Storage.Inv`: every topic refines some histories

## Main results

* `Storage.topic?_put`, `Storage.topic?_save`, `Storage.topic?_createTopic`: one name changes
* `Storage.Inv.apply`, `Storage.inv_runOps`: every reachable store keeps the invariant
* `Storage.sequenceOf_runOps`: a topic's counter is the number of saves to it
* `Storage.stored_after_save`: a save is read back at the id it answers
* `Storage.store_read_model`: what `get` answers after any run
-/

namespace MessageBroker

/-! ## Looking topics up -/

theorem find?_insertByName (t : Topic) {ts : List Topic} (name : TopicName)
    (hnew : ∀ u ∈ ts, u.name ≠ t.name) :
    (insertByName t ts).find? (·.name == name) =
      if t.name = name then some t else ts.find? (·.name == name) := by
  induction ts with
  | nil => by_cases h : t.name = name <;> simp [insertByName, h]
  | cons u us ih =>
    have hu : u.name ≠ t.name := hnew u List.mem_cons_self
    unfold insertByName
    split
    · by_cases h : t.name = name <;> simp [h]
    · by_cases h : t.name = name
      · subst h
        simp [hu, ih fun v hv => hnew v (List.mem_cons_of_mem _ hv)]
      · simp only [List.find?_cons, ih fun v hv => hnew v (List.mem_cons_of_mem _ hv), if_neg h]

namespace Storage

variable {s : Storage} {name : TopicName}

theorem topic?_eq_some {t : Topic} (h : s.topic? name = some t) : t.name = name :=
  by simpa using List.find?_some h

theorem topic_eq (s : Storage) (name : TopicName) :
    s.topic name = match s.topic? name with
      | some t => .ok t
      | none => .error (.topicNotFound name) := rfl

/-- Storing a topic changes the topic of its own name only. -/
theorem topic?_put (s : Storage) (t : Topic) (name : TopicName) :
    (s.put t).topic? name = if t.name = name then some t else s.topic? name := by
  unfold put
  split
  · -- replaced in place: the search meets the same position, now holding `t`
    rename_i hany
    simp only [topic?, List.find?_map]
    have hp : ((·.name == name) ∘ fun u : Topic => if (u.name == t.name) = true then t else u) =
        fun u => (u.name == name) := by
      funext u
      show ((if (u.name == t.name) = true then t else u).name == name) = (u.name == name)
      by_cases hu : u.name = t.name
      · rw [if_pos (beq_iff_eq.mpr hu), hu]
      · rw [if_neg (mt beq_iff_eq.mp hu)]
    rw [hp]
    by_cases h : t.name = name
    · subst h
      obtain ⟨u, hu, hun⟩ := List.any_eq_true.mp hany
      cases hfind : s.topics.find? (·.name == t.name) with
      | none => exact absurd hfind (List.find?_eq_none.not.mpr (by simp_all))
      | some v =>
        have hv : v.name = t.name := by simpa using List.find?_some hfind
        simp [hv]
    · rw [if_neg h]
      cases hfind : s.topics.find? (·.name == name) with
      | none => rfl
      | some v =>
        have hv : v.name = name := by simpa using List.find?_some hfind
        have hvt : v.name ≠ t.name := fun e => h (e.symm.trans hv)
        simp [hvt]
  · rename_i hany
    rw [topic?, find?_insertByName t name (fun u hu hun => hany (List.any_eq_true.mpr
      ⟨u, hu, by simp [hun]⟩))]
    rfl

theorem topic?_create (n : Nat) (name : TopicName) : (create n).topic? name = none := rfl

/-- The topic a save routes into: the topic of the name, or a new one with the default
partitions. -/
def saveTarget (s : Storage) (name : TopicName) : Topic :=
  (s.topic? name).getD (Topic.withKeys name (partitionKeys s.defaultPartitions))

theorem save_eq (s : Storage) (name : TopicName) (c : List UInt8) (key : Option String)
    (e : Option Instant) :
    s.save name c key e =
      (s.put ((s.saveTarget name).route key c e).1,
        ⟨name, ((s.saveTarget name).route key c e).2.1,
          ((s.saveTarget name).route key c e).2.2⟩) := rfl

@[simp] theorem name_saveTarget (s : Storage) (name : TopicName) :
    (s.saveTarget name).name = name := by
  unfold saveTarget
  cases h : s.topic? name with
  | none => exact Topic.name_addPartitions _
  | some t => exact topic?_eq_some h

theorem sequence_saveTarget (s : Storage) (name : TopicName) :
    (s.saveTarget name).sequence = ((s.topic? name).map (·.sequence)).getD 0 := by
  unfold saveTarget
  cases s.topic? name with
  | none => exact Topic.sequence_addPartitions _
  | some t => rfl

theorem topic?_save (c : List UInt8) (key : Option String) (e : Option Instant)
    (name' : TopicName) :
    (s.save name c key e).1.topic? name' =
      if name = name' then some ((s.saveTarget name).route key c e).1 else s.topic? name' := by
  rw [save_eq, topic?_put, Topic.name_route, name_saveTarget]

theorem topic?_createTopic (keys : List String) (name' : TopicName) :
    (s.createTopic name keys).topic? name' =
      if name = name' then
        some (keys.foldl (fun t k => (t.addPartition k).1)
          ((s.topic? name).getD (Topic.create name)))
      else s.topic? name' := by
  have hname : ((s.topic? name).getD (Topic.create name)).name = name := by
    cases h : s.topic? name with
    | none => rfl
    | some t => exact topic?_eq_some h
  rw [createTopic, topic?_put, Topic.name_addPartitions, hname]

theorem resetOffset_eq (s : Storage) (name : TopicName) :
    s.resetOffset name = match s.topic? name with
      | some t => .ok (s.put t.reset)
      | none => .error (.topicNotFound name) := by
  unfold resetOffset
  rw [topic_eq]
  cases s.topic? name <;> rfl

theorem get_eq (s : Storage) (name : TopicName) :
    s.get name = match s.topic? name with
      | some t => latestOf t
      | none => .error (.topicNotFound name) := by
  unfold get
  rw [topic_eq]
  cases s.topic? name <;> rfl

/-- Reading the newest message through `explore` is reading it through `get`. -/
theorem explore_latest (s : Storage) (name : TopicName) :
    s.explore name .latest = s.get name := by
  unfold explore
  rw [get_eq, topic_eq]
  cases s.topic? name <;> rfl

theorem explorePartition_exactly (s : Storage) (name : TopicName) (key : String) (o : Nat) :
    s.explorePartition name key (.exactly o) = match s.topic? name with
      | none => .error (.topicNotFound name)
      | some t => match t.find? key with
        | none => .error (.partitionNotFound t.name key)
        | some p => match p.readAt o with
          | some m => .ok m
          | none => .error (.offsetNotFound t.name (.exactly o)) := by
  unfold explorePartition
  rw [topic_eq]
  cases s.topic? name <;> rfl

/-! ## Runs of operations -/

/-- An operation that changes a store. The reads (`get`, `explore`, `explorePartition`,
`partitions`, `listTopics`, `openCursors`) answer from a store and leave it as it is, so a run
of operations is all a store goes through. -/
inductive Op where
  | save (topic : TopicName) (content : List UInt8) (key : Option String)
      (expiresAt : Option Instant)
  | createTopic (topic : TopicName) (keys : List String)
  | resetOffset (topic : TopicName)

/-- The store after an operation; a reset of a missing topic fails and leaves it as it was. -/
def apply (s : Storage) : Op → Storage
  | .save name c key e => (s.save name c key e).1
  | .createTopic name keys => s.createTopic name keys
  | .resetOffset name =>
    match s.resetOffset name with
    | .ok s' => s'
    | .error _ => s

/-- The store after a run of operations. -/
def runOps (s : Storage) (ops : List Op) : Storage :=
  ops.foldl apply s

/-- The name an operation is about. -/
def Op.topic : Op → TopicName
  | .save n .. => n
  | .createTopic n _ => n
  | .resetOffset n => n

/-- Whether an operation saves to the topic of a name. -/
def Op.savesTo (name : TopicName) : Op → Bool
  | .save n .. => n == name
  | _ => false

/-- Whether an operation brings the topic of a name into being when it is missing. -/
def Op.provisions (name : TopicName) : Op → Bool
  | .save n .. => n == name
  | .createTopic n _ => n == name
  | .resetOffset _ => false

/-- The number of saves to a topic in a run. -/
def saves (name : TopicName) (ops : List Op) : Nat :=
  ops.countP (·.savesTo name)

/-- The counter of the topic of a name, `0` when there is no such topic. -/
def sequenceOf (s : Storage) (name : TopicName) : Nat :=
  ((s.topic? name).map (·.sequence)).getD 0

@[simp] theorem runOps_nil : s.runOps [] = s := rfl

@[simp] theorem runOps_cons (op : Op) (ops : List Op) :
    s.runOps (op :: ops) = (s.apply op).runOps ops := rfl

theorem runOps_append (ops₁ ops₂ : List Op) :
    s.runOps (ops₁ ++ ops₂) = (s.runOps ops₁).runOps ops₂ :=
  List.foldl_append

theorem apply_resetOffset (name : TopicName) :
    s.apply (.resetOffset name) = ((s.topic? name).map fun t => s.put t.reset).getD s := by
  simp only [apply, resetOffset_eq]
  cases s.topic? name <;> rfl

/-- An operation on another name leaves the topic of a name as it is. -/
theorem topic?_apply_of_ne {op : Op} (h : op.topic ≠ name) :
    (s.apply op).topic? name = s.topic? name := by
  cases op with
  | save n c key e =>
    have hn : n ≠ name := h
    rw [apply, topic?_save, if_neg hn]
  | createTopic n keys =>
    have hn : n ≠ name := h
    rw [apply, topic?_createTopic, if_neg hn]
  | resetOffset n =>
    rw [apply_resetOffset]
    cases hs : s.topic? n with
    | none => rfl
    | some t =>
      have hn : t.reset.name ≠ name := by
        rw [Topic.name_reset]
        exact (topic?_eq_some hs).trans_ne h
      rw [Option.map_some, Option.getD_some, topic?_put, if_neg hn]

theorem topic?_apply_resetOffset (name : TopicName) :
    (s.apply (.resetOffset name)).topic? name = (s.topic? name).map (·.reset) := by
  rw [apply_resetOffset]
  cases hs : s.topic? name with
  | none => simp [hs]
  | some t =>
    have hn := topic?_eq_some hs
    rw [Option.map_some, Option.getD_some, topic?_put,
      if_pos (show t.reset.name = name by rw [Topic.name_reset]; exact hn)]
    rfl

/-- **What an operation does to the topic of a name**: one on another name leaves it; a save to
it routes into the save's target; a creation adds its keys to it, or to a new topic; a reset
resets it, if there is one. -/
theorem topic?_apply_cases (op : Op) (name : TopicName) :
    (op.topic ≠ name ∧ (s.apply op).topic? name = s.topic? name) ∨
    (∃ c key e, op = .save name c key e ∧
      (s.apply op).topic? name = some ((s.saveTarget name).route key c e).1) ∨
    (∃ keys, op = .createTopic name keys ∧ (s.apply op).topic? name =
      some (keys.foldl (fun t k => (t.addPartition k).1)
        ((s.topic? name).getD (Topic.create name)))) ∨
    (op = .resetOffset name ∧ (s.apply op).topic? name = (s.topic? name).map (·.reset)) := by
  by_cases hn : op.topic = name
  swap
  · exact .inl ⟨hn, topic?_apply_of_ne hn⟩
  cases op with
  | save n c key e =>
    simp only [Op.topic] at hn
    subst hn
    exact .inr (.inl ⟨c, key, e, rfl, by rw [Storage.apply, topic?_save, if_pos rfl]⟩)
  | createTopic n keys =>
    simp only [Op.topic] at hn
    subst hn
    exact .inr (.inr (.inl ⟨keys, rfl, by rw [Storage.apply, topic?_createTopic, if_pos rfl]⟩))
  | resetOffset n =>
    simp only [Op.topic] at hn
    subst hn
    exact .inr (.inr (.inr ⟨rfl, topic?_apply_resetOffset n⟩))

theorem Op.savesTo_of_ne {op : Op} (h : op.topic ≠ name) : op.savesTo name = false := by
  cases op <;> simp_all [Op.savesTo, Op.topic]

theorem Op.provisions_of_ne {op : Op} (h : op.topic ≠ name) : op.provisions name = false := by
  cases op <;> simp_all [Op.provisions, Op.topic]

/-! ## The invariant of reachable stores -/

/-- **Every topic of the store refines some histories.** -/
def Inv (s : Storage) : Prop :=
  ∀ name t, s.topic? name = some t → ∃ hist, t.Refines hist

theorem inv_create (n : Nat) : (create n).Inv :=
  fun _ _ h => by simp [topic?_create] at h

theorem Inv.saveTarget (h : s.Inv) (name : TopicName) :
    ∃ hist, (s.saveTarget name).Refines hist := by
  unfold Storage.saveTarget
  cases ht : s.topic? name with
  | none => exact ⟨_, Topic.refines_withKeys _ _⟩
  | some t => exact h name t ht

theorem Inv.apply (h : s.Inv) (op : Op) : (s.apply op).Inv := by
  intro name t' ht'
  rcases topic?_apply_cases (s := s) op name with
    ⟨-, hs⟩ | ⟨c, key, e, rfl, hs⟩ | ⟨keys, rfl, hs⟩ | ⟨rfl, hs⟩ <;> rw [hs] at ht'
  · exact h name t' ht'
  · cases ht'
    obtain ⟨hist, hr⟩ := h.saveTarget name
    exact ⟨_, hr.route key c e⟩
  · -- a creation refines the histories of the topic it extends, or none for a new one
    cases ht'
    cases ht : s.topic? name with
    | none => exact ⟨_, (Topic.refines_create name).addPartitions keys⟩
    | some t =>
      obtain ⟨hist, hr⟩ := h name t ht
      exact ⟨hist, hr.addPartitions keys⟩
  · obtain ⟨t, ht, rfl⟩ := Option.map_eq_some_iff.mp ht'
    obtain ⟨hist, hr⟩ := h _ t ht
    exact ⟨hist, hr.reset⟩

theorem Inv.runOps (h : s.Inv) (ops : List Op) : (s.runOps ops).Inv := by
  induction ops generalizing s with
  | nil => exact h
  | cons op ops ih => exact ih (h.apply op)

theorem inv_runOps (n : Nat) (ops : List Op) : ((create n).runOps ops).Inv :=
  (inv_create n).runOps ops

/-! ## What a run does to one topic -/

/-- A topic exists once an operation provisions it, and stays. -/
theorem isSome_topic?_apply (op : Op) (name : TopicName) :
    ((s.apply op).topic? name).isSome = ((s.topic? name).isSome || op.provisions name) := by
  rcases topic?_apply_cases (s := s) op name with
    ⟨hn, hs⟩ | ⟨c, key, e, rfl, hs⟩ | ⟨keys, rfl, hs⟩ | ⟨rfl, hs⟩ <;> rw [hs]
  · simp [Op.provisions_of_ne hn]
  · simp [Op.provisions]
  · simp [Op.provisions]
  · simp [Op.provisions]

theorem isSome_topic?_runOps (ops : List Op) (name : TopicName) :
    ((s.runOps ops).topic? name).isSome =
      ((s.topic? name).isSome || ops.any (·.provisions name)) := by
  induction ops generalizing s with
  | nil => simp
  | cons op ops ih => rw [runOps_cons, ih, isSome_topic?_apply, List.any_cons, Bool.or_assoc]

/-- **Each save moves the counter of its topic by one**, and nothing else moves it. -/
theorem Inv.sequenceOf_apply (h : s.Inv) (op : Op) (name : TopicName) :
    (s.apply op).sequenceOf name = s.sequenceOf name + if op.savesTo name then 1 else 0 := by
  unfold sequenceOf
  rcases topic?_apply_cases (s := s) op name with
    ⟨hn, hs⟩ | ⟨c, key, e, rfl, hs⟩ | ⟨keys, rfl, hs⟩ | ⟨rfl, hs⟩ <;> rw [hs]
  · simp [Op.savesTo_of_ne hn]
  · -- a save moves the counter of the topic it routes into by one
    obtain ⟨hist, hr⟩ := h.saveTarget name
    simp [hr.sequence_route, sequence_saveTarget, Op.savesTo]
  · cases s.topic? name <;> simp [Op.savesTo]
  · cases s.topic? name <;> simp [Op.savesTo]

theorem Inv.sequenceOf_runOps (h : s.Inv) (ops : List Op) (name : TopicName) :
    (s.runOps ops).sequenceOf name = s.sequenceOf name + saves name ops := by
  induction ops generalizing s with
  | nil => rfl
  | cons op ops ih =>
    rw [runOps_cons, ih (h.apply op), h.sequenceOf_apply]
    simp only [saves, List.countP_cons]
    omega

/-- **The counter of a topic is the number of saves to it.** -/
theorem sequenceOf_runOps (n : Nat) (ops : List Op) (name : TopicName) :
    ((create n).runOps ops).sequenceOf name = saves name ops := by
  rw [(inv_create n).sequenceOf_runOps]
  simp [sequenceOf, topic?_create]

/-- Creations and resets keep the newest message of a topic, and so do operations on other
names. -/
theorem latest_apply {op : Op} (hop : op.savesTo name = false) {t : Topic}
    (ht : s.topic? name = some t) :
    ∃ t', (s.apply op).topic? name = some t' ∧ t'.latest = t.latest := by
  rcases topic?_apply_cases (s := s) op name with
    ⟨-, hs⟩ | ⟨c, key, e, rfl, -⟩ | ⟨keys, rfl, hs⟩ | ⟨rfl, hs⟩
  · exact ⟨t, hs.trans ht, rfl⟩
  · simp [Op.savesTo] at hop
  · rw [hs, ht]
    exact ⟨_, rfl, Topic.latest_addPartitions keys⟩
  · rw [hs, ht]
    exact ⟨_, rfl, Topic.latest_reset⟩

theorem latest_runOps {ops : List Op} (hops : ∀ op ∈ ops, op.savesTo name = false) {t : Topic}
    (ht : s.topic? name = some t) :
    ∃ t', (s.runOps ops).topic? name = some t' ∧ t'.latest = t.latest := by
  induction ops generalizing s t with
  | nil => exact ⟨t, ht, rfl⟩
  | cons op ops ih =>
    obtain ⟨t₁, ht₁, hl₁⟩ := latest_apply (hops op List.mem_cons_self) ht
    obtain ⟨t', ht', hl'⟩ := ih (fun op hop => hops op (List.mem_cons_of_mem _ hop)) ht₁
    exact ⟨t', ht', hl'.trans hl₁⟩

/-- **After a save, the newest message of its topic is the one it stored**, at the id it
answers, with the counter it found. -/
theorem Inv.latest_save (h : s.Inv) (name : TopicName) (c : List UInt8) (key : Option String)
    (e : Option Instant) :
    let r := s.save name c key e
    ∃ t, r.1.topic? name = some t ∧
      t.latest = some ⟨r.2.offset, r.2.partition, s.sequenceOf name, c, e⟩ := by
  obtain ⟨hist, hr⟩ := h.saveTarget name
  refine ⟨_, by rw [topic?_save, if_pos rfl], ?_⟩
  rw [hr.latest_route, sequence_saveTarget, save_eq]
  simp only
  rw [← hr.route_snd]
  rfl

/-- **A save is read back at the id it answers**: its content and expiry, under the counter it
found. -/
theorem Inv.stored_after_save (h : s.Inv) (name : TopicName) (c : List UInt8)
    (key : Option String) (e : Option Instant) :
    let r := s.save name c key e
    r.1.explorePartition name r.2.partition (.exactly r.2.offset) =
      .ok ⟨r.2.offset, r.2.partition, s.sequenceOf name, c, e⟩ := by
  obtain ⟨hist, hr⟩ := h.saveTarget name
  intro r
  have hk : r.2.partition = ((s.saveTarget name).route key c e).2.1 := rfl
  obtain ⟨hp, hpk⟩ := hr.refines_find?_getD r.2.partition
  rw [explorePartition_exactly, topic?_save, if_pos rfl]
  simp only
  rw [hr.find?_route, if_pos hk]
  simp only
  have hoff : r.2.offset = (((s.saveTarget name).find? r.2.partition).getD
      (Partition.create (s.saveTarget name).name r.2.partition)).next := by
    rw [hp.next_eq, hk, ← hr.route_snd]
    rfl
  rw [hoff, hp.readAt_append_self, hpk, sequence_saveTarget]
  rfl

/-! ## Reads a run keeps -/

theorem explorePartition_exactly_eq_ok {key : String} {o : Nat} {m : Message} :
    s.explorePartition name key (.exactly o) = .ok m ↔
      ∃ t, s.topic? name = some t ∧ ∃ p, t.find? key = some p ∧ p.readAt o = some m := by
  rw [explorePartition_exactly]
  cases s.topic? name with
  | none => simp
  | some t =>
    cases hf : t.find? key with
    | none => simp [hf]
    | some p => cases hr : p.readAt o <;> simp [hf, hr]

/-- **A message read at an exact offset stays there** through any operation but a reset of its
topic: a save appends behind it, a creation adds partitions beside it. -/
theorem Inv.explorePartition_apply (h : s.Inv) {key : String} {o : Nat} {m : Message}
    (hm : s.explorePartition name key (.exactly o) = .ok m) {op : Op}
    (hop : op ≠ .resetOffset name) :
    (s.apply op).explorePartition name key (.exactly o) = .ok m := by
  rw [explorePartition_exactly_eq_ok] at hm ⊢
  obtain ⟨t, ht, p, hp, hpm⟩ := hm
  rcases topic?_apply_cases (s := s) op name with
    ⟨-, hs⟩ | ⟨c, k, e, rfl, hs⟩ | ⟨keys, rfl, hs⟩ | ⟨rfl, -⟩
  · exact ⟨t, hs.trans ht, p, hp, hpm⟩
  · obtain ⟨hist, hr⟩ := h _ t ht
    have htarget : s.saveTarget name = t := by simp [Storage.saveTarget, ht]
    refine ⟨(t.route k c e).1, by rw [hs, htarget], ?_⟩
    rw [hr.find?_route, hp, Option.getD_some]
    split_ifs
    · -- the message lies below the end of its partition, where the append writes
      have hpr := hr.partition_of_find? hp
      obtain ⟨ho, -⟩ := hpr.readAt_eq_some hpm
      exact ⟨_, rfl, (hpr.readAt_append ho _ c e).trans hpm⟩
    · exact ⟨p, rfl, hpm⟩
  · refine ⟨_, by rw [hs, ht, Option.getD_some], ?_⟩
    exact ⟨p, Topic.find?_addPartitions_of_some hp keys, hpm⟩
  · exact absurd rfl hop

theorem Inv.explorePartition_runOps (h : s.Inv) {key : String} {o : Nat} {m : Message}
    (hm : s.explorePartition name key (.exactly o) = .ok m) {ops : List Op}
    (hops : ∀ op ∈ ops, op ≠ .resetOffset name) :
    (s.runOps ops).explorePartition name key (.exactly o) = .ok m := by
  induction ops generalizing s with
  | nil => exact hm
  | cons op ops ih =>
    have hop := hops op List.mem_cons_self
    exact ih (h.apply op) (h.explorePartition_apply hm hop)
      fun op' h' => hops op' (List.mem_cons_of_mem _ h')

/-! ## What the store answers -/

theorem get_eq_topicNotFound_iff :
    s.get name = .error (.topicNotFound name) ↔ s.topic? name = none := by
  rw [get_eq]
  cases s.topic? name with
  | none => simp
  | some t =>
    simp only [latestOf, reduceCtorEq, iff_false]
    split <;> simp

theorem get_eq_offsetNotFound_iff {t : Topic} (ht : s.topic? name = some t) :
    s.get name = .error (.offsetNotFound name .latest) ↔ t.latest = none := by
  have hn := topic?_eq_some ht
  rw [get_eq, ht]
  unfold latestOf
  cases hl : t.latest <;> simp [hn, hl]

theorem topic?_runOps_eq_none_iff (n : Nat) (ops : List Op) (name : TopicName) :
    ((create n).runOps ops).topic? name = none ↔ ∀ op ∈ ops, op.provisions name = false := by
  rw [← Option.not_isSome_iff_eq_none, isSome_topic?_runOps, topic?_create]
  simp

/-- **What the store answers about a topic after any run from an empty store.** The topic is
unknown exactly when no operation provisioned it; once it is known, it has no newest message
exactly when nothing was saved to it, whatever creations and resets came; after a save and a run
with no further save to the topic, the newest message, read by `get` or by `explore`, is the
message that save stored, numbered by the saves before it; the counter of a topic is the number
of saves to it and the sum of the high watermarks of its partitions, and within a partition
sequence numbers increase with offsets; and each save stores, at the id it answers, its content
and expiry under the number of the saves before it, so the saves to a topic draw `0`, `1`, … in
order, each once. -/
theorem store_read_model (n : Nat) (name : TopicName) :
    (∀ ops, ((create n).runOps ops).get name = .error (.topicNotFound name) ↔
      ∀ op ∈ ops, op.provisions name = false) ∧
    (∀ ops, (∃ op ∈ ops, op.provisions name = true) →
      (((create n).runOps ops).get name = .error (.offsetNotFound name .latest) ↔
        ∀ op ∈ ops, op.savesTo name = false)) ∧
    (∀ pre c key e post, (∀ op ∈ post, op.savesTo name = false) →
      let r := ((create n).runOps pre).save name c key e
      let s := (create n).runOps (pre ++ .save name c key e :: post)
      s.get name = .ok ⟨r.2.offset, r.2.partition, saves name pre, c, e⟩ ∧
        s.explore name .latest = s.get name) ∧
    (∀ ops t, ((create n).runOps ops).topic? name = some t →
      t.sequence = saves name ops ∧ t.sequence = (t.partitions.map (·.highWatermark)).sum ∧
      ∀ p ∈ t.partitions, ∀ o₁ o₂ m₁ m₂, p.readAt o₁ = some m₁ → p.readAt o₂ = some m₂ →
        o₁ < o₂ → m₁.sequence < m₂.sequence) ∧
    (∀ pre c key e,
      let r := ((create n).runOps pre).save name c key e
      r.1.explorePartition name r.2.partition (.exactly r.2.offset) =
        .ok ⟨r.2.offset, r.2.partition, saves name pre, c, e⟩) := by
  refine ⟨fun ops => ?_, fun ops hprov => ?_, fun pre c key e post hpost => ?_,
    fun ops t ht => ?_, fun pre c key e => ?_⟩
  · rw [get_eq_topicNotFound_iff, topic?_runOps_eq_none_iff]
  · -- the topic is there; its newest message is missing exactly when its counter is `0`
    obtain ⟨t, ht⟩ := Option.ne_none_iff_exists'.mp fun h =>
      absurd ((topic?_runOps_eq_none_iff n ops name).mp h) (by simpa using hprov)
    obtain ⟨hist, hr⟩ := inv_runOps n ops name t ht
    have hseq : t.sequence = saves name ops := by
      rw [← sequenceOf_runOps n ops name, sequenceOf, ht]
      rfl
    rw [get_eq_offsetNotFound_iff ht, hr.latest_eq_none_iff, hseq, saves, List.countP_eq_zero]
    simp
  · -- the save leaves its message newest, and the rest of the run keeps it so
    obtain ⟨t₁, ht₁, hl₁⟩ := (inv_runOps n pre).latest_save name c key e
    obtain ⟨t', ht', hl'⟩ := latest_runOps hpost ht₁
    rw [sequenceOf_runOps] at hl₁
    dsimp only
    refine ⟨?_, explore_latest _ _⟩
    simp only [runOps_append, runOps_cons, Storage.apply, get_eq, ht', latestOf, hl', hl₁]
  · obtain ⟨hist, hr⟩ := inv_runOps n ops name t ht
    refine ⟨?_, hr.sequence_eq_sum_highWatermark, fun p hp o₁ o₂ m₁ m₂ h₁ h₂ ho =>
      hr.sequence_lt_of_readAt hp h₁ h₂ ho⟩
    rw [← sequenceOf_runOps n ops name, sequenceOf, ht]
    rfl
  · have := (inv_runOps n pre).stored_after_save name c key e
    rwa [sequenceOf_runOps] at this

end Storage

end MessageBroker
