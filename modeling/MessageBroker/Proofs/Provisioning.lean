import MessageBroker.Proofs.Routing
import MessageBroker.Proofs.MessageIdText
/-!
# Provisioning topics

Creating a topic makes it with only its default partition when it is missing, then adds a
partition for each listed key that it lacks. On a topic that exists, and that may already hold
messages, nothing is reset: every partition keeps its log, the round-robin counter and the
sequence stay, and the keys become the old ones together with the listed ones, in ascending
order and each once. Creating the same keys again changes nothing, so provisioning is
idempotent; and it leaves every other topic as it is.

## Main definitions

* `Topic.Provisioned`: a topic with keys added to another, which keeps all it had

## Main results

* `Topic.find?_addPartitions_of_not_mem`: the partition each added key gets
* `Topic.Shape.provisioned`: adding keys to a topic of the shape provisions it
* `Storage.createTopic_createTopic`: creating twice is creating once
* `Broker.createTopic_val`: what creating a topic by its name answers
* `Storage.provisioning_keeps_history_and_is_idempotent`: all of it, in every reachable store
-/

namespace MessageBroker

namespace Topic

variable {t : Topic} {ks : List String} {k : String}

/-! ## Adding partitions for a list of keys -/

/-- A listed key that was missing gets an empty partition of the topic. -/
theorem find?_addPartitions_of_not_mem (hk : k ∉ t.keys) (hks : k ∈ ks) :
    (ks.foldl (fun t k => (t.addPartition k).1) t).find? k = some (Partition.create t.name k) := by
  induction ks generalizing t with
  | nil => exact absurd hks List.not_mem_nil
  | cons k' ks ih =>
    rw [List.foldl_cons]
    by_cases hkk : k = k'
    · -- the key is added here, and the later keys leave its partition as it is
      subst hkk
      have hadd : (t.addPartition k).1.find? k = some (Partition.create t.name k) := by
        rw [find?_addPartition, if_pos ⟨rfl, hk⟩]
      exact find?_addPartitions_of_some hadd ks
    · have hk' : k ∉ (t.addPartition k').1.keys := by
        rw [mem_keys_addPartition]
        exact fun h => h.elim hkk hk
      rw [ih hk' ((List.mem_cons.mp hks).resolve_left hkk), name_addPartition]

/-- Adding keys that are all there changes nothing. -/
theorem addPartitions_of_subset (h : ∀ k ∈ ks, k ∈ t.keys) :
    ks.foldl (fun t k => (t.addPartition k).1) t = t := by
  induction ks with
  | nil => rfl
  | cons k ks ih =>
    rw [List.foldl_cons, addPartition_of_mem (h k List.mem_cons_self)]
    exact ih fun k' hk' => h k' (List.mem_cons_of_mem k hk')

/-! ## What provisioning keeps -/

/-- **`t'` is `t` provisioned with the keys `ks`**: every partition of `t` is kept with its log,
every listed key that `t` lacks has an empty partition of the topic, the name and both counters
stay, and the keys are those of `t` and the listed ones, strictly ascending. -/
structure Provisioned (t : Topic) (ks : List String) (t' : Topic) : Prop where
  kept : ∀ k p, t.find? k = some p → t'.find? k = some p
  fresh : ∀ k ∈ ks, k ∉ t.keys → t'.find? k = some (Partition.create t.name k)
  name_eq : t'.name = t.name
  roundRobin_eq : t'.roundRobin = t.roundRobin
  sequence_eq : t'.sequence = t.sequence
  ascending : t'.keys.Pairwise (· < ·)
  mem_keys : ∀ k, k ∈ t'.keys ↔ k ∈ t.keys ∨ k ∈ ks

theorem Shape.provisioned (h : t.Shape) (ks : List String) :
    t.Provisioned ks (ks.foldl (fun t k => (t.addPartition k).1) t) where
  kept _ _ hp := find?_addPartitions_of_some hp ks
  fresh _ hk hnot := find?_addPartitions_of_not_mem hnot hk
  name_eq := name_addPartitions ks
  roundRobin_eq := roundRobin_addPartitions ks
  sequence_eq := sequence_addPartitions ks
  ascending := (h.addPartitions ks).ascending
  mem_keys _ := mem_keys_addPartitions

/-- Provisioning a topic whose partitions are all empty gives one whose partitions are all
empty. -/
theorem Provisioned.empty_partitions {t' : Topic} (hp : t.Provisioned ks t') (ht' : t'.Shape)
    (hempty : ∀ p ∈ t.partitions, p = Partition.create t.name p.key) :
    ∀ p ∈ t'.partitions, p = Partition.create t.name p.key := by
  intro p hp'
  have hself := ht'.find?_self hp'
  -- the key was there, with an empty partition kept; or it is listed and was added empty
  by_cases hk : p.key ∈ t.keys
  · obtain ⟨q, hq⟩ := exists_find?_of_mem hk
    have hqm := mem_of_find? hq
    rw [hp.kept _ _ hq, Option.some.injEq] at hself
    subst hself
    exact hempty q hqm
  · have hks : p.key ∈ ks := ((hp.mem_keys p.key).mp (ht'.keyed.mem_keys.mpr ⟨p, hp', rfl⟩)).resolve_left hk
    rw [hp.fresh _ hks hk, Option.some.injEq] at hself
    exact hself.symm

end Topic

namespace Storage

variable {s : Storage} {name : TopicName} {ks : List String}

/-! ## Creating a topic in a store -/

theorem mem_insertByName {t u : Topic} {ts : List Topic} :
    u ∈ insertByName t ts ↔ u = t ∨ u ∈ ts := by
  induction ts with
  | nil => simp [insertByName]
  | cons v vs ih =>
    unfold insertByName
    split
    · exact List.mem_cons
    · rw [List.mem_cons, ih, List.mem_cons, or_left_comm]

theorem put_of_any {t : Topic} (h : s.topics.any (·.name == t.name) = true) :
    s.put t = { s with topics := s.topics.map fun u => if u.name == t.name then t else u } := by
  rw [put, if_pos h]

/-- After storing a topic, it is there, and it is the only topic of its name. -/
theorem put_sole (s : Storage) (t : Topic) :
    t ∈ (s.put t).topics ∧ ∀ u ∈ (s.put t).topics, u.name = t.name → u = t := by
  unfold put
  split
  · -- replaced in place: every topic of the name became `t`
    rename_i hany
    obtain ⟨v, hv, hvn⟩ := List.any_eq_true.mp hany
    refine ⟨List.mem_map.mpr ⟨v, hv, if_pos hvn⟩, fun u hu hun => ?_⟩
    obtain ⟨w, -, rfl⟩ := List.mem_map.mp hu
    by_cases hw : (w.name == t.name) = true
    · rw [if_pos hw]
    · rw [if_neg hw] at hun ⊢
      exact absurd (beq_iff_eq.mpr hun) hw
  · -- inserted: no topic of the name was there before
    rename_i hnone
    refine ⟨mem_insertByName.mpr (.inl rfl), fun u hu hun => ?_⟩
    rcases mem_insertByName.mp hu with rfl | hu
    · rfl
    · exact (hnone (List.any_eq_true.mpr ⟨u, hu, beq_iff_eq.mpr hun⟩)).elim

/-- Storing a topic twice is storing it once. -/
theorem put_put (s : Storage) (t : Topic) : (s.put t).put t = s.put t := by
  obtain ⟨hmem, hsole⟩ := put_sole s t
  have hany : (s.put t).topics.any (·.name == t.name) = true :=
    List.any_eq_true.mpr ⟨t, hmem, beq_self_eq_true _⟩
  -- the second store replaces `t` by itself and leaves the other topics
  have hid : ∀ u ∈ (s.put t).topics, (if u.name == t.name then t else u) = u := by
    intro u hu
    by_cases hun : u.name = t.name
    · rw [if_pos (beq_iff_eq.mpr hun), hsole u hu hun]
    · rw [if_neg (mt beq_iff_eq.mp hun)]
  rw [put_of_any hany, List.map_congr_left hid, List.map_id']

theorem topic?_createTopic_self (s : Storage) (name : TopicName) (ks : List String) :
    (s.createTopic name ks).topic? name =
      some (ks.foldl (fun t k => (t.addPartition k).1)
        ((s.topic? name).getD (Topic.create name))) := by
  rw [topic?_createTopic, if_pos rfl]

/-- **Creating a topic twice with the same keys is creating it once.** -/
theorem createTopic_createTopic (s : Storage) (name : TopicName) (ks : List String) :
    (s.createTopic name ks).createTopic name ks = s.createTopic name ks := by
  have hsub : ∀ k ∈ ks, k ∈ (ks.foldl (fun t k => (t.addPartition k).1)
      ((s.topic? name).getD (Topic.create name))).keys :=
    fun _ hk => Topic.mem_keys_addPartitions.mpr (.inr hk)
  rw [createTopic, topic?_createTopic_self, Option.getD_some, Topic.addPartitions_of_subset hsub]
  exact put_put s _

theorem partitions_of_topic? {t : Topic} (h : s.topic? name = some t) :
    s.partitions name = .ok t.keys := by
  rw [partitions, topic_eq, h]
  rfl

end Storage

/-- **What creating a topic by its name answers**: the broker with the topic created in its
store, and the topic's name with its keys after the creation. -/
theorem Broker.createTopic_val (b : Broker) (name : TopicName) (ks : List String) :
    b.createTopic name.val ks = .ok ({ b with storage := b.storage.createTopic name ks },
      ⟨name.val, (ks.foldl (fun t k => (t.addPartition k).1)
        ((b.storage.topic? name).getD (Topic.create name))).keys⟩) := by
  have hparts := Storage.partitions_of_topic? (Storage.topic?_createTopic_self b.storage name ks)
  simp only [Broker.createTopic, Broker.describe, TopicName.parse_val, bind, Except.bind, hparts,
    pure, Except.pure]

namespace Storage

/-- **Provisioning keeps history and is idempotent**, in every store reachable from an empty
one. Creating a topic with a list of keys, repeated keys and the empty key included, leaves
under the name a topic provisioned from the one there, or from a new topic with only its
default partition: every partition there keeps its log (its messages, start and high
watermark), every listed key it lacked gets an empty partition, the round-robin counter and the
sequence stay, and its keys, which are what `partitions` answers and what creating by name
reports, are the old keys and the listed ones, strictly ascending. A topic that was missing has
only empty partitions. Every other topic is left as it is, and creating the same keys again
changes nothing. -/
theorem provisioning_keeps_history_and_is_idempotent (n : Nat) (ops : List Op)
    (name : TopicName) (ks : List String) :
    let s := (create n).runOps ops
    let s' := s.createTopic name ks
    (∃ t', s'.topic? name = some t' ∧ s'.partitions name = .ok t'.keys ∧
      ((s.topic? name).getD (Topic.create name)).Provisioned ks t' ∧
      (s.topic? name = none → ∀ p ∈ t'.partitions, p = Partition.create name p.key) ∧
      ∀ nextConsumer active : Nat, Broker.createTopic ⟨s, nextConsumer, active⟩ name.val ks =
        .ok (⟨s', nextConsumer, active⟩, ⟨name.val, t'.keys⟩)) ∧
    (∀ name', name' ≠ name → s'.topic? name' = s.topic? name') ∧
    s'.createTopic name ks = s' := by
  intro s s'
  -- the topic provisioned is the one there, or a new one: either has the shape
  have hshape : ((s.topic? name).getD (Topic.create name)).Shape := by
    cases ht : s.topic? name with
    | none => exact Topic.shape_create name
    | some t => exact shaped_runOps n ops name t ht
  have hself := topic?_createTopic_self s name ks
  refine ⟨⟨_, hself, partitions_of_topic? hself, hshape.provisioned ks, fun hnone => ?_,
      fun nc a => Broker.createTopic_val ⟨s, nc, a⟩ name ks⟩,
    fun name' hne => ?_, createTopic_createTopic s name ks⟩
  · -- a new topic starts with its empty default partition, and every partition added is empty
    have hnew := hshape.provisioned ks
    have ht' := hshape.addPartitions ks
    rw [hnone, Option.getD_none] at hnew ht' ⊢
    refine hnew.empty_partitions ht' fun p hp => ?_
    rw [Topic.partitions_create, List.mem_singleton] at hp
    subst hp
    rfl
  · rw [topic?_createTopic, if_neg (Ne.symm hne)]

end Storage

end MessageBroker
