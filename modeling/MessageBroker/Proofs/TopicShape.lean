import Mathlib.Data.String.Basic
import MessageBroker.Proofs.StoreRun
/-!
# The shape of a topic

A topic keeps its partitions in cells and a map from keys to their identities: a list in
strictly ascending key order, so that each key names one partition and the round robin counts
them in key order. Apart from the map the topic holds a handle on its default partition, and a
read of the topic at an offset goes through that handle. The map binds `""` to the very
identity the handle holds when the topic is made, and no change rebinds it: a change either
adds a binding under a new key, or changes the partition of a cell in place, which every
reference to the cell sees. So reading "the default partition" of a topic and reading its
partition under `""` are one read.

This module states that shape as an invariant, shows that every change of a topic keeps it and
what each change does to the set of keys, and lifts it to every store reachable from an empty
one.

## Main definitions

* `Topic.Shape`: keys ascending, each bound to a partition of its own, `""` bound to the
  handle's identity, every partition of the topic itself
* `Topic.Change`, `Topic.change`, `Topic.changes`: the changes a topic goes through, and runs
* `Topic.Change.newKey`: the key a change may bring in
* `Storage.Shaped`: every topic of a store has the shape

## Main results

* `Topic.Shape.find?_default`: the map binds `""` to the partition the handle holds
* `Topic.Shape.change`, `Topic.Shape.changes`: every change, and so every run, keeps the shape
* `Topic.mem_keys_change`: a change adds at most its own key and removes none
* `Topic.mem_keys_addPartitions`: adding a list of keys adds exactly those
* `Topic.mem_keys_withKeys`: a topic made with keys has those and the default one
* `Storage.shaped_runOps`, `Storage.Shaped.explore_exactly`: the default partition read two ways
* `Topic.default_partition_agrees`: all of the above for every reachable topic and store
-/

namespace MessageBroker

/-! ## Inserting in key order keeps the keys ascending -/

theorem ascending_insertByKey {s : String × Nat} {l : List (String × Nat)}
    (hl : (l.map (·.1)).Pairwise (· < ·)) (hs : s.1 ∉ l.map (·.1)) :
    ((insertByKey s l).map (·.1)).Pairwise (· < ·) := by
  induction l with
  | nil => simp [insertByKey]
  | cons r rs ih =>
    obtain ⟨hr, hrs⟩ := List.pairwise_cons.mp (List.map_cons ▸ hl)
    have hsr : s.1 ≠ r.1 := fun h => hs (h ▸ List.mem_cons_self)
    have hsrs : s.1 ∉ rs.map (·.1) := fun h => hs (List.mem_cons_of_mem _ h)
    unfold insertByKey
    split
    · -- `s` goes first: it is below `r`, and so below everything after `r`
      rename_i hlt
      rw [List.map_cons, List.map_cons, List.pairwise_cons]
      refine ⟨fun k hk => ?_, List.map_cons ▸ hl⟩
      rcases List.mem_cons.mp hk with rfl | hk
      · exact hlt
      · exact lt_trans hlt (hr k hk)
    · -- `r` stays first: the keys are distinct, so `r` is below `s` too
      rename_i hge
      have hrs' : r.1 < s.1 := lt_of_le_of_ne (not_lt.mp hge) (Ne.symm hsr)
      rw [List.map_cons, List.pairwise_cons]
      refine ⟨fun k hk => ?_, ih hrs hsrs⟩
      obtain ⟨q, hq, rfl⟩ := List.mem_map.mp hk
      rcases mem_insertByKey.mp hq with rfl | hq
      · exact hrs'
      · exact hr q.1 (List.mem_map_of_mem hq)

namespace Topic

variable {t : Topic} {k : String}

/-! ## The shape -/

/-- **The shape of a topic**: the keys of its map are strictly ascending, each is bound to a
partition of that key, the default key `""` is bound to the very partition the handle holds, and
every partition belongs to the topic. -/
structure Shape (t : Topic) : Prop where
  ascending : t.keys.Pairwise (· < ·)
  keyed : t.Keyed
  handle : t.slot? "" = some t.defaultCell
  topic_eq : ∀ p ∈ t.partitions, p.topic = t.name

theorem Shape.nodup (h : t.Shape) : t.keys.Nodup := h.ascending.nodup

theorem Shape.default_mem (h : t.Shape) : "" ∈ t.keys := mem_keys_of_slot? h.handle

theorem Shape.mapped (h : t.Shape) : t.Mapped := ⟨h.keyed, h.nodup, h.default_mem⟩

/-- **The map binds the default key to the partition the handle holds.** -/
theorem Shape.find?_default (h : t.Shape) : t.find? "" = some t.defaultPartition :=
  find?_eq_some_iff.mpr ⟨_, h.handle, getElem?_defaultCell⟩

/-- Each partition is the one found under its own key. -/
theorem Shape.find?_self (h : t.Shape) {p : Partition} (hp : p ∈ t.partitions) :
    t.find? p.key = some p :=
  find?_of_mem h.keyed h.nodup hp

/-- What is found under a key is the partition of that key, and it belongs to the topic. -/
theorem Shape.find?_eq_some (h : t.Shape) {p : Partition} (hfind : t.find? k = some p) :
    p.key = k ∧ p.topic = t.name := by
  obtain ⟨hp, hpk⟩ := Topic.find?_eq_some h.keyed hfind
  exact ⟨hpk, h.topic_eq p hp⟩

/-- The round robin always finds a binding at the counter: the handle is never its fallback. -/
theorem Shape.isSome_roundRobin (h : t.Shape) :
    (t.slots[t.roundRobin % t.slots.length]?).isSome := by
  rw [List.getElem?_eq_getElem (Nat.mod_lt _ h.mapped.length_pos), Option.isSome_some]

theorem shape_create (name : TopicName) : (create name).Shape where
  ascending := by simp [create, keys]
  keyed := keyed_create name
  handle := by simp [create, slot?]
  topic_eq p hp := by
    rw [partitions_create, List.mem_singleton] at hp
    rw [hp]
    rfl

/-! ## Every change keeps the shape -/

/-- Adding a partition binds a new key in key order, to a new cell of the topic's name; the
binding of `""` stays. -/
theorem Shape.addPartition (h : t.Shape) (k : String) : (t.addPartition k).1.Shape := by
  by_cases hk : k ∈ t.keys
  · rwa [addPartition_of_mem hk]
  have hne : "" ≠ k := fun he => hk (he ▸ h.default_mem)
  rw [addPartition_of_not_mem hk]
  refine ⟨ascending_insertByKey h.ascending hk, h.keyed.makePartition, ?_, fun q hq => ?_⟩
  · rw [slot?_makePartition hk, if_neg hne, defaultCell_makePartition]
    exact h.handle
  · rcases List.mem_cons.mp (partitions_makePartition_perm.mem_iff.mp hq) with rfl | hq
    · rfl
    · exact h.topic_eq q hq

theorem Shape.addPartitions (h : t.Shape) (keys : List String) :
    (keys.foldl (fun t k => (t.addPartition k).1) t).Shape := by
  induction keys generalizing t with
  | nil => exact h
  | cons k keys ih => exact ih (h.addPartition k)

theorem shape_withKeys (name : TopicName) (keys : List String) : (withKeys name keys).Shape :=
  (shape_create name).addPartitions keys

/-- An append changes one cell in place: the map, the handle and the topic stay. -/
theorem Shape.appendTo (h : t.Shape) (k : String) (c : List UInt8) (e : Option Instant) :
    (t.appendTo k c e).1.Shape := by
  refine ⟨keys_appendTo (t := t) c e ▸ h.ascending, h.keyed.appendTo c e, ?_, fun q hq => ?_⟩
  · rw [slot?_appendTo, defaultCell_appendTo]
    exact h.handle
  · rw [name_appendTo]
    cases hfind : t.find? k with
    | none =>
      rw [appendTo_of_find?_none hfind] at hq
      exact h.topic_eq q hq
    | some p =>
      rcases mem_appendTo_cases hfind c e hq with hq | rfl
      · exact h.topic_eq q hq
      · exact (h.find?_eq_some hfind).2

theorem Shape.nextRoundRobin (h : t.Shape) : t.nextRoundRobin.1.Shape :=
  ⟨h.ascending, h.keyed, h.handle, h.topic_eq⟩

theorem Shape.route (h : t.Shape) (key : Option String) (c : List UInt8) (e : Option Instant) :
    (t.route key c e).1.Shape := by
  rw [route_eq h.mapped]
  rcases routeTarget_cases h.keyed key with hr | ⟨k, -, hr⟩ <;> rw [hr]
  · exact h.nextRoundRobin.appendTo _ c e
  · exact (h.addPartition k).appendTo k c e

theorem Shape.reset (h : t.Shape) : t.reset.Shape where
  ascending := keys_reset (t := t) ▸ h.ascending
  keyed := h.keyed.reset
  handle := by
    rw [slot?_reset, defaultCell_reset]
    exact h.handle
  topic_eq q hq := by
    rw [partitions_reset] at hq
    obtain ⟨p, hp, rfl⟩ := List.mem_map.mp hq
    rw [name_reset]
    exact h.topic_eq p hp

/-! ## Runs of changes -/

/-- A change a topic goes through: a partition added, a message routed and appended, or every
partition reset. -/
inductive Change where
  | addPartition (key : String)
  | route (key : Option String) (content : List UInt8) (expiresAt : Option Instant)
  | reset

/-- The topic after a change. -/
def change (t : Topic) : Change → Topic
  | .addPartition key => (t.addPartition key).1
  | .route key c e => (t.route key c e).1
  | .reset => t.reset

/-- The topic after a run of changes. -/
def changes (t : Topic) (cs : List Change) : Topic :=
  cs.foldl change t

/-- The key a change may bring in: that of an added partition, or the non-empty key of a
route. -/
def Change.newKey : Change → Option String
  | .addPartition key => some key
  | .route (some k) _ _ => if k = "" then none else some k
  | _ => none

@[simp] theorem changes_nil (t : Topic) : t.changes [] = t := rfl

@[simp] theorem changes_cons (t : Topic) (c : Change) (cs : List Change) :
    t.changes (c :: cs) = (t.change c).changes cs := rfl

theorem Shape.change (h : t.Shape) (c : Change) : (t.change c).Shape := by
  cases c with
  | addPartition k => exact h.addPartition k
  | route key c e => exact h.route key c e
  | reset => exact h.reset

/-- **Every run keeps the shape**, by induction on the changes. -/
theorem Shape.changes (h : t.Shape) (cs : List Change) : (t.changes cs).Shape := by
  induction cs generalizing t with
  | nil => exact h
  | cons c cs ih => exact ih (h.change c)

@[simp] theorem name_change (t : Topic) (c : Change) : (t.change c).name = t.name := by
  cases c <;> simp [change]

@[simp] theorem name_changes (t : Topic) (cs : List Change) : (t.changes cs).name = t.name := by
  induction cs generalizing t with
  | nil => rfl
  | cons c cs ih => rw [changes_cons, ih, name_change]

/-! ## What a change does to the keys -/

theorem mem_keys_addPartition {k' : String} :
    k' ∈ (t.addPartition k).1.keys ↔ k' = k ∨ k' ∈ t.keys := by
  by_cases hk : k ∈ t.keys
  · rw [addPartition_of_mem hk]
    constructor
    · exact .inr
    · rintro (rfl | h)
      · exact hk
      · exact h
  · rw [(keys_addPartition_perm hk).mem_iff, List.mem_cons]

/-- A route appends in place: it keeps the keys of the topic its target made ready. -/
theorem keys_route (key : Option String) (c : List UInt8) (e : Option Instant) :
    (t.route key c e).1.keys = (t.target key).1.keys := by
  rw [route_eq_appendAt]
  simp [keys]

theorem mem_keys_route {k' : String} (key : Option String) (c : List UInt8) (e : Option Instant) :
    k' ∈ (t.route key c e).1.keys ↔
      k' ∈ t.keys ∨ (Change.route key c e).newKey = some k' := by
  rw [keys_route]
  cases key with
  | none => exact ⟨.inl, fun h => h.resolve_right (by simp [Change.newKey])⟩
  | some k =>
    by_cases hk : k = ""
    · -- the empty key routes round robin and adds nothing
      simp only [target, hk, if_true, Change.newKey, keys_nextRoundRobin]
      exact ⟨.inl, fun h => h.resolve_right (by simp)⟩
    · simp only [target, hk, if_false]
      rw [keyedPartition_fst, mem_keys_addPartition]
      simp only [Change.newKey, hk, if_false, Option.some.injEq]
      rw [or_comm, @eq_comm _ k k']

/-- **A change adds at most its own key, and removes none.** -/
theorem mem_keys_change {k' : String} (c : Change) :
    k' ∈ (t.change c).keys ↔ k' ∈ t.keys ∨ c.newKey = some k' := by
  cases c with
  | addPartition k =>
    rw [change, mem_keys_addPartition, Change.newKey, Option.some.injEq, or_comm,
      @eq_comm _ k k']
  | route key c e => exact mem_keys_route key c e
  | reset => simp [change, keys_reset, Change.newKey]

/-- No run removes a key. -/
theorem keys_subset_changes {k' : String} (hk : k' ∈ t.keys) (cs : List Change) :
    k' ∈ (t.changes cs).keys := by
  induction cs generalizing t with
  | nil => exact hk
  | cons c cs ih => exact ih ((mem_keys_change c).mpr (.inl hk))

/-- The keys after adding a list: those there were and those listed. -/
theorem mem_keys_addPartitions {ks : List String} :
    k ∈ (ks.foldl (fun t k => (t.addPartition k).1) t).keys ↔ k ∈ t.keys ∨ k ∈ ks := by
  induction ks generalizing t with
  | nil => simp
  | cons k' ks ih =>
    rw [List.foldl_cons, ih, mem_keys_addPartition, List.mem_cons, @or_comm (k = k'), or_assoc]

/-- A topic made with keys has exactly those and the default one. -/
theorem mem_keys_withKeys (name : TopicName) (ks : List String) {k' : String} :
    k' ∈ (withKeys name ks).keys ↔ k' = "" ∨ k' ∈ ks := by
  rw [withKeys, mem_keys_addPartitions]
  simp [create, Topic.keys]

end Topic

/-! ## Stores -/

namespace Storage

variable {s : Storage} {name : TopicName}

/-- **Every topic of the store has the shape.** -/
def Shaped (s : Storage) : Prop :=
  ∀ name t, s.topic? name = some t → t.Shape

theorem shaped_create (n : Nat) : (create n).Shaped :=
  fun _ _ h => by simp [topic?_create] at h

theorem Shaped.saveTarget (h : s.Shaped) (name : TopicName) : (s.saveTarget name).Shape := by
  unfold Storage.saveTarget
  cases ht : s.topic? name with
  | none => exact Topic.shape_withKeys _ _
  | some t => exact h name t ht

theorem Shaped.apply (h : s.Shaped) (op : Op) : (s.apply op).Shaped := by
  intro name t' ht'
  rcases topic?_apply_cases (s := s) op name with
    ⟨-, hs⟩ | ⟨c, key, e, rfl, hs⟩ | ⟨keys, rfl, hs⟩ | ⟨rfl, hs⟩ <;> rw [hs] at ht'
  · exact h name t' ht'
  · cases ht'
    exact (h.saveTarget name).route key c e
  · -- a creation adds its keys to the topic there, or to a new one
    cases ht'
    cases ht : s.topic? name with
    | none => exact (Topic.shape_create name).addPartitions keys
    | some t => exact (h name t ht).addPartitions keys
  · obtain ⟨t, ht, rfl⟩ := Option.map_eq_some_iff.mp ht'
    exact (h _ t ht).reset

theorem Shaped.runOps (h : s.Shaped) (ops : List Op) : (s.runOps ops).Shaped := by
  induction ops generalizing s with
  | nil => exact h
  | cons op ops ih => exact ih (h.apply op)

/-- Every store reachable from an empty one is shaped. -/
theorem shaped_runOps (n : Nat) (ops : List Op) : ((create n).runOps ops).Shaped :=
  (shaped_create n).runOps ops

/-- **The default partition read two ways.** Reading a topic at an offset reads its default
partition through the handle, and reading its partition under `""` at that offset reads the
same one, since the map binds `""` to the handle's cell. -/
theorem Shaped.explore_exactly (h : s.Shaped) (name : TopicName) (o : Nat) :
    s.explore name (.exactly o) = s.explorePartition name "" (.exactly o) := by
  rw [explorePartition_exactly]
  unfold explore
  rw [topic_eq]
  cases ht : s.topic? name with
  | none => rfl
  | some t =>
    have hd := (h name t ht).find?_default
    cases hr : t.defaultPartition.readAt o <;> simp only [bind, Except.bind, hd, hr]

end Storage

namespace Topic

/-- **The default partition, the keys and the round robin of every reachable topic.** Make a
topic with any keys, the empty one and repeated ones included (with none, it is a new topic),
and run any changes on it: adding partitions, routing under any key, resetting. Then the map
binds `""` to the very partition the handle holds, each partition is found under its own key and
belongs to the topic, and the keys are strictly ascending; a change adds at most its own key and
removes none, and the topic was made with exactly the listed keys and the default one; so the map
is never empty, and the round robin always finds a binding at its counter. In every store
reachable from an empty one, every topic's map binds `""` to its handle, and reading a topic at
an offset and reading its partition under `""` at that offset answer the same. -/
theorem default_partition_agrees (name : TopicName) (keys : List String) (cs : List Change) :
    let t := (withKeys name keys).changes cs
    ((t.slot? "" = some t.defaultCell ∧ t.find? "" = some t.defaultPartition) ∧
      (∀ k p, t.find? k = some p → p.key = k ∧ p.topic = name) ∧
      (∀ p ∈ t.partitions, t.find? p.key = some p) ∧
      t.keys.Pairwise (· < ·)) ∧
    ((∀ c k, k ∈ (t.change c).keys ↔ k ∈ t.keys ∨ c.newKey = some k) ∧
      (∀ cs', ∀ k ∈ t.keys, k ∈ (t.changes cs').keys) ∧
      (∀ k, k ∈ (withKeys name keys).keys ↔ k = "" ∨ k ∈ keys)) ∧
    (0 < t.slots.length ∧ (t.slots[t.roundRobin % t.slots.length]?).isSome) ∧
    ∀ (n : Nat) (ops : List Storage.Op) (name' : TopicName),
      (∀ t', ((Storage.create n).runOps ops).topic? name' = some t' →
        t'.slot? "" = some t'.defaultCell) ∧
      ∀ o, ((Storage.create n).runOps ops).explore name' (.exactly o) =
        ((Storage.create n).runOps ops).explorePartition name' "" (.exactly o) := by
  intro t
  have h : t.Shape := (shape_withKeys name keys).changes cs
  have hname : t.name = name := by simp [t, withKeys]
  refine ⟨⟨⟨h.handle, h.find?_default⟩, fun k p hp => hname ▸ h.find?_eq_some hp,
      fun p hp => h.find?_self hp, h.ascending⟩,
    ⟨fun c k => mem_keys_change c, fun cs' k hk => keys_subset_changes hk cs',
      fun k => mem_keys_withKeys name keys⟩,
    ⟨h.mapped.length_pos, h.isSome_roundRobin⟩, fun n ops name' => ?_⟩
  have hs := Storage.shaped_runOps n ops
  exact ⟨fun t' ht' => (hs name' t' ht').handle, hs.explore_exactly name'⟩

end Topic

end MessageBroker
