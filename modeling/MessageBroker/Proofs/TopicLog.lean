import Mathlib
import MessageBroker.Log.Topic
import MessageBroker.Proofs.PartitionLog
/-!
# A topic refines the histories of its partitions

A topic keeps its partitions in cells, binds each key of its map to the identity of a cell,
and shares a sequence counter among them. Its meaning is one history per key: what was appended
under that key, in order, each entry with the sequence number it drew. This module gives the
laws of the cells and of the map, states when the map is sound (each key bound to a partition
of that key, distinct keys, the default key there), and states the relation between a topic
and such histories, with the accounting of the counter. Every way a topic changes keeps both:
adding a partition, routing and appending, resetting. It then reads the newest message of the
topic off the histories.

## Main definitions

* `Topic.Keyed`: each key of the map is bound to a partition of that key
* `Topic.Mapped`: the map is keyed, its keys are distinct, and the default key is one of them
* `Topic.Refines t hist`: the map is sound, the partitions of `t` refine the histories `hist`,
  and the counter is the number of entries, above all of them
* `Topic.routeTarget`: the topic a route appends to, and the key it lands on

## Main results

* `Topic.find?_modify`, `Topic.find?_addPartition`, `Topic.partitions_reset`: what each change
  does to the partitions the map finds
* `Topic.Refines.addPartition`, `Topic.Refines.reset`, `Topic.Refines.appendTo`,
  `Topic.Refines.route`: each change keeps the relation
* `Topic.route_eq`: in a sound map, a route appends under the key of the partition it picks
* `Topic.latest_addPartition`, `Topic.latest_reset`: neither changes the newest message
* `Topic.Refines.latest_appendTo`: after an append, the newest message is the one appended
-/

namespace MessageBroker

/-! ## The partition map -/

section Map

variable {l : List (String × Nat)} {s : String × Nat} {k : String}

theorem mem_insertByKey {r : String × Nat} : r ∈ insertByKey s l ↔ r = s ∨ r ∈ l := by
  rw [perm_insertByKey.mem_iff, List.mem_cons]

theorem filterMap_insertByKey {β : Type} {f : String × Nat → Option β} (hf : f s = none) :
    (insertByKey s l).filterMap f = l.filterMap f := by
  induction l with
  | nil => simp [insertByKey, hf]
  | cons r rs ih =>
    unfold insertByKey
    split
    · simp [hf]
    · simp only [List.filterMap_cons, ih]

theorem lookup_eq_none_iff_not_mem : l.lookup k = none ↔ k ∉ l.map (·.1) := by
  rw [List.lookup_eq_none_iff]
  simp only [List.mem_map, not_exists, not_and, bne_iff_ne, ne_eq]
  exact forall₂_congr fun r _ => ⟨fun h hr => h hr.symm, fun h hr => h hr.symm⟩

theorem mem_of_lookup_eq_some {i : Nat} (h : l.lookup k = some i) : (k, i) ∈ l := by
  obtain ⟨l₁, l₂, rfl, -⟩ := List.lookup_eq_some_iff.mp h
  simp

/-- Under distinct keys, the map finds each binding under its key. -/
theorem lookup_of_mem (hnd : (l.map (·.1)).Nodup) (hs : s ∈ l) : l.lookup s.1 = some s.2 := by
  induction l with
  | nil => exact absurd hs List.not_mem_nil
  | cons r rs ih =>
    obtain ⟨a, b⟩ := r
    rw [List.map_cons, List.nodup_cons] at hnd
    rcases List.mem_cons.mp hs with rfl | hs
    · exact List.lookup_cons_self
    · have hne : s.1 ≠ a := fun h => hnd.1 (List.mem_map.mpr ⟨s, hs, h⟩)
      rw [List.lookup_cons, beq_false_of_ne hne]
      exact ih hnd.2 hs

theorem lookup_insertByKey_of_ne (hk : s.1 ≠ k) : (insertByKey s l).lookup k = l.lookup k := by
  obtain ⟨x, y⟩ := s
  have hx : (k == x) = false := beq_false_of_ne (Ne.symm hk)
  induction l with
  | nil => rw [insertByKey, List.lookup_cons, hx]
  | cons r rs ih =>
    obtain ⟨a, b⟩ := r
    unfold insertByKey
    split
    · rw [List.lookup_cons, hx]
    · rw [List.lookup_cons, List.lookup_cons, ih]

theorem lookup_insertByKey_self (hs : s.1 ∉ l.map (·.1)) :
    (insertByKey s l).lookup s.1 = some s.2 := by
  obtain ⟨x, y⟩ := s
  induction l with
  | nil => exact List.lookup_cons_self
  | cons r rs ih =>
    obtain ⟨a, b⟩ := r
    rw [List.map_cons, List.mem_cons, not_or] at hs
    unfold insertByKey
    split
    · exact List.lookup_cons_self
    · rw [List.lookup_cons, beq_false_of_ne hs.1]
      exact ih hs.2

end Map

namespace Topic

variable {t : Topic} {hist : String → List Partition.Entry} {k : String} {i j : Nat}

/-! ## The cells: what each operation writes

Each operation is a write to one cell or a new cell, and leaves the map, the handle and the
counters as they are; the frame laws below say so once, for the later proofs to cite. -/

@[simp] theorem slots_update (f : Partition → Partition) : (t.update i f).slots = t.slots := rfl
@[simp] theorem name_update (f : Partition → Partition) : (t.update i f).name = t.name := rfl
@[simp] theorem sequence_update (f : Partition → Partition) :
    (t.update i f).sequence = t.sequence := rfl
@[simp] theorem roundRobin_update (f : Partition → Partition) :
    (t.update i f).roundRobin = t.roundRobin := rfl
@[simp] theorem defaultCell_update (f : Partition → Partition) :
    (t.update i f).defaultCell = t.defaultCell := rfl
@[simp] theorem keys_update (f : Partition → Partition) : (t.update i f).keys = t.keys := rfl
@[simp] theorem slot?_update (f : Partition → Partition) : (t.update i f).slot? k = t.slot? k :=
  rfl

@[simp] theorem getElem?_cells_update_self (f : Partition → Partition) :
    (t.update i f).cells[i]? = t.cells[i]?.map f := by
  simp [update]

theorem getElem?_cells_update_of_ne (f : Partition → Partition) (h : i ≠ j) :
    (t.update i f).cells[j]? = t.cells[j]? := by
  simp [update, h]

/-- After a write to one cell, each partition made is one there was or the write's result. -/
theorem mem_cells_update {f : Partition → Partition} {q : Partition}
    (hq : q ∈ (t.update i f).cells) : q ∈ t.cells ∨ ∃ p ∈ t.cells, q = f p := by
  obtain ⟨j, hj⟩ := List.mem_iff_getElem?.mp hq
  by_cases hij : i = j
  · subst hij
    rw [getElem?_cells_update_self] at hj
    obtain ⟨p, hp, rfl⟩ := Option.map_eq_some_iff.mp hj
    exact .inr ⟨p, List.mem_of_getElem? hp, rfl⟩
  · rw [getElem?_cells_update_of_ne f hij] at hj
    exact .inl (List.mem_of_getElem? hj)

@[simp] theorem slots_makePartition :
    (t.makePartition k).slots = insertByKey (k, t.cells.length) t.slots := rfl
@[simp] theorem cells_makePartition :
    (t.makePartition k).cells = t.cells ++ [Partition.create t.name k] := rfl
@[simp] theorem name_makePartition : (t.makePartition k).name = t.name := rfl
@[simp] theorem sequence_makePartition : (t.makePartition k).sequence = t.sequence := rfl
@[simp] theorem roundRobin_makePartition : (t.makePartition k).roundRobin = t.roundRobin := rfl
@[simp] theorem defaultCell_makePartition : (t.makePartition k).defaultCell = t.defaultCell :=
  rfl

/-- A new cell leaves every cell that was made as it is. -/
theorem getElem?_cells_makePartition (h : i < t.cells.length) :
    (t.makePartition k).cells[i]? = t.cells[i]? :=
  List.getElem?_append_left h

@[simp] theorem getElem?_cells_makePartition_self :
    (t.makePartition k).cells[t.cells.length]? = some (Partition.create t.name k) := by
  simp [makePartition]

@[simp] theorem cells_nextRoundRobin : t.nextRoundRobin.1.cells = t.cells := rfl
@[simp] theorem slots_nextRoundRobin : t.nextRoundRobin.1.slots = t.slots := rfl
@[simp] theorem name_nextRoundRobin : t.nextRoundRobin.1.name = t.name := rfl
@[simp] theorem sequence_nextRoundRobin : t.nextRoundRobin.1.sequence = t.sequence := rfl
@[simp] theorem roundRobin_nextRoundRobin :
    t.nextRoundRobin.1.roundRobin = t.roundRobin + 1 := rfl
@[simp] theorem keys_nextRoundRobin : t.nextRoundRobin.1.keys = t.keys := rfl
@[simp] theorem partitions_nextRoundRobin : t.nextRoundRobin.1.partitions = t.partitions := rfl
@[simp] theorem find?_nextRoundRobin : t.nextRoundRobin.1.find? k = t.find? k := rfl

/-- Every identity the map holds names a cell. -/
theorem exists_getElem?_of_mem_slots {s : String × Nat} (hs : s ∈ t.slots) :
    ∃ p, t.cells[s.2]? = some p :=
  ⟨_, List.getElem?_eq_getElem (t.slot_lt s hs)⟩

theorem getElem?_defaultCell : t.cells[t.defaultCell]? = some t.defaultPartition :=
  List.getElem?_eq_getElem t.defaultCell_lt

/-- Two keys bound to one identity are one key: no two keys share a partition. -/
theorem eq_of_mem_slots {a b : String} (ha : (a, i) ∈ t.slots) (hb : (b, i) ∈ t.slots) :
    a = b :=
  congrArg Prod.fst (List.inj_on_of_nodup_map t.nodup_ids ha hb rfl)

/-! ## Looking partitions up -/

theorem slot?_eq_none : t.slot? k = none ↔ k ∉ t.keys := lookup_eq_none_iff_not_mem

theorem mem_slots_of_slot? (h : t.slot? k = some i) : (k, i) ∈ t.slots :=
  mem_of_lookup_eq_some h

theorem mem_keys_of_slot? (h : t.slot? k = some i) : k ∈ t.keys :=
  List.mem_map.mpr ⟨_, mem_slots_of_slot? h, rfl⟩

theorem find?_eq_some_iff {p : Partition} :
    t.find? k = some p ↔ ∃ i, t.slot? k = some i ∧ t.cells[i]? = some p :=
  Option.bind_eq_some_iff

theorem mem_partitions {p : Partition} :
    p ∈ t.partitions ↔ ∃ s ∈ t.slots, t.cells[s.2]? = some p :=
  List.mem_filterMap

theorem find?_eq_none : t.find? k = none ↔ k ∉ t.keys := by
  rw [← slot?_eq_none]
  cases hs : t.slot? k with
  | none => simp [find?, hs]
  | some i =>
    obtain ⟨p, hp⟩ := exists_getElem?_of_mem_slots (mem_slots_of_slot? hs)
    simp [find?, hs, hp]

theorem exists_find?_of_mem (hk : k ∈ t.keys) : ∃ p, t.find? k = some p :=
  Option.ne_none_iff_exists'.mp fun h => find?_eq_none.mp h hk

theorem mem_of_find? {p : Partition} (h : t.find? k = some p) : p ∈ t.partitions := by
  obtain ⟨i, hs, hp⟩ := find?_eq_some_iff.mp h
  exact mem_partitions.mpr ⟨_, mem_slots_of_slot? hs, hp⟩

theorem mem_cells_of_find? {p : Partition} (h : t.find? k = some p) : p ∈ t.cells := by
  obtain ⟨i, -, hp⟩ := find?_eq_some_iff.mp h
  exact List.mem_of_getElem? hp

theorem slot?_of_mem_slots {s : String × Nat} (hnd : t.keys.Nodup) (hs : s ∈ t.slots) :
    t.slot? s.1 = some s.2 :=
  lookup_of_mem hnd hs

/-! ## A sound map -/

/-- **Each key of the map is bound to a partition of that key.** -/
def Keyed (t : Topic) : Prop :=
  ∀ s ∈ t.slots, ∀ p, t.cells[s.2]? = some p → p.key = s.1

/-- **The partition map is sound**: each key is bound to a partition of that key, the keys are
distinct, and the default key is one of them. -/
structure Mapped (t : Topic) : Prop where
  keyed : t.Keyed
  nodup : t.keys.Nodup
  default_mem : "" ∈ t.keys

theorem Keyed.key_of_find? (h : t.Keyed) {p : Partition} (hp : t.find? k = some p) :
    p.key = k := by
  obtain ⟨i, hs, hi⟩ := find?_eq_some_iff.mp hp
  exact h _ (mem_slots_of_slot? hs) p hi

theorem find?_eq_some (h : t.Keyed) {p : Partition} (hp : t.find? k = some p) :
    p ∈ t.partitions ∧ p.key = k :=
  ⟨mem_of_find? hp, h.key_of_find? hp⟩

theorem Keyed.mem_keys (h : t.Keyed) : k ∈ t.keys ↔ ∃ p ∈ t.partitions, p.key = k := by
  constructor
  · intro hk
    obtain ⟨p, hp⟩ := exists_find?_of_mem hk
    exact ⟨p, find?_eq_some h hp⟩
  · rintro ⟨p, hp, rfl⟩
    obtain ⟨s, hs, hsp⟩ := mem_partitions.mp hp
    rw [h s hs p hsp]
    exact List.mem_map_of_mem hs

/-- Under distinct keys, a partition is found under its own key. -/
theorem find?_of_mem (h : t.Keyed) (hnd : t.keys.Nodup) {p : Partition}
    (hp : p ∈ t.partitions) : t.find? p.key = some p := by
  obtain ⟨s, hs, hsp⟩ := mem_partitions.mp hp
  rw [h s hs p hsp]
  exact find?_eq_some_iff.mpr ⟨s.2, slot?_of_mem_slots hnd hs, hsp⟩

theorem Keyed.keys_eq (h : t.Keyed) : t.keys = t.partitions.map (·.key) := by
  -- each binding reads back as its own key
  have hslots : ∀ s ∈ t.slots, (t.cells[s.2]?).map (·.key) = (some ∘ fun s => s.1) s := by
    intro s hs
    obtain ⟨p, hp⟩ := exists_getElem?_of_mem_slots hs
    rw [hp, Option.map_some, h s hs p hp]
    rfl
  rw [partitions, List.map_filterMap, List.filterMap_congr hslots, List.filterMap_eq_map]
  rfl

theorem keyed_create (name : TopicName) : (create name).Keyed := by
  intro s hs p hp
  rw [create, List.mem_singleton] at hs
  subst hs
  cases hp
  rfl

/-- Writing a cell with a partition of the same key keeps the map keyed. -/
theorem Keyed.update (h : t.Keyed) {f : Partition → Partition}
    (hf : ∀ p, t.cells[i]? = some p → (f p).key = p.key) : (t.update i f).Keyed := by
  intro s hs p hp
  rw [slots_update] at hs
  by_cases hi : i = s.2
  · rw [hi, getElem?_cells_update_self] at hp
    obtain ⟨q, hq, rfl⟩ := Option.map_eq_some_iff.mp hp
    rw [hf q (by rw [hi]; exact hq), h s hs q hq]
  · rw [getElem?_cells_update_of_ne f hi] at hp
    exact h s hs p hp

theorem Keyed.makePartition (h : t.Keyed) : (t.makePartition k).Keyed := by
  intro s hs p hp
  rcases mem_insertByKey.mp hs with rfl | hs
  · rw [getElem?_cells_makePartition_self] at hp
    cases hp
    rfl
  · rw [getElem?_cells_makePartition (t.slot_lt s hs)] at hp
    exact h s hs p hp

theorem Mapped.keyed_create (name : TopicName) : (create name).Mapped where
  keyed := Topic.keyed_create name
  nodup := by simp [create, keys]
  default_mem := by simp [create, keys]


/-! ## What each change does to the partitions -/

/-- Two keys the map binds are bound to distinct partitions. -/
theorem ne_of_slot? {k' : String} {j : Nat} (hi : t.slot? k = some i) (hj : t.slot? k' = some j)
    (hne : k ≠ k') : i ≠ j := by
  rintro rfl
  exact hne (eq_of_mem_slots (mem_slots_of_slot? hi) (mem_slots_of_slot? hj))

theorem exists_getElem?_of_slot? (h : t.slot? k = some i) : ∃ p, t.cells[i]? = some p :=
  exists_getElem?_of_mem_slots (mem_slots_of_slot? h)

theorem mem_partitions_update {f : Partition → Partition} {q' : Partition} :
    q' ∈ (t.update i f).partitions ↔
      ∃ s ∈ t.slots, ∃ q, t.cells[s.2]? = some q ∧ (if s.2 = i then f q else q) = q' := by
  rw [mem_partitions, slots_update]
  refine exists_congr fun s => and_congr_right fun _ => ?_
  by_cases hs : i = s.2
  · subst hs
    simp only [getElem?_cells_update_self, Option.map_eq_some_iff, ↓reduceIte]
  · simp only [getElem?_cells_update_of_ne f hs, if_neg (Ne.symm hs)]
    exact ⟨fun h => ⟨q', h, rfl⟩, fun ⟨q, hq, hqq⟩ => hqq ▸ hq⟩

/-- Writing the cell a key is bound to changes what that key finds, and nothing else. -/
theorem find?_update_of_slot? (hi : t.slot? k = some i) (f : Partition → Partition)
    (k' : String) :
    (t.update i f).find? k' = if k' = k then (t.find? k).map f else t.find? k' := by
  by_cases hk : k' = k
  · subst hk
    simp [find?, hi]
  · rw [if_neg hk]
    cases hj : t.slot? k' with
    | none => simp [find?, hj]
    | some j => simp [find?, hj, getElem?_cells_update_of_ne f (ne_of_slot? hi hj (Ne.symm hk))]

theorem find?_modify (f : Partition → Partition) (k' : String) :
    (t.modify k f).find? k' = if k' = k then (t.find? k).map f else t.find? k' := by
  cases hi : t.slot? k with
  | some i =>
    simp only [modify, hi]
    exact find?_update_of_slot? hi f k'
  | none =>
    have hnone : t.find? k = none := by simp [find?, hi]
    by_cases hk : k' = k
    · subst hk
      simp [modify, hi, hnone]
    · simp [modify, hi, hk]

theorem appendAt_of_getElem? {p : Partition} (h : t.cells[i]? = some p) (c : List UInt8)
    (e : Option Instant) :
    t.appendAt i c e =
      ({ t.update i (fun _ => (p.append t.sequence c e).1) with sequence := t.sequence + 1 },
        p.key, p.next) := by
  simp [appendAt, h]

@[simp] theorem slots_appendAt (c : List UInt8) (e : Option Instant) :
    (t.appendAt i c e).1.slots = t.slots := by
  unfold appendAt
  split <;> rfl

@[simp] theorem name_appendAt (c : List UInt8) (e : Option Instant) :
    (t.appendAt i c e).1.name = t.name := by
  unfold appendAt
  split <;> rfl

@[simp] theorem roundRobin_appendAt (c : List UInt8) (e : Option Instant) :
    (t.appendAt i c e).1.roundRobin = t.roundRobin := by
  unfold appendAt
  split <;> rfl

@[simp] theorem defaultCell_appendAt (c : List UInt8) (e : Option Instant) :
    (t.appendAt i c e).1.defaultCell = t.defaultCell := by
  unfold appendAt
  split <;> rfl

theorem appendTo_of_find? {p : Partition} (h : t.find? k = some p) (c : List UInt8)
    (e : Option Instant) :
    t.appendTo k c e =
      ({ t.modify k (fun _ => (p.append t.sequence c e).1) with sequence := t.sequence + 1 },
        p.next) := by
  obtain ⟨i, hi, hp⟩ := find?_eq_some_iff.mp h
  simp [appendTo, modify, hi, appendAt_of_getElem? hp]

theorem appendTo_of_find?_none (h : t.find? k = none) (c : List UInt8) (e : Option Instant) :
    t.appendTo k c e = (t, 0) := by
  have hs : t.slot? k = none := slot?_eq_none.mpr (find?_eq_none.mp h)
  unfold appendTo
  rw [hs]

@[simp] theorem slots_appendTo (c : List UInt8) (e : Option Instant) :
    (t.appendTo k c e).1.slots = t.slots := by
  unfold appendTo
  split <;> simp

theorem keys_appendTo (c : List UInt8) (e : Option Instant) :
    (t.appendTo k c e).1.keys = t.keys := by
  simp [keys]

@[simp] theorem slot?_appendTo (c : List UInt8) (e : Option Instant) (k' : String) :
    (t.appendTo k c e).1.slot? k' = t.slot? k' := by
  simp [slot?]

@[simp] theorem defaultCell_appendTo (c : List UInt8) (e : Option Instant) :
    (t.appendTo k c e).1.defaultCell = t.defaultCell := by
  unfold appendTo
  split <;> simp

@[simp] theorem name_appendTo (c : List UInt8) (e : Option Instant) :
    (t.appendTo k c e).1.name = t.name := by
  unfold appendTo
  split <;> simp

@[simp] theorem roundRobin_appendTo (c : List UInt8) (e : Option Instant) :
    (t.appendTo k c e).1.roundRobin = t.roundRobin := by
  unfold appendTo
  split <;> simp

theorem sequence_appendTo {p : Partition} (hfind : t.find? k = some p) (c : List UInt8)
    (e : Option Instant) : (t.appendTo k c e).1.sequence = t.sequence + 1 := by
  rw [appendTo_of_find? hfind]

theorem find?_appendTo {p : Partition} (hfind : t.find? k = some p) (c : List UInt8)
    (e : Option Instant) (k' : String) :
    (t.appendTo k c e).1.find? k' =
      if k' = k then some (p.append t.sequence c e).1 else t.find? k' := by
  rw [appendTo_of_find? hfind]
  have := find?_modify (t := t) (k := k) (fun _ => (p.append t.sequence c e).1) k'
  rwa [hfind, Option.map_some] at this

/-- After an append, each partition is one that was there or the one appended to. -/
theorem mem_appendTo_cases {p : Partition} (hfind : t.find? k = some p) (c : List UInt8)
    (e : Option Instant) {q' : Partition} (hq' : q' ∈ (t.appendTo k c e).1.partitions) :
    q' ∈ t.partitions ∨ q' = (p.append t.sequence c e).1 := by
  obtain ⟨i, hi, -⟩ := find?_eq_some_iff.mp hfind
  rw [appendTo_of_find? hfind] at hq'
  change q' ∈ (t.modify k _).partitions at hq'
  simp only [modify, hi] at hq'
  obtain ⟨s, hs, q, hq, rfl⟩ := mem_partitions_update.mp hq'
  by_cases hsi : s.2 = i
  · exact .inr (if_pos hsi)
  · rw [if_neg hsi]
    exact .inl (mem_partitions.mpr ⟨s, hs, hq⟩)

/-- In a keyed map with distinct keys, a binding is the one of a key exactly when its partition
has that key. -/
theorem Keyed.key_eq_iff (h : t.Keyed) (hnd : t.keys.Nodup) (hi : t.slot? k = some i)
    {s : String × Nat} (hs : s ∈ t.slots) {q : Partition} (hq : t.cells[s.2]? = some q) :
    q.key = k ↔ s.2 = i := by
  rw [h s hs q hq]
  constructor
  · rintro rfl
    rw [slot?_of_mem_slots hnd hs] at hi
    exact Option.some.inj hi
  · rintro rfl
    exact eq_of_mem_slots (Prod.mk.eta ▸ hs) (mem_slots_of_slot? hi)

theorem mem_appendTo (h : t.Keyed) (hnd : t.keys.Nodup) {p : Partition}
    (hfind : t.find? k = some p) (c : List UInt8) (e : Option Instant) {q' : Partition} :
    q' ∈ (t.appendTo k c e).1.partitions ↔
      ∃ q ∈ t.partitions, (if q.key = k then (p.append t.sequence c e).1 else q) = q' := by
  obtain ⟨i, hi, -⟩ := find?_eq_some_iff.mp hfind
  rw [appendTo_of_find? hfind]
  change q' ∈ (t.modify k _).partitions ↔ _
  simp only [modify, hi]
  rw [mem_partitions_update]
  constructor
  · rintro ⟨s, hs, q, hq, rfl⟩
    exact ⟨q, mem_partitions.mpr ⟨s, hs, hq⟩, by simp only [h.key_eq_iff hnd hi hs hq]⟩
  · rintro ⟨q, hq, rfl⟩
    obtain ⟨s, hs, hsq⟩ := mem_partitions.mp hq
    exact ⟨s, hs, q, hsq, by simp only [h.key_eq_iff hnd hi hs hsq]⟩

theorem addPartition_of_not_mem (hk : k ∉ t.keys) :
    t.addPartition k = (t.makePartition k, true) := by
  simp [addPartition, hk]

theorem slot?_makePartition (hk : k ∉ t.keys) (k' : String) :
    (t.makePartition k).slot? k' = if k' = k then some t.cells.length else t.slot? k' := by
  by_cases h : k' = k
  · rw [if_pos h, h]
    exact lookup_insertByKey_self (l := t.slots) (s := (k, t.cells.length)) hk
  · rw [if_neg h]
    exact lookup_insertByKey_of_ne (Ne.symm h)

theorem find?_makePartition (hk : k ∉ t.keys) (k' : String) :
    (t.makePartition k).find? k' =
      if k' = k then some (Partition.create t.name k) else t.find? k' := by
  unfold find?
  rw [slot?_makePartition hk]
  by_cases h : k' = k
  · simp [h]
  · rw [if_neg h, if_neg h]
    cases hs : t.slot? k' with
    | none => rfl
    | some j =>
      exact getElem?_cells_makePartition (t.slot_lt _ (mem_slots_of_slot? hs))

theorem find?_addPartition (k' : String) :
    (t.addPartition k).1.find? k' =
      if k' = k ∧ k ∉ t.keys then some (Partition.create t.name k) else t.find? k' := by
  by_cases hk : k ∈ t.keys
  · simp [addPartition_of_mem hk, hk]
  · rw [addPartition_of_not_mem hk, find?_makePartition hk]
    simp [hk]

/-- A new partition joins the others, which it leaves as they are. -/
theorem partitions_makePartition_perm :
    List.Perm (t.makePartition k).partitions (Partition.create t.name k :: t.partitions) := by
  have hold : ∀ s ∈ t.slots, (t.makePartition k).cells[s.2]? = t.cells[s.2]? := fun s hs =>
    getElem?_cells_makePartition (t.slot_lt s hs)
  unfold partitions
  refine (perm_insertByKey.filterMap _).trans ?_
  rw [List.filterMap_cons, getElem?_cells_makePartition_self, List.filterMap_congr hold]

theorem mem_addPartition {q : Partition} :
    q ∈ (t.addPartition k).1.partitions ↔
      (q = Partition.create t.name k ∧ k ∉ t.keys) ∨ q ∈ t.partitions := by
  by_cases hk : k ∈ t.keys
  · simp [addPartition_of_mem hk, hk]
  · rw [addPartition_of_not_mem hk, partitions_makePartition_perm.mem_iff, List.mem_cons]
    simp [hk]

theorem keys_addPartition_perm (hk : k ∉ t.keys) :
    List.Perm (t.addPartition k).1.keys (k :: t.keys) := by
  rw [addPartition_of_not_mem hk]
  exact perm_insertByKey.map _

theorem keys_subset_addPartition {k' : String} (h : k' ∈ t.keys) :
    k' ∈ (t.addPartition k).1.keys := by
  by_cases hk : k ∈ t.keys
  · rwa [addPartition_of_mem hk]
  · exact (keys_addPartition_perm hk).mem_iff.mpr (List.mem_cons_of_mem _ h)

@[simp] theorem sequence_addPartition : (t.addPartition k).1.sequence = t.sequence := by
  unfold addPartition
  split <;> rfl

@[simp] theorem name_addPartition : (t.addPartition k).1.name = t.name := by
  unfold addPartition
  split <;> rfl

@[simp] theorem sequence_create (name : TopicName) : (create name).sequence = 0 := rfl

@[simp] theorem name_create (name : TopicName) : (create name).name = name := rfl

@[simp] theorem partitions_create (name : TopicName) :
    (create name).partitions = [Partition.create name ""] := rfl

@[simp] theorem sequence_addPartitions (keys : List String) :
    (keys.foldl (fun t k => (t.addPartition k).1) t).sequence = t.sequence := by
  induction keys generalizing t with
  | nil => rfl
  | cons k keys ih => rw [List.foldl_cons, ih, sequence_addPartition]

@[simp] theorem name_addPartitions (keys : List String) :
    (keys.foldl (fun t k => (t.addPartition k).1) t).name = t.name := by
  induction keys generalizing t with
  | nil => rfl
  | cons k keys ih => rw [List.foldl_cons, ih, name_addPartition]

/-- Adding a partition leaves every partition that is there as it is. -/
theorem find?_addPartition_of_some {k' : String} {p : Partition} (hp : t.find? k' = some p) :
    (t.addPartition k).1.find? k' = some p := by
  obtain ⟨i, hi, -⟩ := find?_eq_some_iff.mp hp
  have hk' := mem_keys_of_slot? hi
  rw [find?_addPartition, if_neg (by rintro ⟨rfl, hk⟩; exact hk hk'), hp]

theorem find?_addPartitions_of_some {k' : String} {p : Partition} (hp : t.find? k' = some p)
    (keys : List String) : (keys.foldl (fun t k => (t.addPartition k).1) t).find? k' = some p := by
  induction keys generalizing t with
  | nil => exact hp
  | cons k keys ih => exact ih (find?_addPartition_of_some hp)

theorem Keyed.addPartition (h : t.Keyed) : (t.addPartition k).1.Keyed := by
  by_cases hk : k ∈ t.keys
  · rwa [addPartition_of_mem hk]
  · rw [addPartition_of_not_mem hk]
    exact h.makePartition

/-! ## Resetting every partition of the map -/

section Reset

variable {g : Partition → Partition}

/-- Writing the cells of a list of bindings, with no identity twice, writes each of them once. -/
theorem getElem?_cells_foldl_update {L : List (String × Nat)} (hL : (L.map (·.2)).Nodup)
    (t : Topic) (j : Nat) :
    (L.foldl (fun t s => t.update s.2 g) t).cells[j]? =
      if j ∈ L.map (·.2) then t.cells[j]?.map g else t.cells[j]? := by
  induction L generalizing t with
  | nil => simp
  | cons s L ih =>
    rw [List.map_cons, List.nodup_cons] at hL
    rw [List.foldl_cons, ih hL.2]
    by_cases hj : j = s.2
    · subst hj
      rw [if_neg hL.1, getElem?_cells_update_self, List.map_cons, if_pos List.mem_cons_self]
    · simp only [List.map_cons, List.mem_cons, hj, false_or,
        getElem?_cells_update_of_ne g (Ne.symm hj)]

@[simp] theorem slots_foldl_update (L : List (String × Nat)) (t : Topic) :
    (L.foldl (fun t s => t.update s.2 g) t).slots = t.slots := by
  induction L generalizing t with
  | nil => rfl
  | cons s L ih => rw [List.foldl_cons, ih, slots_update]

@[simp] theorem name_foldl_update (L : List (String × Nat)) (t : Topic) :
    (L.foldl (fun t s => t.update s.2 g) t).name = t.name := by
  induction L generalizing t with
  | nil => rfl
  | cons s L ih => rw [List.foldl_cons, ih, name_update]

@[simp] theorem sequence_foldl_update (L : List (String × Nat)) (t : Topic) :
    (L.foldl (fun t s => t.update s.2 g) t).sequence = t.sequence := by
  induction L generalizing t with
  | nil => rfl
  | cons s L ih => rw [List.foldl_cons, ih, sequence_update]

@[simp] theorem roundRobin_foldl_update (L : List (String × Nat)) (t : Topic) :
    (L.foldl (fun t s => t.update s.2 g) t).roundRobin = t.roundRobin := by
  induction L generalizing t with
  | nil => rfl
  | cons s L ih => rw [List.foldl_cons, ih, roundRobin_update]

@[simp] theorem defaultCell_foldl_update (L : List (String × Nat)) (t : Topic) :
    (L.foldl (fun t s => t.update s.2 g) t).defaultCell = t.defaultCell := by
  induction L generalizing t with
  | nil => rfl
  | cons s L ih => rw [List.foldl_cons, ih, defaultCell_update]

end Reset

theorem getElem?_cells_reset (j : Nat) :
    t.reset.cells[j]? = if j ∈ t.slots.map (·.2) then t.cells[j]?.map (·.reset.1)
      else t.cells[j]? :=
  getElem?_cells_foldl_update t.nodup_ids t j

/-- After a reset, each partition made is one there was, or one there was reset. -/
theorem mem_cells_reset {q : Partition} (hq : q ∈ t.reset.cells) :
    q ∈ t.cells ∨ ∃ p ∈ t.cells, q = p.reset.1 := by
  obtain ⟨j, hj⟩ := List.mem_iff_getElem?.mp hq
  rw [getElem?_cells_reset] at hj
  split at hj
  · obtain ⟨p, hp, rfl⟩ := Option.map_eq_some_iff.mp hj
    exact .inr ⟨p, List.mem_of_getElem? hp, rfl⟩
  · exact .inl (List.mem_of_getElem? hj)

@[simp] theorem slots_reset : t.reset.slots = t.slots := slots_foldl_update _ _
@[simp] theorem name_reset : t.reset.name = t.name := name_foldl_update _ _
@[simp] theorem sequence_reset : t.reset.sequence = t.sequence := sequence_foldl_update _ _
@[simp] theorem roundRobin_reset : t.reset.roundRobin = t.roundRobin :=
  roundRobin_foldl_update _ _
@[simp] theorem defaultCell_reset : t.reset.defaultCell = t.defaultCell :=
  defaultCell_foldl_update _ _

@[simp] theorem slot?_reset (k : String) : t.reset.slot? k = t.slot? k :=
  congrArg (List.lookup k) slots_reset

theorem keys_reset : t.reset.keys = t.keys := by
  rw [keys, slots_reset]
  rfl

/-- **A reset resets every partition of the map, each once.** -/
theorem partitions_reset : t.reset.partitions = t.partitions.map (·.reset.1) := by
  rw [partitions, partitions, List.map_filterMap, slots_reset]
  refine List.filterMap_congr fun s hs => ?_
  rw [getElem?_cells_reset, if_pos (List.mem_map_of_mem hs)]

theorem Keyed.reset (h : t.Keyed) : t.reset.Keyed := by
  intro s hs p hp
  rw [slots_reset] at hs
  rw [getElem?_cells_reset, if_pos (List.mem_map_of_mem hs)] at hp
  obtain ⟨q, hq, rfl⟩ := Option.map_eq_some_iff.mp hp
  rw [Partition.key_reset]
  exact h s hs q hq

theorem Keyed.appendTo (h : t.Keyed) (c : List UInt8) (e : Option Instant) :
    (t.appendTo k c e).1.Keyed := by
  cases hfind : t.find? k with
  | none =>
    rw [appendTo_of_find?_none hfind]
    exact h
  | some p =>
    obtain ⟨i, hi, hp⟩ := find?_eq_some_iff.mp hfind
    rw [appendTo_of_find? hfind]
    change (t.modify k _).Keyed
    simp only [modify, hi]
    refine h.update fun q hq => ?_
    rw [hp] at hq
    cases hq
    rfl

/-! ## The refinement relation -/

/-- **The topic refines the histories `hist`**: its map is keyed, its keys are distinct and
include the default one; each partition refines the history of its key, and a key with no
partition has an empty history; the counter is the number of entries of all histories and lies
above every sequence number drawn, and in each history sequence numbers increase. -/
structure Refines (t : Topic) (hist : String → List Partition.Entry) : Prop where
  keyed : t.Keyed
  nodup : t.keys.Nodup
  default_mem : "" ∈ t.keys
  partition : ∀ p ∈ t.partitions, p.Refines (hist p.key)
  absent : ∀ k, k ∉ t.keys → hist k = []
  sequence_eq : t.sequence = (t.keys.map fun k => (hist k).length).sum
  sequence_lt : ∀ k, ∀ e ∈ hist k, e.sequence < t.sequence
  ordered : ∀ k, ((hist k).map (·.sequence)).Pairwise (· < ·)

theorem Refines.mapped (h : t.Refines hist) : t.Mapped :=
  ⟨h.keyed, h.nodup, h.default_mem⟩

theorem refines_create (name : TopicName) : (create name).Refines fun _ => [] where
  keyed := keyed_create name
  nodup := by simp [create, keys]
  default_mem := by simp [create, keys]
  partition p hp := by
    obtain ⟨s, hs, hp⟩ := mem_partitions.mp hp
    simp only [create, List.mem_singleton] at hs
    subst hs
    cases hp
    exact Partition.refines_create name ""
  absent _ _ := rfl
  sequence_eq := by simp [create, keys]
  sequence_lt _ _ he := absurd he List.not_mem_nil
  ordered _ := List.Pairwise.nil

/-- Adding a partition changes no history: a key without partition had an empty one. -/
theorem Refines.addPartition (h : t.Refines hist) (k : String) :
    (t.addPartition k).1.Refines hist := by
  by_cases hk : k ∈ t.keys
  · rwa [addPartition_of_mem hk]
  have hperm := keys_addPartition_perm (t := t) hk
  refine ⟨h.keyed.addPartition, hperm.nodup_iff.mpr (List.nodup_cons.mpr ⟨hk, h.nodup⟩),
    keys_subset_addPartition h.default_mem, ?_, ?_, ?_, ?_, ?_⟩
  · intro q hq
    rcases mem_addPartition.mp hq with ⟨rfl, -⟩ | hq
    · rw [Partition.key_create, h.absent k hk]
      exact Partition.refines_create t.name k
    · exact h.partition q hq
  · exact fun k' hk' => h.absent k' fun hm => hk' (keys_subset_addPartition hm)
  · rw [sequence_addPartition, (hperm.map fun k => (hist k).length).sum_nat, List.map_cons,
      List.sum_cons, h.absent k hk, List.length_nil, Nat.zero_add, h.sequence_eq]
  · intro k' e he
    rw [sequence_addPartition]
    exact h.sequence_lt k' e he
  · exact h.ordered

/-- The partition found under a key refines the history of the key. -/
theorem Refines.partition_of_find? (h : t.Refines hist) {p : Partition}
    (hfind : t.find? k = some p) : p.Refines (hist k) := by
  obtain ⟨hp, hpk⟩ := find?_eq_some h.keyed hfind
  exact hpk ▸ h.partition p hp

theorem Refines.addPartitions (h : t.Refines hist) (keys : List String) :
    (keys.foldl (fun t k => (t.addPartition k).1) t).Refines hist := by
  induction keys generalizing t with
  | nil => exact h
  | cons k keys ih => exact ih (h.addPartition k)

theorem refines_withKeys (name : TopicName) (keys : List String) :
    (withKeys name keys).Refines fun _ => [] :=
  (refines_create name).addPartitions keys

/-- A reset changes no history. -/
theorem Refines.reset (h : t.Refines hist) : t.reset.Refines hist where
  keyed := h.keyed.reset
  nodup := by rw [keys_reset]; exact h.nodup
  default_mem := by rw [keys_reset]; exact h.default_mem
  partition q hq := by
    rw [partitions_reset] at hq
    obtain ⟨p, hp, rfl⟩ := List.mem_map.mp hq
    exact (h.partition p hp).reset
  absent k hk := h.absent k (by rwa [keys_reset] at hk)
  sequence_eq := by rw [keys_reset, sequence_reset]; exact h.sequence_eq
  sequence_lt := by rw [sequence_reset]; exact h.sequence_lt
  ordered := h.ordered

theorem Refines.nextRoundRobin (h : t.Refines hist) : t.nextRoundRobin.1.Refines hist :=
  ⟨h.keyed, h.nodup, h.default_mem, h.partition, h.absent, h.sequence_eq, h.sequence_lt,
    h.ordered⟩

theorem sum_length_update {L : List String} (hnd : L.Nodup) (hk : k ∈ L) (e : Partition.Entry) :
    (L.map fun k' => (Function.update hist k (hist k ++ [e]) k').length).sum =
      (L.map fun k' => (hist k').length).sum + 1 := by
  induction L with
  | nil => exact absurd hk List.not_mem_nil
  | cons a L ih =>
    rw [List.nodup_cons] at hnd
    simp only [List.map_cons, List.sum_cons]
    by_cases ha : a = k
    · subst ha
      have hrest : (L.map fun k' => (Function.update hist a (hist a ++ [e]) k').length) =
          L.map fun k' => (hist k').length :=
        List.map_congr_left fun k' hk' => by
          rw [Function.update_of_ne (by rintro rfl; exact hnd.1 hk')]
      rw [hrest, Function.update_self, List.length_append, List.length_singleton]
      omega
    · have hkL : k ∈ L := (List.mem_cons.mp hk).resolve_left (Ne.symm ha)
      rw [Function.update_of_ne ha, ih hnd.2 hkL]
      omega

/-- **An append extends the history of its key** by an entry with the counter's sequence
number, and the counter moves on. -/
theorem Refines.appendTo (h : t.Refines hist) (hk : k ∈ t.keys) (c : List UInt8)
    (e : Option Instant) :
    (t.appendTo k c e).1.Refines (Function.update hist k (hist k ++ [⟨t.sequence, c, e⟩])) := by
  obtain ⟨p, hfind⟩ := exists_find?_of_mem hk
  have hpk := h.keyed.key_of_find? hfind
  have hkeys := keys_appendTo (t := t) (k := k) c e
  refine ⟨h.keyed.appendTo c e, hkeys ▸ h.nodup, hkeys ▸ h.default_mem, ?_, ?_, ?_, ?_, ?_⟩
  · -- the partition appended to refines the longer history, the others are untouched
    intro q' hq'
    obtain ⟨q, hq, rfl⟩ := (mem_appendTo h.keyed h.nodup hfind c e).mp hq'
    by_cases hqk : q.key = k
    · rw [if_pos hqk, Partition.key_append, hpk, Function.update_self]
      exact (h.partition_of_find? hfind).append t.sequence c e
    · rw [if_neg hqk, Function.update_of_ne hqk]
      exact h.partition q hq
  · intro k' hk'
    rw [hkeys] at hk'
    rw [Function.update_of_ne (by rintro rfl; exact hk' hk)]
    exact h.absent k' hk'
  · rw [sequence_appendTo hfind, hkeys, sum_length_update h.nodup hk, h.sequence_eq]
  · intro k' e' he'
    rw [sequence_appendTo hfind]
    by_cases hk' : k' = k
    · subst hk'
      rw [Function.update_self, List.mem_append, List.mem_singleton] at he'
      rcases he' with he' | rfl
      · exact Nat.lt_succ_of_lt (h.sequence_lt _ _ he')
      · exact Nat.lt_succ_self _
    · rw [Function.update_of_ne hk'] at he'
      exact Nat.lt_succ_of_lt (h.sequence_lt _ _ he')
  · intro k'
    by_cases hk' : k' = k
    · subst hk'
      rw [Function.update_self, List.map_append, List.pairwise_append]
      refine ⟨h.ordered k', List.pairwise_singleton _ _, fun a ha b hb => ?_⟩
      obtain ⟨e', he', rfl⟩ := List.mem_map.mp ha
      rw [List.map_singleton, List.mem_singleton] at hb
      exact hb ▸ h.sequence_lt _ _ he'
    · rw [Function.update_of_ne hk']
      exact h.ordered k'

theorem Refines.appendTo_snd (h : t.Refines hist) (hk : k ∈ t.keys) (c : List UInt8)
    (e : Option Instant) : (t.appendTo k c e).2 = (hist k).length := by
  obtain ⟨p, hfind⟩ := exists_find?_of_mem hk
  rw [appendTo_of_find? hfind]
  exact (h.partition_of_find? hfind).next_eq

/-- The high watermarks of the partitions add up to the counter. -/
theorem Refines.sequence_eq_sum_highWatermark (h : t.Refines hist) :
    t.sequence = (t.partitions.map (·.highWatermark)).sum := by
  rw [h.sequence_eq, h.keyed.keys_eq, List.map_map]
  congr 1
  exact List.map_congr_left fun p hp => ((h.partition p hp).next_eq).symm

/-- In a partition, sequence numbers increase with offsets. -/
theorem Refines.sequence_lt_of_readAt (h : t.Refines hist) {p : Partition} (hp : p ∈ t.partitions)
    {o₁ o₂ : Nat} {m₁ m₂ : Message} (h₁ : p.readAt o₁ = some m₁) (h₂ : p.readAt o₂ = some m₂)
    (ho : o₁ < o₂) : m₁.sequence < m₂.sequence := by
  have hpr := h.partition p hp
  obtain ⟨hl₁, rfl⟩ := hpr.readAt_eq_some h₁
  obtain ⟨hl₂, rfl⟩ := hpr.readAt_eq_some h₂
  have hord := List.pairwise_iff_getElem.mp (h.ordered p.key) o₁ o₂ (by simpa using hl₁)
    (by simpa using hl₂) ho
  simpa using hord

/-- The partition under a key, or the empty one a first append under it creates, refines the
history of the key. -/
theorem Refines.refines_find?_getD (h : t.Refines hist) (k : String) :
    ((t.find? k).getD (Partition.create t.name k)).Refines (hist k) ∧
      ((t.find? k).getD (Partition.create t.name k)).key = k := by
  cases hfind : t.find? k with
  | none =>
    rw [h.absent k (find?_eq_none.mp hfind)]
    exact ⟨Partition.refines_create t.name k, rfl⟩
  | some p => exact ⟨h.partition_of_find? hfind, h.keyed.key_of_find? hfind⟩

/-! ## Routing

A route picks a partition by identity: the one at the round-robin counter, falling back to the
default partition's handle, or the one of a non-empty key, made when missing. In a sound map the
identity picked is bound to the key of its partition, so the route is an append under that key:
`route_eq`. -/

/-- The key of the partition of identity `i`. -/
def keyAt (t : Topic) (i : Nat) : String := ((t.cells[i]?).map (·.key)).getD ""

/-- Where a route appends: the topic made ready for the append and the key of the partition it
picks. -/
def routeTarget (t : Topic) (key : Option String) : Topic × String :=
  ((t.target key).1, (t.target key).1.keyAt (t.target key).2)

@[simp] theorem slot?_nextRoundRobin : t.nextRoundRobin.1.slot? k = t.slot? k := rfl
@[simp] theorem keyAt_nextRoundRobin : t.nextRoundRobin.1.keyAt i = t.keyAt i := rfl

theorem keyAt_of_getElem? {p : Partition} (h : t.cells[i]? = some p) : t.keyAt i = p.key := by
  simp [keyAt, h]

theorem Keyed.keyAt_of_slot? (h : t.Keyed) (hi : t.slot? k = some i) : t.keyAt i = k := by
  obtain ⟨p, hp⟩ := exists_getElem?_of_slot? hi
  rw [keyAt_of_getElem? hp, h _ (mem_slots_of_slot? hi) p hp]

theorem target_cases (key : Option String) :
    t.target key = t.nextRoundRobin ∨ ∃ k, k ≠ "" ∧ t.target key = t.keyedPartition k := by
  cases key with
  | none => exact .inl rfl
  | some k =>
    by_cases hk : k = ""
    · exact .inl (by simp [target, hk])
    · exact .inr ⟨k, hk, by simp [target, hk]⟩

theorem keyedPartition_fst : (t.keyedPartition k).1 = (t.addPartition k).1 := by
  cases hi : t.slot? k with
  | some i => simp [keyedPartition, hi, addPartition_of_mem (mem_keys_of_slot? hi)]
  | none => simp [keyedPartition, hi, addPartition_of_not_mem (slot?_eq_none.mp hi)]

/-- The partition of a non-empty key is bound to the key once the route has it ready. -/
theorem slot?_keyedPartition :
    (t.keyedPartition k).1.slot? k = some (t.keyedPartition k).2 := by
  cases hi : t.slot? k with
  | some i => simp [keyedPartition, hi]
  | none =>
    simp only [keyedPartition, hi]
    rw [slot?_makePartition (slot?_eq_none.mp hi), if_pos rfl]

theorem Keyed.keyedPartition (h : t.Keyed) : (t.keyedPartition k).1.Keyed := by
  rw [keyedPartition_fst]
  exact h.addPartition

/-- A sound map is never empty. -/
theorem Mapped.length_pos (h : t.Mapped) : 0 < t.slots.length := by
  have := List.length_pos_of_mem h.default_mem
  rwa [keys, List.length_map] at this

/-- **The round robin lands on the key at the counter**, modulo the number of keys, in key
order; that key is bound to the partition picked, and the handle's fallback is never taken. -/
theorem Mapped.nextRoundRobin_lands (h : t.Mapped) :
    t.slot? (t.keyAt t.nextRoundRobin.2) = some t.nextRoundRobin.2 ∧
      t.keys[t.roundRobin % t.keys.length]? = some (t.keyAt t.nextRoundRobin.2) := by
  have hidx : t.roundRobin % t.slots.length < t.slots.length := Nat.mod_lt _ h.length_pos
  have hmem : t.slots[t.roundRobin % t.slots.length] ∈ t.slots := List.getElem_mem hidx
  have hrr : t.nextRoundRobin.2 = t.slots[t.roundRobin % t.slots.length].2 := by
    simp [nextRoundRobin, List.getElem?_eq_getElem hidx]
  rw [hrr, h.keyed.keyAt_of_slot? (slot?_of_mem_slots h.nodup hmem)]
  refine ⟨slot?_of_mem_slots h.nodup hmem, ?_⟩
  simp [keys, List.getElem?_eq_getElem hidx]

theorem Mapped.keyAt_nextRoundRobin_mem (h : t.Mapped) : t.keyAt t.nextRoundRobin.2 ∈ t.keys :=
  List.mem_of_getElem? h.nextRoundRobin_lands.2

/-- The identity a route picks names a partition. -/
theorem exists_getElem?_target (key : Option String) :
    ∃ p, (t.target key).1.cells[(t.target key).2]? = some p := by
  rcases target_cases (t := t) key with hr | ⟨k, -, hr⟩ <;> rw [hr]
  · -- a binding at the counter, or else the handle: both name cells
    show ∃ p, t.cells[((t.slots[t.roundRobin % t.slots.length]?).map (·.2)).getD
      t.defaultCell]? = some p
    cases hs : t.slots[t.roundRobin % t.slots.length]? with
    | none => exact ⟨_, getElem?_defaultCell⟩
    | some s => exact exists_getElem?_of_mem_slots (List.mem_of_getElem? hs)
  · exact exists_getElem?_of_slot? slot?_keyedPartition

/-- In a sound map, the map binds the key of the partition a route picks to that partition. -/
theorem Mapped.slot?_target (h : t.Mapped) (key : Option String) :
    (t.target key).1.slot? (t.routeTarget key).2 = some (t.target key).2 := by
  rcases target_cases (t := t) key with hr | ⟨k, -, hr⟩ <;> simp only [routeTarget, hr]
  · exact h.nextRoundRobin_lands.1
  · rw [h.keyed.keyedPartition.keyAt_of_slot? slot?_keyedPartition]
    exact slot?_keyedPartition

theorem route_eq_appendAt (key : Option String) (c : List UInt8) (e : Option Instant) :
    t.route key c e = (t.target key).1.appendAt (t.target key).2 c e := rfl

/-- A route answers the key of the partition it picks. -/
theorem route_key (key : Option String) (c : List UInt8) (e : Option Instant) :
    (t.route key c e).2.1 = (t.routeTarget key).2 := by
  obtain ⟨p, hp⟩ := exists_getElem?_target (t := t) key
  rw [route_eq_appendAt, appendAt_of_getElem? hp, routeTarget, keyAt_of_getElem? hp]

/-- **In a sound map, a route is an append under the key of the partition it picks.** -/
theorem route_eq (h : t.Mapped) (key : Option String) (c : List UInt8) (e : Option Instant) :
    t.route key c e =
      (((t.routeTarget key).1.appendTo (t.routeTarget key).2 c e).1, (t.routeTarget key).2,
        ((t.routeTarget key).1.appendTo (t.routeTarget key).2 c e).2) := by
  obtain ⟨p, hp⟩ := exists_getElem?_target (t := t) key
  have hs := h.slot?_target key
  simp only [routeTarget, keyAt_of_getElem? hp] at hs ⊢
  rw [route_eq_appendAt]
  simp only [appendTo, hs]
  rw [appendAt_of_getElem? hp]

theorem routeTarget_of_ne (h : t.Keyed) (hk : k ≠ "") :
    t.routeTarget (some k) = ((t.addPartition k).1, k) := by
  have ht : t.target (some k) = t.keyedPartition k := by simp [target, hk]
  rw [routeTarget, ht, h.keyedPartition.keyAt_of_slot? slot?_keyedPartition, keyedPartition_fst]

theorem routeTarget_of_unkeyed {key : Option String} (hk : key = none ∨ key = some "") :
    t.routeTarget key = (t.nextRoundRobin.1, t.keyAt t.nextRoundRobin.2) := by
  rcases hk with rfl | rfl <;> simp [routeTarget, target]

/-- A route moves the round robin on, or adds the partition of a non-empty key. -/
theorem routeTarget_cases (h : t.Keyed) (key : Option String) :
    t.routeTarget key = (t.nextRoundRobin.1, t.keyAt t.nextRoundRobin.2) ∨
      ∃ k, k ≠ "" ∧ t.routeTarget key = ((t.addPartition k).1, k) := by
  cases key with
  | none => exact .inl (routeTarget_of_unkeyed (.inl rfl))
  | some k =>
    by_cases hk : k = ""
    · exact .inl (routeTarget_of_unkeyed (.inr (hk ▸ rfl)))
    · exact .inr ⟨k, hk, routeTarget_of_ne h hk⟩

@[simp] theorem name_target (key : Option String) : (t.target key).1.name = t.name := by
  rcases target_cases (t := t) key with hr | ⟨k, -, hr⟩ <;> rw [hr]
  · rfl
  · rw [keyedPartition_fst, name_addPartition]

@[simp] theorem sequence_target (key : Option String) :
    (t.target key).1.sequence = t.sequence := by
  rcases target_cases (t := t) key with hr | ⟨k, -, hr⟩ <;> rw [hr]
  · rfl
  · rw [keyedPartition_fst, sequence_addPartition]

@[simp] theorem name_routeTarget (key : Option String) : (t.routeTarget key).1.name = t.name :=
  name_target key

@[simp] theorem sequence_routeTarget (key : Option String) :
    (t.routeTarget key).1.sequence = t.sequence :=
  sequence_target key

theorem Refines.routeTarget (h : t.Refines hist) (key : Option String) :
    (t.routeTarget key).1.Refines hist := by
  rcases target_cases (t := t) key with hr | ⟨k, -, hr⟩ <;> simp only [Topic.routeTarget, hr]
  · exact h.nextRoundRobin
  · rw [keyedPartition_fst]
    exact h.addPartition k

theorem Refines.routeTarget_mem (h : t.Refines hist) (key : Option String) :
    (t.routeTarget key).2 ∈ (t.routeTarget key).1.keys := by
  exact mem_keys_of_slot? (h.mapped.slot?_target key)

/-- Before the append, a route changes no partition but the one it adds for a new key. -/
theorem Refines.find?_routeTarget (h : t.Refines hist) (key : Option String) (k' : String) :
    (t.routeTarget key).1.find? k' =
      if k' = (t.routeTarget key).2 then some ((t.find? k').getD (Partition.create t.name k'))
      else t.find? k' := by
  rcases routeTarget_cases h.keyed key with hr | ⟨k, -, hr⟩ <;> rw [hr]
  · -- a round robin changes no partition, and lands on one that exists
    by_cases hk' : k' = t.keyAt t.nextRoundRobin.2
    · obtain ⟨p, hp⟩ := exists_find?_of_mem (hk' ▸ h.mapped.keyAt_nextRoundRobin_mem)
      rw [if_pos hk', find?_nextRoundRobin, hp]
      rfl
    · rw [if_neg hk', find?_nextRoundRobin]
  · -- adding the key's partition changes what that key finds only when it was missing
    rw [find?_addPartition]
    by_cases hk' : k' = k
    · subst hk'
      by_cases hm : k' ∈ t.keys
      · obtain ⟨p, hp⟩ := exists_find?_of_mem hm
        simp [hm, hp]
      · simp [hm, find?_eq_none.mpr hm]
    · simp [hk']

@[simp] theorem name_route (key : Option String) (c : List UInt8) (e : Option Instant) :
    (t.route key c e).1.name = t.name := by
  rw [route_eq_appendAt, name_appendAt, name_target]

theorem route_key_of_ne (h : t.Keyed) (hk : k ≠ "") (c : List UInt8) (e : Option Instant) :
    (t.route (some k) c e).2.1 = k := by
  rw [route_key, routeTarget_of_ne h hk]

/-- **A route appends once**, to the history of the key it answers, with the counter's
sequence number. -/
theorem Refines.route (h : t.Refines hist) (key : Option String) (c : List UInt8)
    (e : Option Instant) :
    (t.route key c e).1.Refines (Function.update hist (t.route key c e).2.1
      (hist (t.route key c e).2.1 ++ [⟨t.sequence, c, e⟩])) := by
  rw [route_eq h.mapped]
  have := (h.routeTarget key).appendTo (h.routeTarget_mem key) c e
  rwa [sequence_routeTarget] at this

theorem Refines.route_snd (h : t.Refines hist) (key : Option String) (c : List UInt8)
    (e : Option Instant) : (t.route key c e).2.2 = (hist (t.route key c e).2.1).length := by
  rw [route_eq h.mapped]
  exact (h.routeTarget key).appendTo_snd (h.routeTarget_mem key) c e

theorem Refines.sequence_route (h : t.Refines hist) (key : Option String) (c : List UInt8)
    (e : Option Instant) : (t.route key c e).1.sequence = t.sequence + 1 := by
  rw [route_eq h.mapped]
  obtain ⟨p, hp⟩ := exists_find?_of_mem (h.routeTarget_mem key)
  rw [sequence_appendTo hp, sequence_routeTarget]

/-- **A route touches one partition**: the one under the key it answers, found or created,
gets the message appended; every other key finds what it found before. -/
theorem Refines.find?_route (h : t.Refines hist) (key : Option String) (c : List UInt8)
    (e : Option Instant) (k' : String) :
    (t.route key c e).1.find? k' =
      if k' = (t.route key c e).2.1 then
        some (((t.find? k').getD (Partition.create t.name k')).append t.sequence c e).1
      else t.find? k' := by
  rw [route_eq h.mapped]
  simp only
  obtain ⟨p, hp⟩ := exists_find?_of_mem (h.routeTarget_mem key)
  rw [find?_appendTo hp, sequence_routeTarget]
  have hp' := hp
  rw [h.find?_routeTarget, if_pos rfl] at hp'
  by_cases hk' : k' = (t.routeTarget key).2
  · subst hk'
    rw [if_pos rfl, if_pos rfl, ← Option.some_inj.mp hp']
  · rw [if_neg hk', if_neg hk', h.find?_routeTarget, if_neg hk']

/-! ## The newest message -/

/-- The step of `Topic.latest`: of the newest message so far and the next one, the one with
the larger sequence number, the later one on a tie. -/
def newer : Option Message → Message → Option Message
  | some b, m => if b.sequence ≤ m.sequence then some m else some b
  | none, m => some m

theorem latest_eq_foldl :
    t.latest = (t.partitions.filterMap (·.readLatest)).foldl newer none := by
  unfold latest
  congr 1
  funext best m
  cases best <;> rfl

theorem foldl_newer_eq_none {l : List Message} {acc : Option Message} :
    l.foldl newer acc = none ↔ acc = none ∧ l = [] := by
  induction l generalizing acc with
  | nil => simp
  | cons m l ih =>
    rw [List.foldl_cons, ih]
    cases acc with
    | none => simp [newer]
    | some b => by_cases hb : b.sequence ≤ m.sequence <;> simp [newer, hb]

/-- The fold keeps a message it has seen, and none it has seen is newer. -/
theorem foldl_newer_max {l : List Message} {acc : Option Message} {r : Message}
    (h : l.foldl newer acc = some r) :
    r ∈ acc.toList ++ l ∧ ∀ x ∈ acc.toList ++ l, x.sequence ≤ r.sequence := by
  induction l generalizing acc with
  | nil =>
    rw [List.foldl_nil] at h
    subst h
    simp
  | cons m l ih =>
    obtain ⟨hr, hmax⟩ := ih h
    -- the accumulator after `m` is the newer of the two, so it dominates both
    have hstep : ∃ y, newer acc m = some y ∧ y ∈ acc.toList ++ [m] ∧
        ∀ x ∈ acc.toList ++ [m], x.sequence ≤ y.sequence := by
      cases acc with
      | none => exact ⟨m, rfl, by simp, by simp⟩
      | some b =>
        by_cases hb : b.sequence ≤ m.sequence
        · exact ⟨m, by simp [newer, hb], by simp, by simp [hb]⟩
        · exact ⟨b, by simp [newer, hb], by simp, by simp; omega⟩
    obtain ⟨y, hy, hymem, hymax⟩ := hstep
    rw [hy] at hr hmax
    refine ⟨?_, fun x hx => ?_⟩
    · rcases List.mem_append.mp hr with hr | hr
      · have : r = y := by simpa using hr
        subst this
        rcases List.mem_append.mp hymem with h' | h'
        · exact List.mem_append_left _ h'
        · exact List.mem_append_right _ (by simp_all)
      · exact List.mem_append_right _ (List.mem_cons_of_mem _ hr)
    · have hyr : y.sequence ≤ r.sequence := hmax y (by simp)
      rcases List.mem_append.mp hx with hx | hx
      · exact Nat.le_trans (hymax x (List.mem_append_left _ hx)) hyr
      · rcases List.mem_cons.mp hx with rfl | hx
        · exact Nat.le_trans (hymax x (by simp)) hyr
        · exact hmax x (List.mem_append_right _ hx)

theorem latest_eq_none_iff : t.latest = none ↔ ∀ p ∈ t.partitions, p.readLatest = none := by
  rw [latest_eq_foldl, foldl_newer_eq_none, List.filterMap_eq_nil_iff]
  simp

/-- The newest message is one that is newer than every other last message. -/
theorem latest_eq_some {m : Message} (hm : m ∈ t.partitions.filterMap (·.readLatest))
    (hmax : ∀ x ∈ t.partitions.filterMap (·.readLatest), x ≠ m → x.sequence < m.sequence) :
    t.latest = some m := by
  cases hl : t.latest with
  | none =>
    rw [latest_eq_none_iff] at hl
    obtain ⟨p, hp, hpm⟩ := List.mem_filterMap.mp hm
    simp [hl p hp] at hpm
  | some r =>
    rw [latest_eq_foldl] at hl
    obtain ⟨hr, hrmax⟩ := foldl_newer_max hl
    simp only [Option.toList_none, List.nil_append] at hr hrmax
    by_contra hne
    have h₁ := hmax r hr (fun h => hne (congrArg some h))
    have h₂ := hrmax m hm
    omega

theorem latest_addPartition : (t.addPartition k).1.latest = t.latest := by
  by_cases hk : k ∈ t.keys
  · rw [addPartition_of_mem hk]
  · rw [addPartition_of_not_mem hk, latest_eq_foldl, latest_eq_foldl]
    congr 1
    -- the new partition holds nothing, and the others are as they were
    have hold : ∀ s ∈ t.slots, ((t.makePartition k).cells[s.2]?).bind (·.readLatest) =
        (t.cells[s.2]?).bind (·.readLatest) := fun s hs => by
      rw [getElem?_cells_makePartition (t.slot_lt s hs)]
    unfold partitions
    rw [List.filterMap_filterMap, List.filterMap_filterMap, slots_makePartition,
      filterMap_insertByKey (by simp), List.filterMap_congr hold]

theorem latest_addPartitions (keys : List String) :
    (keys.foldl (fun t k => (t.addPartition k).1) t).latest = t.latest := by
  induction keys generalizing t with
  | nil => rfl
  | cons k keys ih => rw [List.foldl_cons, ih, latest_addPartition]

theorem latest_reset : t.reset.latest = t.latest := by
  rw [latest_eq_foldl, latest_eq_foldl, partitions_reset, List.filterMap_map]
  congr 2
  funext p
  exact Partition.readLatest_reset p

/-- A topic has a newest message exactly when something was appended to it. -/
theorem Refines.latest_eq_none_iff (h : t.Refines hist) : t.latest = none ↔ t.sequence = 0 := by
  rw [Topic.latest_eq_none_iff, h.sequence_eq, h.keyed.keys_eq,
    List.sum_eq_zero_iff_forall_eq_nat]
  simp only [List.map_map, List.mem_map, Function.comp_apply, forall_exists_index,
    and_imp, forall_apply_eq_imp_iff₂, List.length_eq_zero_iff]
  refine forall₂_congr fun p hp => ?_
  rw [(h.partition p hp).readLatest_eq, Option.map_eq_none_iff, List.getLast?_eq_none_iff]

/-- **After an append, the newest message of the topic is the one appended**: it drew the
counter, above every sequence number before it. -/
theorem Refines.latest_appendTo (h : t.Refines hist) (hk : k ∈ t.keys) (c : List UInt8)
    (e : Option Instant) :
    (t.appendTo k c e).1.latest =
      some (Partition.Entry.stamp ⟨t.sequence, c, e⟩ k (hist k).length) := by
  obtain ⟨p, hfind⟩ := exists_find?_of_mem hk
  obtain ⟨hp, hpk⟩ := find?_eq_some h.keyed hfind
  have hp' := h.partition_of_find? hfind
  have hlast : (p.append t.sequence c e).1.readLatest =
      some (Partition.Entry.stamp ⟨t.sequence, c, e⟩ k (hist k).length) := by
    rw [(hp'.append t.sequence c e).readLatest_eq, Partition.key_append, hpk]
    simp
  apply latest_eq_some
  · exact List.mem_filterMap.mpr
      ⟨_, (mem_appendTo h.keyed h.nodup hfind c e).mpr ⟨p, hp, by simp [hpk]⟩, hlast⟩
  · intro x hx hne
    obtain ⟨q', hq', hqx⟩ := List.mem_filterMap.mp hx
    obtain ⟨q, hq, rfl⟩ := (mem_appendTo h.keyed h.nodup hfind c e).mp hq'
    by_cases hqk : q.key = k
    · rw [if_pos hqk, hlast] at hqx
      exact absurd (Option.some_inj.mp hqx).symm hne
    · -- every other partition is untouched, and its last entry drew a smaller number
      rw [if_neg hqk, (h.partition q hq).readLatest_eq] at hqx
      obtain ⟨e', he', rfl⟩ := Option.map_eq_some_iff.mp hqx
      exact h.sequence_lt _ _ (List.mem_of_getLast? he')

theorem Refines.latest_route (h : t.Refines hist) (key : Option String) (c : List UInt8)
    (e : Option Instant) :
    (t.route key c e).1.latest = some (Partition.Entry.stamp ⟨t.sequence, c, e⟩
      (t.route key c e).2.1 (hist (t.route key c e).2.1).length) := by
  rw [route_eq h.mapped]
  have := (h.routeTarget key).latest_appendTo (h.routeTarget_mem key) c e
  rwa [sequence_routeTarget] at this

end Topic

end MessageBroker
