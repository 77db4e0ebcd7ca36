import MessageBroker.Log.Partition
/-!
# A partition refines its history

A partition holds only a suffix of what was appended to it: offsets count every append, and a
reset drops all but the last message. Its meaning is the whole history, the entries appended
so far in order, with the start as the only other piece of state. This module states the
relation between a partition and a history and shows that appends and resets keep it, so that
every run from an empty partition answers, and reads, what the history says.

## Main definitions

* `Partition.Entry`, `Partition.Entry.stamp`, `Partition.stamped`: a history and its messages
* `Partition.Refines p H`: `p` has served the history `H` and holds it from its start on
* `Partition.Call`, `Partition.serve`, `Partition.after`, `Partition.appended`: runs of calls

## Main results

* `Partition.Refines.append`, `Partition.Refines.reset`: each call keeps the relation
* `Partition.Refines.read_eq`, `Partition.Refines.readAt_eq`, `Partition.Refines.readLatest_eq`:
  what a read finds, from the history alone
* `Partition.Refines.after`: a run keeps the relation
* `Partition.after_create_follows_history`: a partition after any run, against its history
-/

namespace MessageBroker

namespace Partition

/-! ## Histories -/

/-- What an append records besides its offset and its partition: the topic-wide sequence
number, the content and the expiry. -/
structure Entry where
  sequence : Nat
  content : List UInt8
  expiresAt : Option Instant
  deriving DecidableEq

/-- The message an entry is at offset `o` of the partition under `key`. -/
def Entry.stamp (e : Entry) (key : String) (o : Nat) : Message :=
  ⟨o, key, e.sequence, e.content, e.expiresAt⟩

/-- The messages of a history, each at the offset of its position. -/
def stamped (key : String) (H : List Entry) : List Message :=
  H.mapIdx fun o e => e.stamp key o

@[simp] theorem offset_stamp (e : Entry) (key : String) (o : Nat) : (e.stamp key o).offset = o :=
  rfl

@[simp] theorem partition_stamp (e : Entry) (key : String) (o : Nat) :
    (e.stamp key o).partition = key := rfl

@[simp] theorem sequence_stamp (e : Entry) (key : String) (o : Nat) :
    (e.stamp key o).sequence = e.sequence := rfl

@[simp] theorem stamped_nil (key : String) : stamped key [] = [] := rfl

@[simp] theorem stamped_concat (key : String) (H : List Entry) (e : Entry) :
    stamped key (H ++ [e]) = stamped key H ++ [e.stamp key H.length] :=
  List.mapIdx_concat

@[simp] theorem length_stamped (key : String) (H : List Entry) :
    (stamped key H).length = H.length :=
  List.length_mapIdx

@[simp] theorem getElem?_stamped (key : String) (H : List Entry) (o : Nat) :
    (stamped key H)[o]? = H[o]?.map (·.stamp key o) :=
  List.getElem?_mapIdx

/-- The offsets of a history's messages are `0`, `1`, … in order. -/
theorem map_offset_stamped (key : String) (H : List Entry) :
    (stamped key H).map (·.offset) = List.range H.length := by
  apply List.ext_getElem (by simp)
  intro i h₁ h₂
  simp [stamped]

/-- An append leaves the messages below the old end as they were. -/
theorem take_stamped_concat {H : List Entry} {n : Nat} (hn : n ≤ H.length) (key : String)
    (e : Entry) : (stamped key (H ++ [e])).take n = (stamped key H).take n := by
  rw [stamped_concat, List.take_append_of_le_length (by simpa using hn)]

theorem drop_stamped_concat {H : List Entry} {n : Nat} (hn : n ≤ H.length) (key : String)
    (e : Entry) :
    (stamped key (H ++ [e])).drop n = (stamped key H).drop n ++ [e.stamp key H.length] := by
  rw [stamped_concat, List.drop_append_of_le_length (by simpa using hn)]

/-- The messages below one more offset are those below it and the message at it. -/
theorem take_succ_stamped {H : List Entry} {o : Nat} (ho : o < H.length) (key : String) :
    (stamped key H).take (o + 1) = (stamped key H).take o ++ [H[o].stamp key o] := by
  rw [List.take_add_one, getElem?_stamped, List.getElem?_eq_getElem ho]
  rfl

/-! ## What the two calls do to the fields -/

@[simp] theorem key_create (topic : TopicName) (key : String) : (create topic key).key = key := rfl

@[simp] theorem readLatest_create (topic : TopicName) (key : String) :
    (create topic key).readLatest = none := rfl

@[simp] theorem start_append (p : Partition) (s : Nat) (c : List UInt8) (e : Option Instant) :
    (p.append s c e).1.start = p.start := rfl

theorem retained_append (p : Partition) (s : Nat) (c : List UInt8) (e : Option Instant) :
    (p.append s c e).1.retained.toList =
      p.retained.toList ++ [Entry.stamp ⟨s, c, e⟩ p.key p.next] :=
  rfl

@[simp] theorem topic_append (p : Partition) (s : Nat) (c : List UInt8) (e : Option Instant) :
    (p.append s c e).1.topic = p.topic := rfl

@[simp] theorem key_reset (p : Partition) : p.reset.1.key = p.key := rfl

@[simp] theorem topic_reset (p : Partition) : p.reset.1.topic = p.topic := rfl

@[simp] theorem next_reset (p : Partition) : p.reset.1.next = p.next := rfl

@[simp] theorem start_reset (p : Partition) : p.reset.1.start = p.reset.2 := rfl

theorem retained_reset (p : Partition) :
    p.reset.1.retained.toList = p.retained.toList.drop (p.retained.toList.length - 1) := rfl

/-- A reset keeps the last message. -/
@[simp] theorem readLatest_reset (p : Partition) : p.reset.1.readLatest = p.readLatest := by
  rw [readLatest, Queue.peekBack, retained_reset, List.getLast?_drop]
  by_cases h : p.retained.toList = []
  · simp [readLatest, Queue.peekBack, h]
  · rw [if_neg (by have := List.length_pos_iff.mpr h; omega)]
    rfl

theorem reset_snd (p : Partition) :
    p.reset.2 = ((p.retained.toList.drop (p.retained.toList.length - 1)).head?.map
      (·.offset)).getD p.next := rfl

/-! ## The refinement relation -/

/-- **The partition refines the history `H`**: its high watermark is the length of `H`, its
start lies below that length unless `H` is empty, and it holds the messages of `H` from its
start on. -/
structure Refines (p : Partition) (H : List Entry) : Prop where
  next_eq : p.next = H.length
  start_le : p.start ≤ H.length
  start_lt : H ≠ [] → p.start < H.length
  retained_eq : p.retained.toList = (stamped p.key H).drop p.start

theorem refines_create (topic : TopicName) (key : String) : (create topic key).Refines [] :=
  ⟨rfl, Nat.le_refl 0, fun h => absurd rfl h, rfl⟩

variable {p : Partition} {H : List Entry}

/-- An append adds one entry to the history; the start stays. -/
theorem Refines.append (h : p.Refines H) (s : Nat) (c : List UInt8) (e : Option Instant) :
    (p.append s c e).1.Refines (H ++ [⟨s, c, e⟩]) where
  next_eq := by simp [h.next_eq]
  start_le := by simpa using Nat.le_succ_of_le h.start_le
  start_lt _ := by simpa using Nat.lt_succ_of_le h.start_le
  retained_eq := by
    have hle : p.start ≤ (stamped p.key H).length := by simpa using h.start_le
    rw [retained_append, h.retained_eq, key_append, start_append, stamped_concat,
      List.drop_append_of_le_length hle, h.next_eq]

/-- A reset keeps the messages of `H` from its last one on. -/
theorem Refines.retained_reset (h : p.Refines H) :
    p.reset.1.retained.toList = (stamped p.key H).drop (H.length - 1) := by
  rw [Partition.retained_reset, h.retained_eq, List.drop_drop, List.length_drop,
    length_stamped]
  congr 1
  by_cases hne : H = []
  · have h0 : p.start = 0 := by simpa [hne] using h.start_le
    simp [hne, h0]
  · have := h.start_lt hne
    omega

/-- A reset starts the partition at the last offset of `H` (at `0` when `H` is empty). -/
theorem Refines.reset_snd (h : p.Refines H) : p.reset.2 = H.length - 1 := by
  rw [Partition.reset_snd, ← Partition.retained_reset, h.retained_reset, List.head?_drop,
    getElem?_stamped]
  by_cases hne : H = []
  · simp [hne, h.next_eq]
  · have hlt : H.length - 1 < H.length := Nat.sub_lt (List.length_pos_iff.mpr hne) Nat.one_pos
    simp [List.getElem?_eq_getElem hlt]

/-- A reset changes the start only: the history stays the same. -/
theorem Refines.reset (h : p.Refines H) : p.reset.1.Refines H where
  next_eq := h.next_eq
  start_le := by rw [start_reset, h.reset_snd]; omega
  start_lt hne := by
    rw [start_reset, h.reset_snd]
    exact Nat.sub_lt (List.length_pos_iff.mpr hne) Nat.one_pos
  retained_eq := by rw [h.retained_reset, start_reset, h.reset_snd, key_reset]

/-- The start never moves back at a reset. -/
theorem Refines.start_le_reset (h : p.Refines H) : p.start ≤ p.reset.1.start := by
  rw [start_reset, h.reset_snd]
  by_cases hne : H = []
  · simpa [hne] using h.start_le
  · have := h.start_lt hne
    omega

/-! ## Reads -/

/-- The queue position a read at `o` looks at holds the message of `H` at `o`. -/
theorem Refines.get?_retained (h : p.Refines H) (i : Nat) :
    p.retained.get? i = H[p.start + i]?.map (·.stamp p.key (p.start + i)) := by
  rw [Queue.get?_eq, h.retained_eq, List.getElem?_drop, getElem?_stamped]

/-- Between the start and the end of `H`, the queue holds the message of `H` at each offset. -/
theorem Refines.get?_retained_sub (h : p.Refines H) {o : Nat} (h₁ : p.start ≤ o)
    (h₂ : o < H.length) : p.retained.get? (o - p.start) = some (H[o].stamp p.key o) := by
  rw [h.get?_retained, Nat.add_sub_cancel' h₁, List.getElem?_eq_getElem h₂]
  rfl

theorem Refines.read_of_lt (h : p.Refines H) {o : Nat} (h₁ : p.start ≤ o) (h₂ : o < H.length) :
    p.read o = .ready (H[o].stamp p.key o) := by
  have hget := h.get?_retained_sub h₁ h₂
  rw [Queue.get?_eq] at hget
  simp [read, Nat.not_lt.mpr h₁, h.next_eq, Nat.not_le.mpr h₂, hget]

/-- **What a read finds**: below the start it is chased past, at an offset the history has it
is the message of the history, and beyond it waits. -/
theorem Refines.read_eq (h : p.Refines H) (o : Nat) :
    p.read o = if o < p.start then .chasedPast p.start else
      match H[o]? with
      | some e => .ready (e.stamp p.key o)
      | none => .pending := by
  by_cases hs : o < p.start
  · simp [hs, read_of_lt_start hs]
  · rw [if_neg hs]
    by_cases hn : o < H.length
    · rw [h.read_of_lt (Nat.not_lt.mp hs) hn, List.getElem?_eq_getElem hn]
    · rw [read_of_le_next (Nat.not_lt.mp hs) (by rw [h.next_eq]; omega),
        List.getElem?_eq_none (Nat.not_lt.mp hn)]

theorem Refines.readAt_eq (h : p.Refines H) (o : Nat) :
    p.readAt o = if p.start ≤ o then H[o]?.map (·.stamp p.key o) else none := by
  unfold readAt
  rw [h.read_eq]
  by_cases hs : p.start ≤ o
  · -- from the start on, a read finds what the history has
    rw [if_neg (Nat.not_lt.mpr hs), if_pos hs]
    cases H[o]? <;> rfl
  · rw [if_pos (Nat.not_le.mp hs), if_neg hs]

/-- A message a read finds is the message of the history at that offset. -/
theorem Refines.readAt_eq_some (h : p.Refines H) {o : Nat} {m : Message}
    (hm : p.readAt o = some m) : ∃ hl : o < H.length, m = H[o].stamp p.key o := by
  rw [h.readAt_eq] at hm
  by_cases hs : p.start ≤ o
  · rw [if_pos hs] at hm
    obtain ⟨e, he, rfl⟩ := Option.map_eq_some_iff.mp hm
    obtain ⟨hl, rfl⟩ := List.getElem?_eq_some_iff.mp he
    exact ⟨hl, rfl⟩
  · rw [if_neg hs] at hm
    exact absurd hm (by simp)

/-- A message a read finds ready is the message of the history at that offset. -/
theorem Refines.read_eq_ready (h : p.Refines H) {o : Nat} {m : Message}
    (hm : p.read o = .ready m) : ∃ hl : o < H.length, m = H[o].stamp p.key o :=
  h.readAt_eq_some (by unfold readAt; rw [hm])

/-- An append leaves every message already held where it was. -/
theorem Refines.readAt_append (h : p.Refines H) {o : Nat} (ho : o < H.length) (s : Nat)
    (c : List UInt8) (e : Option Instant) : (p.append s c e).1.readAt o = p.readAt o := by
  rw [(h.append s c e).readAt_eq, h.readAt_eq, start_append, key_append,
    List.getElem?_append_left ho]

/-- The message an append writes is found at the offset it answered. -/
theorem Refines.readAt_append_self (h : p.Refines H) (s : Nat) (c : List UInt8)
    (e : Option Instant) :
    (p.append s c e).1.readAt p.next = some (Entry.stamp ⟨s, c, e⟩ p.key p.next) := by
  rw [(h.append s c e).readAt_eq, start_append, key_append, if_pos (h.next_eq ▸ h.start_le),
    h.next_eq, List.getElem?_concat_length]
  rfl

/-- The last message held is the last message of the history. -/
theorem Refines.readLatest_eq (h : p.Refines H) :
    p.readLatest = H.getLast?.map (·.stamp p.key (H.length - 1)) := by
  rw [readLatest, Queue.peekBack, h.retained_eq, List.getLast?_drop, length_stamped]
  by_cases hne : H = []
  · simp [hne]
  · rw [if_neg (Nat.not_le.mpr (h.start_lt hne)), stamped, List.getLast?_mapIdx]

/-! ## Runs of calls -/

/-- A call on a partition. -/
inductive Call where
  | append (e : Entry)
  | reset

/-- Serves a call: the partition after it, and the offset it answers, which is the offset an
append got or the start a reset set. -/
def serve (p : Partition) : Call → Partition × Nat
  | .append e => p.append e.sequence e.content e.expiresAt
  | .reset => p.reset

/-- The partition after a run of calls. -/
def after (p : Partition) (calls : List Call) : Partition :=
  calls.foldl (fun q c => (q.serve c).1) p

/-- The entries a run of calls appends, in order. -/
def appended (calls : List Call) : List Entry :=
  calls.filterMap fun
    | .append e => some e
    | .reset => none

@[simp] theorem after_nil (p : Partition) : p.after [] = p := rfl

@[simp] theorem after_cons (p : Partition) (c : Call) (calls : List Call) :
    p.after (c :: calls) = (p.serve c).1.after calls := rfl

@[simp] theorem appended_nil : appended [] = [] := rfl

@[simp] theorem appended_append_cons (e : Entry) (calls : List Call) :
    appended (.append e :: calls) = e :: appended calls := rfl

@[simp] theorem appended_reset_cons (calls : List Call) :
    appended (.reset :: calls) = appended calls := rfl

@[simp] theorem key_serve (p : Partition) (c : Call) : (p.serve c).1.key = p.key := by
  cases c <;> rfl

@[simp] theorem key_after (p : Partition) (calls : List Call) : (p.after calls).key = p.key := by
  induction calls generalizing p with
  | nil => rfl
  | cons c calls ih => rw [after_cons, ih, key_serve]

theorem Refines.serve_append (h : p.Refines H) (e : Entry) : (p.serve (.append e)).2 = H.length :=
  h.next_eq

theorem Refines.serve_reset (h : p.Refines H) : (p.serve .reset).2 = H.length - 1 :=
  h.reset_snd

/-- **A run keeps the relation**: the partition after it refines the history extended by the
entries the run appends. -/
theorem Refines.after (h : p.Refines H) (calls : List Call) :
    (p.after calls).Refines (H ++ appended calls) := by
  induction calls generalizing p H with
  | nil => simpa using h
  | cons c calls ih =>
    cases c with
    | append e =>
      have := ih (h.append e.sequence e.content e.expiresAt)
      rw [List.append_assoc, List.singleton_append] at this
      exact this
    | reset => exact ih h.reset

/-- Along a run, the start never moves back. -/
theorem Refines.start_le_after (h : p.Refines H) (calls : List Call) :
    p.start ≤ (p.after calls).start := by
  induction calls generalizing p H with
  | nil => exact Nat.le_refl _
  | cons c calls ih =>
    cases c with
    | append e => exact ih (h.append e.sequence e.content e.expiresAt)
    | reset => exact Nat.le_trans h.start_le_reset (ih h.reset)

/-- A run with no reset keeps the start. -/
theorem start_after_of_no_reset (p : Partition) {calls : List Call} (hr : Call.reset ∉ calls) :
    (p.after calls).start = p.start := by
  induction calls generalizing p with
  | nil => rfl
  | cons c calls ih =>
    cases c with
    | append e => exact ih _ (fun hm => hr (List.mem_cons_of_mem _ hm))
    | reset => exact absurd List.mem_cons_self hr

/-- **A partition after any run of appends and resets, against its history** `H`, the entries
appended in order: the `i`-th append answers `i` and the high watermark is the length of `H`;
the queue holds `H` from the start on, each message at its offset and under the partition's
key; the start is `0` until a reset, a reset answers and sets the last offset of `H`, the start
never moves back and lies below the length of a non-empty `H`; and a read at any offset is
chased past below the start, waits beyond `H`, and otherwise finds the message of `H` there,
so the queue position it looks at is always filled. -/
theorem after_create_follows_history (topic : TopicName) (key : String) (calls : List Call) :
    let p := (create topic key).after calls
    let H := appended calls
    (p.highWatermark = H.length ∧ ∀ e, (p.serve (.append e)).2 = H.length) ∧
    (∀ i, p.retained.get? i = H[p.start + i]?.map (·.stamp key (p.start + i))) ∧
    (Call.reset ∉ calls → p.start = 0) ∧
    ((p.serve .reset).2 = H.length - 1 ∧ (p.serve .reset).1.start = H.length - 1) ∧
    (∀ more, p.start ≤ (p.after more).start) ∧
    p.start ≤ H.length ∧ (H ≠ [] → p.start < H.length) ∧
    (∀ o, p.read o = if o < p.start then .chasedPast p.start else
      match H[o]? with
      | some e => .ready (e.stamp key o)
      | none => .pending) ∧
    (∀ o, p.start ≤ o → o < p.next → (p.retained.get? (o - p.start)).isSome) ∧
    (∀ o, p.readAt o = if p.start ≤ o then H[o]?.map (·.stamp key o) else none) ∧
    p.readLatest = H.getLast?.map (·.stamp key (H.length - 1)) := by
  intro p H
  have h : p.Refines H := by simpa using (refines_create topic key).after calls
  have hkey : p.key = key := key_after _ _
  refine ⟨⟨h.next_eq, fun _ => h.serve_append _⟩, ?_, fun hr => start_after_of_no_reset _ hr,
    ⟨h.serve_reset, h.reset_snd⟩, h.start_le_after, h.start_le, h.start_lt, ?_, ?_, ?_, ?_⟩
  · simpa [hkey] using h.get?_retained
  · simpa [hkey] using h.read_eq
  · intro o h₁ h₂
    rw [h.get?_retained_sub h₁ (h.next_eq ▸ h₂)]
    rfl
  · simpa [hkey] using h.readAt_eq
  · simpa [hkey] using h.readLatest_eq

end Partition

end MessageBroker
