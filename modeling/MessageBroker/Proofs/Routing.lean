import Mathlib.Data.List.Induction
import Mathlib.Data.List.Nodup
import MessageBroker.Text.Utf8
import MessageBroker.Proofs.TopicShape
/-!
# Routing

A message with a non-empty key goes to the partition of that key, created when missing. A message
without a key, or with the empty key, goes round robin: the number of such messages before it,
modulo the number of partitions, picks a partition in key order. Keys are ordered by their UTF-8
bytes, which is the order of their code points, so the order of a topic's keys is byte order.

This module says what one route answers and changes, follows the round-robin counter along any run
of changes of a topic, and reads off where a run of unkeyed saves to a topic that the first save
creates lands: the partitions in turn, in byte order of their keys, each at the next offset.

## Main definitions

* `Topic.Change.unkeyed`: a route without a key or with the empty key
* `roundRobinShare`: how many of `i` messages sent round robin over `m` places reach place `j`

## Main results

* `Text.Utf8.encode_lt_encode_iff`: UTF-8 bytes are ordered as the strings they encode
* `Topic.roundRobin_changes`: the counter counts the unkeyed routes of a run
* `Topic.Shape.getElem?_keys_route_of_unkeyed`: an unkeyed route lands on the key at the counter
* `Topic.Refines.route_offset`: a route answers the high watermark it appends at
* `Topic.route_lands`: what a route does in every topic reachable from its creation
* `Storage.unkeyed_saves_round_robin`: where unkeyed saves to a new topic land
-/

namespace MessageBroker

/-! ## Byte order -/

namespace Text.Utf8

theorem ofNat_lt_ofNat {a b : Nat} (ha : a < 256) (hb : b < 256) :
    UInt8.ofNat a < UInt8.ofNat b ↔ a < b := by
  rw [UInt8.lt_iff_toNat_lt, UInt8.toNat_ofNat_of_lt' ha, UInt8.toNat_ofNat_of_lt' hb]

theorem ofNat_inj {a b : Nat} (ha : a < 256) (hb : b < 256) :
    UInt8.ofNat a = UInt8.ofNat b ↔ a = b := by
  rw [← UInt8.toNat_inj, UInt8.toNat_ofNat_of_lt' ha, UInt8.toNat_ofNat_of_lt' hb]

/-- Every character lies below U+110000. -/
theorem toNat_lt_of_char (d : Char) : d.toNat < 0x110000 := by
  have hv : d.val.toNat.isValidChar := d.valid
  unfold Nat.isValidChar at hv
  rw [Char.toNat_val] at hv
  omega

/-- Below `2 ^ 21` the order of numbers is the order of their four base-64 digits, the top one
read modulo `8` as the lead byte of a four-byte sequence reads it. -/
theorem lt_digits64 {v w : Nat} (hvw : v < w) (hw : w < 2 ^ 21) :
    v / 262144 % 8 < w / 262144 % 8 ∨ v / 262144 % 8 = w / 262144 % 8 ∧
      (v / 4096 % 64 < w / 4096 % 64 ∨ v / 4096 % 64 = w / 4096 % 64 ∧
        (v / 64 % 64 < w / 64 % 64 ∨ v / 64 % 64 = w / 64 % 64 ∧ v % 64 < w % 64)) := by
  have hv : v = 262144 * (v / 262144 % 8) + 4096 * (v / 4096 % 64) + 64 * (v / 64 % 64) +
      v % 64 := by omega
  have hw' : w = 262144 * (w / 262144 % 8) + 4096 * (w / 4096 % 64) + 64 * (w / 64 % 64) +
      w % 64 := by omega
  have := Nat.mod_lt v (show 0 < 64 by decide)
  have := Nat.mod_lt w (show 0 < 64 by decide)
  have := Nat.mod_lt (v / 64) (show 0 < 64 by decide)
  have := Nat.mod_lt (w / 64) (show 0 < 64 by decide)
  have := Nat.mod_lt (v / 4096) (show 0 < 64 by decide)
  have := Nat.mod_lt (w / 4096) (show 0 < 64 by decide)
  -- with the digits as plain unknowns the comparison is linear
  generalize v / 262144 % 8 = a₁ at *
  generalize v / 4096 % 64 = a₂ at *
  generalize v / 64 % 64 = a₃ at *
  generalize v % 64 = a₄ at *
  generalize w / 262144 % 8 = b₁ at *
  generalize w / 4096 % 64 = b₂ at *
  generalize w / 64 % 64 = b₃ at *
  generalize w % 64 = b₄ at *
  omega

/-- **The bytes of a character are ordered as the character**, whatever follows each: lead bytes
grow with the length of the sequence, and within one length the bytes are the digits of the code
point. -/
theorem utf8EncodeChar_append_lt {c d : Char} (h : c < d) (r s : List UInt8) :
    String.utf8EncodeChar c ++ r < String.utf8EncodeChar d ++ s := by
  have hlt : c.toNat < d.toNat := h
  have hd := toNat_lt_of_char d
  have hdig := lt_digits64 hlt (by omega)
  unfold String.utf8EncodeChar
  rw [Char.toNat_val, Char.toNat_val]
  dsimp only
  split_ifs <;> simp only [List.cons_append, List.nil_append, List.cons_lt_cons_iff] <;>
    simp (disch := omega) only [ofNat_lt_ofNat, ofNat_inj] <;> omega

theorem flatMap_lt_flatMap {a b : List Char} (h : a < b) :
    a.flatMap String.utf8EncodeChar < b.flatMap String.utf8EncodeChar := by
  induction a generalizing b with
  | nil =>
    cases b with
    | nil => exact absurd h (List.not_lt_nil [])
    | cons d ds =>
      obtain ⟨x, xs, hx⟩ := List.exists_cons_of_ne_nil (String.utf8EncodeChar_ne_nil (c := d))
      simp [hx]
  | cons c cs ih =>
    cases b with
    | nil => exact absurd h (List.not_lt_nil _)
    | cons d ds =>
      simp only [List.flatMap_cons]
      rcases List.cons_lt_cons_iff.mp h with hcd | ⟨rfl, hcs⟩
      · exact utf8EncodeChar_append_lt hcd _ _
      · exact List.append_left_lt (ih hcs)

/-- **UTF-8 bytes are ordered as the strings they encode**: byte order of keys is the order of
their characters. -/
theorem encode_lt_encode_iff {a b : String} : encode a < encode b ↔ a < b := by
  constructor
  · intro h
    rcases lt_trichotomy a b with hab | rfl | hba
    · exact hab
    · exact absurd h (List.lt_irrefl _)
    · exact absurd (flatMap_lt_flatMap hba) (List.lt_asymm h)
  · exact flatMap_lt_flatMap

end Text.Utf8

/-! ## The round-robin counter -/

namespace Topic

/-- A route without a key, or with the empty key: it goes round robin. -/
def Change.unkeyed : Change → Bool
  | .route none _ _ => true
  | .route (some k) _ _ => k == ""
  | _ => false

variable {t : Topic} {k : String}

@[simp] theorem roundRobin_addPartition : (t.addPartition k).1.roundRobin = t.roundRobin := by
  unfold addPartition; split <;> rfl

@[simp] theorem roundRobin_addPartitions (ks : List String) :
    (ks.foldl (fun t k => (t.addPartition k).1) t).roundRobin = t.roundRobin := by
  induction ks generalizing t with
  | nil => rfl
  | cons k ks ih => rw [List.foldl_cons, ih, roundRobin_addPartition]

@[simp] theorem roundRobin_withKeys (name : TopicName) (keys : List String) :
    (withKeys name keys).roundRobin = 0 := by
  rw [withKeys, roundRobin_addPartitions]
  rfl

/-- A route moves the counter on exactly when it goes round robin. -/
theorem roundRobin_change (ch : Change) :
    (t.change ch).roundRobin = t.roundRobin + if ch.unkeyed then 1 else 0 := by
  cases ch with
  | addPartition k => simp [change, Change.unkeyed]
  | route key c e =>
    rw [change, route_eq_appendAt, roundRobin_appendAt]
    cases key with
    | none => simp [target, Change.unkeyed]
    | some k => by_cases hk : k = "" <;> simp [target, Change.unkeyed, hk, keyedPartition_fst]
  | reset => simp [change, reset, Change.unkeyed]

/-- **The counter counts the unkeyed routes of a run.** -/
theorem roundRobin_changes (cs : List Change) :
    (t.changes cs).roundRobin = t.roundRobin + cs.countP Change.unkeyed := by
  induction cs generalizing t with
  | nil => simp
  | cons ch cs ih =>
    rw [changes_cons, ih, roundRobin_change, List.countP_cons]
    split <;> omega

theorem changes_append (cs ds : List Change) : t.changes (cs ++ ds) = (t.changes cs).changes ds :=
  List.foldl_append

/-- A key of a reachable topic is a key it was made with, or one a change brought in. -/
theorem mem_keys_changes (cs : List Change) {k : String} :
    k ∈ (t.changes cs).keys ↔ k ∈ t.keys ∨ ∃ ch ∈ cs, ch.newKey = some k := by
  induction cs generalizing t with
  | nil => simp
  | cons ch cs ih =>
    rw [changes_cons, ih, mem_keys_change]
    simp only [List.mem_cons, exists_eq_or_imp]
    tauto

/-- Every topic reachable from its creation refines some histories. -/
theorem exists_refines_changes (name : TopicName) (keys : List String) (cs : List Change) :
    ∃ hist, ((withKeys name keys).changes cs).Refines hist := by
  -- each change keeps some refinement, so a run does
  have hrun : ∀ (t : Topic) hist, t.Refines hist → ∃ hist', (t.changes cs).Refines hist' := by
    intro t hist h
    induction cs generalizing t hist with
    | nil => exact ⟨hist, h⟩
    | cons ch cs ih =>
      rw [changes_cons]
      cases ch with
      | addPartition k => exact ih _ _ (h.addPartition k)
      | route key c e => exact ih _ _ (h.route key c e)
      | reset => exact ih _ _ h.reset
  exact hrun _ _ (refines_withKeys name keys)

/-! ## One route -/

/-- A route without a key, or with the empty key, lands on the key of the partition the round
robin picks and adds no key. -/
theorem route_of_unkeyed {key : Option String} (hk : key = none ∨ key = some "")
    (c : List UInt8) (e : Option Instant) :
    (t.route key c e).2.1 = t.keyAt t.nextRoundRobin.2 ∧ (t.route key c e).1.keys = t.keys := by
  refine ⟨by rw [route_key, routeTarget_of_unkeyed hk], ?_⟩
  rw [keys_route]
  rcases hk with rfl | rfl <;> simp [target]

/-- A route with a non-empty key adds a partition exactly when the key had none. -/
theorem length_keys_route_of_ne (hk : k ≠ "") (c : List UInt8) (e : Option Instant) :
    (t.route (some k) c e).1.keys.length = t.keys.length + if k ∈ t.keys then 0 else 1 := by
  rw [keys_route]
  simp only [target, hk, if_false]
  rw [keyedPartition_fst]
  by_cases hm : k ∈ t.keys
  · rw [addPartition_of_mem hm, if_pos hm]
    rfl
  · rw [(keys_addPartition_perm hm).length_eq, if_neg hm, List.length_cons]

/-- **A route answers the high watermark it appends at**: that of the partition under the key it
answers, or `0` for a partition it creates. -/
theorem Refines.route_offset {hist : String → List Partition.Entry} (h : t.Refines hist)
    (key : Option String) (c : List UInt8) (e : Option Instant) :
    (t.route key c e).2.2 =
      ((t.find? (t.route key c e).2.1).getD
        (Partition.create t.name (t.route key c e).2.1)).highWatermark := by
  have hp := h.find?_routeTarget key (t.routeTarget key).2
  rw [if_pos rfl] at hp
  simp only [route_eq h.mapped]
  rw [appendTo_of_find? hp]
  rfl

/-- **What a route does**, in every topic made with any keys and changed by any run of added
partitions, routes and resets. Its keys are those it was made with, the default one, and those
the run brought in, kept in byte order; its counter is the number of unkeyed routes of the run.
The next route, unkeyed, lands on the key at that number modulo the number of keys, and moves the
counter on; keyed with a non-empty key, it lands on that key, creates its partition exactly when
missing, and leaves the counter. Either way it answers the key it appended to and that
partition's high watermark before the call, and changes no other partition. -/
theorem route_lands (name : TopicName) (keys : List String) (cs : List Change) (key : Option String)
    (c : List UInt8) (e : Option Instant) :
    let t := (withKeys name keys).changes cs
    let r := t.route key c e
    (t.keys.Pairwise (fun a b => Text.Utf8.encode a < Text.Utf8.encode b) ∧
      (∀ k, k ∈ t.keys ↔ k = "" ∨ k ∈ keys ∨ ∃ ch ∈ cs, ch.newKey = some k) ∧
      t.roundRobin = cs.countP Change.unkeyed) ∧
    ((key = none ∨ key = some "") →
      t.keys[cs.countP Change.unkeyed % t.keys.length]? = some r.2.1 ∧
      r.1.keys = t.keys ∧ r.1.roundRobin = t.roundRobin + 1) ∧
    (∀ k, key = some k → k ≠ "" →
      r.2.1 = k ∧ r.1.roundRobin = t.roundRobin ∧ (∀ k', k' ∈ r.1.keys ↔ k' = k ∨ k' ∈ t.keys) ∧
      r.1.keys.length = t.keys.length + if k ∈ t.keys then 0 else 1) ∧
    r.2.2 = ((t.find? r.2.1).getD (Partition.create name r.2.1)).highWatermark ∧
    ∀ k', r.1.find? k' = if k' = r.2.1 then
        some (((t.find? k').getD (Partition.create name k')).append t.sequence c e).1
      else t.find? k' := by
  intro t r
  have hshape : t.Shape := (shape_withKeys name keys).changes cs
  have hname : t.name = name := by simp [t, withKeys]
  have hrr : t.roundRobin = cs.countP Change.unkeyed := by
    rw [roundRobin_changes, roundRobin_withKeys, Nat.zero_add]
  obtain ⟨hist, hrefines⟩ := exists_refines_changes name keys cs
  refine ⟨⟨hshape.ascending.imp Text.Utf8.encode_lt_encode_iff.mpr, fun k => ?_, hrr⟩,
    fun hk => ?_, fun k hk hne => ?_, ?_, ?_⟩
  · rw [mem_keys_changes, mem_keys_withKeys, or_assoc]
  · -- unkeyed: the round robin at the counter
    obtain ⟨hkey, hkeys⟩ := route_of_unkeyed (t := t) hk c e
    refine ⟨?_, hkeys, ?_⟩
    · rw [← hrr, hshape.mapped.nextRoundRobin_lands.2, hkey]
    · rw [show r.1.roundRobin = (t.change (.route key c e)).roundRobin from rfl, roundRobin_change]
      rcases hk with rfl | rfl <;> rfl
  · -- keyed: the key itself, created when missing
    subst hk
    refine ⟨route_key_of_ne hshape.keyed hne c e, ?_, fun k' => ?_, length_keys_route_of_ne hne c e⟩
    · rw [show r.1.roundRobin = (t.change (.route (some k) c e)).roundRobin from rfl,
        roundRobin_change]
      simp [Change.unkeyed, hne]
    · rw [mem_keys_route]
      simp only [Change.newKey, hne, if_false, Option.some.injEq]
      rw [or_comm, @eq_comm _ k k']
  · rw [hrefines.route_offset, hname]
  · rw [← hname]
    exact hrefines.find?_route key c e

/-! ## Unkeyed routes in turn -/

/-- How many of `i` messages sent round robin over `m` places, from the first place on, reach the
place `j`: `i / m`, and one more when `j` comes before `i % m`. -/
def roundRobinShare (i m j : Nat) : Nat := i / m + if j < i % m then 1 else 0

/-- One more message reaches the place `i % m` and no other. -/
theorem roundRobinShare_succ {i m j : Nat} (hj : j < m) :
    roundRobinShare (i + 1) m j = roundRobinShare i m j + if j = i % m then 1 else 0 := by
  have hm : 0 < m := by omega
  have hr := Nat.mod_lt i hm
  have hdm := Nat.div_add_mod i m
  by_cases hlast : i % m + 1 = m
  · -- the message is the last of a round: the next round begins
    have h : i + 1 = m * (i / m + 1) := by rw [Nat.mul_succ]; omega
    have hdiv : (i + 1) / m = i / m + 1 := by rw [h, Nat.mul_div_cancel_left _ hm]
    have hmod : (i + 1) % m = 0 := by rw [h, Nat.mul_mod_right]
    unfold roundRobinShare
    rw [hdiv, hmod]
    split_ifs <;> omega
  · have hlt : i % m + 1 < m := by omega
    have h : i + 1 = m * (i / m) + (i % m + 1) := by omega
    have hdiv : (i + 1) / m = i / m := by
      rw [h, Nat.mul_add_div hm, Nat.div_eq_of_lt hlt, Nat.add_zero]
    have hmod : (i + 1) % m = i % m + 1 := by rw [h, Nat.mul_add_mod, Nat.mod_eq_of_lt hlt]
    unfold roundRobinShare
    rw [hdiv, hmod]
    split_ifs <;> omega

theorem roundRobinShare_mod (i m : Nat) : roundRobinShare i m (i % m) = i / m := by
  simp [roundRobinShare]

theorem Change.eq_route_of_unkeyed {ch : Change} (h : ch.unkeyed) :
    ∃ key c e, ch = .route key c e ∧ (key = none ∨ key = some "") := by
  cases ch with
  | route key c e =>
    refine ⟨key, c, e, rfl, ?_⟩
    cases key with
    | none => exact .inl rfl
    | some k =>
      simp only [Change.unkeyed, beq_iff_eq] at h
      exact .inr (by rw [h])
  | addPartition k => simp [Change.unkeyed] at h
  | reset => simp [Change.unkeyed] at h

/-- After a run of unkeyed routes into a new topic, the counter is the number of routes. -/
theorem roundRobin_unkeyed_run (name : TopicName) (keys : List String) {cs : List Change}
    (hcs : ∀ ch ∈ cs, ch.unkeyed) : ((withKeys name keys).changes cs).roundRobin = cs.length := by
  rw [roundRobin_changes, roundRobin_withKeys, Nat.zero_add, List.countP_eq_length]
  exact hcs

/-- An unkeyed route lands on the key the counter points at. -/
theorem Shape.getElem?_keys_route_of_unkeyed (h : t.Shape) {key : Option String}
    (hk : key = none ∨ key = some "") (c : List UInt8) (e : Option Instant) :
    t.keys[t.roundRobin % t.keys.length]? = some (t.route key c e).2.1 := by
  rw [(route_of_unkeyed hk c e).1]
  exact h.mapped.nextRoundRobin_lands.2

/-- **Unkeyed routes share the partitions in turn.** Route `i` messages without a key, or with the
empty key, into a topic just made with some keys: the keys stay, and the history under the key at
place `j` has `roundRobinShare i m j` entries, `m` being the number of keys. The induction adds
the routes one at a time at the end. -/
theorem unkeyed_run (name : TopicName) (keys : List String) {cs : List Change}
    (hcs : ∀ ch ∈ cs, ch.unkeyed) :
    ∃ hist, ((withKeys name keys).changes cs).Refines hist ∧
      ((withKeys name keys).changes cs).keys = (withKeys name keys).keys ∧
      ∀ j (hj : j < (withKeys name keys).keys.length),
        (hist (withKeys name keys).keys[j]).length =
          roundRobinShare cs.length (withKeys name keys).keys.length j := by
  induction cs using List.reverseRecOn with
  | nil =>
    exact ⟨fun _ => [], refines_withKeys name keys, rfl, fun j _ => by simp [roundRobinShare]⟩
  | append_singleton cs ch ih =>
    have hcs' : ∀ x ∈ cs, x.unkeyed := fun x hx => hcs x (List.mem_append_left _ hx)
    obtain ⟨hist, hr, hkeys, hlen⟩ := ih hcs'
    have hshape : ((withKeys name keys).changes cs).Shape := (shape_withKeys name keys).changes cs
    have hrr := roundRobin_unkeyed_run name keys hcs'
    obtain ⟨key, c, e, rfl, hkey⟩ := Change.eq_route_of_unkeyed (hcs ch (by simp))
    rw [changes_append, changes_cons, changes_nil, change]
    generalize hL : (withKeys name keys).keys = L at hkeys hlen ⊢
    generalize (withKeys name keys).changes cs = T at hr hkeys hshape hrr
    -- the route lands on the key at place `i % m`
    have hpos : 0 < L.length := hkeys ▸ List.length_pos_of_mem hshape.default_mem
    have hidx : cs.length % L.length < L.length := Nat.mod_lt _ hpos
    have hat : L[cs.length % L.length] = (T.route key c e).2.1 := by
      have := hshape.getElem?_keys_route_of_unkeyed hkey c e
      rw [hkeys, hrr, List.getElem?_eq_getElem hidx] at this
      exact Option.some.inj this
    have hnodup : L.Nodup := hkeys ▸ hshape.nodup
    refine ⟨_, hr.route key c e, (route_of_unkeyed hkey c e).2.trans hkeys, fun j hj => ?_⟩
    rw [List.length_append, List.length_singleton, roundRobinShare_succ hj, ← hlen j hj,
      Function.update_apply]
    -- only the key at place `i % m` gets the entry, since keys are distinct
    by_cases hji : j = cs.length % L.length
    · subst hji
      rw [if_pos hat, if_pos rfl, List.length_append, List.length_singleton, hat]
    · have hne : L[j] ≠ (T.route key c e).2.1 := by
        rw [← hat]
        exact fun h => hji ((hnodup.getElem_inj_iff).mp h)
      rw [if_neg hne, if_neg hji, Nat.add_zero]

/-- After `i` unkeyed routes into a topic just made with some keys, one more lands on the key at
place `i % m` of the topic's keys, at offset `i / m`. -/
theorem route_after_unkeyed_run (name : TopicName) (keys : List String) {cs : List Change}
    (hcs : ∀ ch ∈ cs, ch.unkeyed) {key : Option String} (hk : key = none ∨ key = some "")
    (c : List UInt8) (e : Option Instant) :
    (withKeys name keys).keys[cs.length % (withKeys name keys).keys.length]? =
        some (((withKeys name keys).changes cs).route key c e).2.1 ∧
      (((withKeys name keys).changes cs).route key c e).2.2 =
        cs.length / (withKeys name keys).keys.length := by
  obtain ⟨hist, hr, hkeys, hlen⟩ := unkeyed_run name keys hcs
  have hshape : ((withKeys name keys).changes cs).Shape := (shape_withKeys name keys).changes cs
  have hat := hshape.getElem?_keys_route_of_unkeyed hk c e
  rw [hkeys, roundRobin_unkeyed_run name keys hcs] at hat
  refine ⟨hat, ?_⟩
  -- the offset is the length of the history under that key, which the counting invariant gives
  have hidx := Nat.mod_lt cs.length (List.length_pos_of_mem (hkeys ▸ hshape.default_mem))
  rw [List.getElem?_eq_getElem hidx] at hat
  rw [hr.route_snd, ← Option.some.inj hat, hlen _ hidx, roundRobinShare_mod]

end Topic

/-! ## Unkeyed saves to a new topic -/

namespace Storage

/-- The keys a new topic gets are distinct: the default key and decimals from `1` on. -/
theorem partitionKeys_nodup (n : Nat) : (partitionKeys n).Nodup := by
  unfold partitionKeys
  refine (List.nodup_range).map_on fun i _ j _ hij => ?_
  -- a decimal is never empty, and distinct numbers have distinct decimals
  have hdec : ∀ a b : Nat, toString a = toString b → a = b := fun a b h => by
    have := congrArg (fun s : String => Nat.ofDigitChars 10 s.toList 0) h
    simpa using this
  by_cases hi : i = 0 <;> by_cases hj : j = 0 <;> simp only [hi, hj, if_true, if_false] at hij
  · rw [hi, hj]
  · exact absurd hij.symm (by simp)
  · exact absurd hij (by simp)
  · exact hdec i j hij

theorem default_mem_partitionKeys (n : Nat) : "" ∈ partitionKeys n := by
  simp only [partitionKeys, List.mem_map, List.mem_range]
  exact ⟨0, by omega, rfl⟩

/-- A new topic's keys are the partition keys of the store, in key order. -/
theorem perm_keys_withKeys (name : TopicName) (n : Nat) :
    (Topic.withKeys name (partitionKeys n)).keys.Perm (partitionKeys n) := by
  rw [List.perm_ext_iff_of_nodup (Topic.shape_withKeys name _).nodup (partitionKeys_nodup n)]
  intro k
  rw [Topic.mem_keys_withKeys]
  constructor
  · rintro (rfl | hk)
    · exact default_mem_partitionKeys n
    · exact hk
  · exact .inr

/-- A save leaves the topic it routed into as the one the next save routes into. -/
theorem saveTarget_save (s : Storage) (name : TopicName) (c : List UInt8) (key : Option String)
    (e : Option Instant) :
    (s.save name c key e).1.saveTarget name = ((s.saveTarget name).route key c e).1 := by
  unfold saveTarget
  rw [topic?_save, if_pos rfl]
  rfl

/-- Saves to one topic change it as the routes of their messages do. -/
theorem saveTarget_runOps_saves (s : Storage) (name : TopicName)
    (xs : List (List UInt8 × Option String × Option Instant)) :
    (s.runOps (xs.map fun x => .save name x.1 x.2.1 x.2.2)).saveTarget name =
      (s.saveTarget name).changes (xs.map fun x => .route x.2.1 x.1 x.2.2) := by
  induction xs generalizing s with
  | nil => rfl
  | cons x xs ih =>
    rw [List.map_cons, runOps_cons, ih, List.map_cons, Topic.changes_cons]
    simp only [apply, saveTarget_save, Topic.change]

/-- **Unkeyed saves to a new topic go round robin over its partitions in byte order of their
keys.** A store whose topics get `n` partitions gives a new topic the keys `partitionKeys n`:
`max n 1` distinct keys, which the topic keeps in byte order. Save messages without a key, or with
the empty key, to a topic the store lacks: the `i`-th lands on the key at place `i % max n 1` of
that order, at offset `i / max n 1`. -/
theorem unkeyed_saves_round_robin (s : Storage) (name : TopicName)
    (saves : List (List UInt8 × Option String × Option Instant)) (hs : s.topic? name = none)
    (hsaves : ∀ x ∈ saves, x.2.1 = none ∨ x.2.1 = some "") :
    let L := (Topic.withKeys name (partitionKeys s.defaultPartitions)).keys
    let m := max s.defaultPartitions 1
    ((partitionKeys s.defaultPartitions).Nodup ∧ (partitionKeys s.defaultPartitions).length = m) ∧
    (L.Pairwise (fun a b => Text.Utf8.encode a < Text.Utf8.encode b) ∧
      L.Perm (partitionKeys s.defaultPartitions)) ∧
    ∀ i (hi : i < saves.length),
      let id := ((s.runOps ((saves.take i).map fun x => .save name x.1 x.2.1 x.2.2)).save name
        saves[i].1 saves[i].2.1 saves[i].2.2).2
      id.topic = name ∧ L[i % m]? = some id.partition ∧ id.offset = i / m := by
  intro L m
  have hperm := perm_keys_withKeys name s.defaultPartitions
  have hLm : L.length = m := hperm.length_eq.trans (partitionKeys_length _)
  refine ⟨⟨partitionKeys_nodup _, partitionKeys_length _⟩,
    ⟨(Topic.shape_withKeys name _).ascending.imp Text.Utf8.encode_lt_encode_iff.mpr, hperm⟩,
    fun i hi => ?_⟩
  -- the `i`-th save routes into the new topic after the first `i` routes
  have hunkeyed : ∀ ch ∈ (saves.take i).map (fun x => Topic.Change.route x.2.1 x.1 x.2.2),
      ch.unkeyed := by
    simp only [List.mem_map]
    rintro ch ⟨x, hx, rfl⟩
    rcases hsaves x (List.mem_of_mem_take hx) with h | h <;> simp [Topic.Change.unkeyed, h]
  have htarget :
      (s.runOps ((saves.take i).map fun x => .save name x.1 x.2.1 x.2.2)).saveTarget name =
      (Topic.withKeys name (partitionKeys s.defaultPartitions)).changes
        ((saves.take i).map fun x => .route x.2.1 x.1 x.2.2) := by
    rw [saveTarget_runOps_saves]
    simp only [saveTarget, hs, Option.getD_none]
  have hlength : ((saves.take i).map fun x => Topic.Change.route x.2.1 x.1 x.2.2).length = i := by
    simp only [List.length_map, List.length_take]
    omega
  obtain ⟨hat, hoff⟩ := Topic.route_after_unkeyed_run name (partitionKeys s.defaultPartitions)
    hunkeyed (hsaves saves[i] (List.getElem_mem hi)) saves[i].1 saves[i].2.2
  rw [hlength] at hat hoff
  dsimp only
  rw [save_eq, htarget, ← hLm]
  exact ⟨rfl, hat, hoff⟩

/-- Twelve partitions: the keys are in byte order, not numeric order. -/
example : (Topic.withKeys ⟨"orders", by decide⟩ (partitionKeys 12)).keys =
    ["", "1", "10", "11", "2", "3", "4", "5", "6", "7", "8", "9"] := by decide

end Storage

/-- **The routing law.** A route into a topic reachable from its creation by any run of added
partitions, routes and resets lands on the key at the count of unkeyed routes so far modulo the
number of keys, in byte order, when unkeyed; on its own key, created exactly when missing and
with the counter left, when keyed; and answers that partition's high watermark before it. A run
of unkeyed saves to a topic a store creates therefore goes round robin over the store's
partition keys in byte order, the `i`-th at offset `i / max n 1`. -/
theorem routing_law :
    (∀ (name : TopicName) (keys : List String) (cs : List Topic.Change) (key : Option String)
        (c : List UInt8) (e : Option Instant),
      let t := (Topic.withKeys name keys).changes cs
      let r := t.route key c e
      (t.keys.Pairwise (fun a b => Text.Utf8.encode a < Text.Utf8.encode b) ∧
        (∀ k, k ∈ t.keys ↔ k = "" ∨ k ∈ keys ∨ ∃ ch ∈ cs, ch.newKey = some k) ∧
        t.roundRobin = cs.countP Topic.Change.unkeyed) ∧
      ((key = none ∨ key = some "") →
        t.keys[cs.countP Topic.Change.unkeyed % t.keys.length]? = some r.2.1 ∧
        r.1.keys = t.keys ∧ r.1.roundRobin = t.roundRobin + 1) ∧
      (∀ k, key = some k → k ≠ "" →
        r.2.1 = k ∧ r.1.roundRobin = t.roundRobin ∧
        (∀ k', k' ∈ r.1.keys ↔ k' = k ∨ k' ∈ t.keys) ∧
        r.1.keys.length = t.keys.length + if k ∈ t.keys then 0 else 1) ∧
      r.2.2 = ((t.find? r.2.1).getD (Partition.create name r.2.1)).highWatermark ∧
      ∀ k', r.1.find? k' = if k' = r.2.1 then
          some (((t.find? k').getD (Partition.create name k')).append t.sequence c e).1
        else t.find? k') ∧
    (∀ (s : Storage) (name : TopicName) (saves : List (List UInt8 × Option String × Option Instant)),
      s.topic? name = none → (∀ x ∈ saves, x.2.1 = none ∨ x.2.1 = some "") →
      let L := (Topic.withKeys name (partitionKeys s.defaultPartitions)).keys
      let m := max s.defaultPartitions 1
      ((partitionKeys s.defaultPartitions).Nodup ∧
          (partitionKeys s.defaultPartitions).length = m) ∧
      (L.Pairwise (fun a b => Text.Utf8.encode a < Text.Utf8.encode b) ∧
        L.Perm (partitionKeys s.defaultPartitions)) ∧
      ∀ i (hi : i < saves.length),
        let id := ((s.runOps ((saves.take i).map fun x => .save name x.1 x.2.1 x.2.2)).save name
          saves[i].1 saves[i].2.1 saves[i].2.2).2
        id.topic = name ∧ L[i % m]? = some id.partition ∧ id.offset = i / m) :=
  ⟨Topic.route_lands, Storage.unkeyed_saves_round_robin⟩

/-- Four unkeyed saves to a new topic of a store with three partitions: the fourth wraps round to
the first key at offset one. -/
theorem unkeyed_saves_wrap_round :
    let name : TopicName := ⟨"orders", by decide⟩
    let saves : List (List UInt8 × Option String × Option Instant) :=
      [([1], none, none), ([2], some "", none), ([3], none, none), ([4], none, none)]
    (Storage.create 3).topic? name = none ∧ (∀ x ∈ saves, x.2.1 = none ∨ x.2.1 = some "") ∧
    ∀ i (hi : i < saves.length),
      let id := (((Storage.create 3).runOps
        ((saves.take i).map fun x => .save name x.1 x.2.1 x.2.2)).save name
          saves[i].1 saves[i].2.1 saves[i].2.2).2
      id.topic = name ∧ (Topic.withKeys name (partitionKeys 3)).keys[i % 3]? = some id.partition ∧
        id.offset = i / 3 := by
  intro name saves
  exact ⟨rfl, by decide, (routing_law.2 (Storage.create 3) name saves rfl (by decide)).2.2⟩

end MessageBroker
