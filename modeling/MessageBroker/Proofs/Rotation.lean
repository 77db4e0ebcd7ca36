import Mathlib.Data.List.Rotate
import MessageBroker.Proofs.Lifecycle
import MessageBroker.Proofs.Routing
import MessageBroker.Proofs.CursorReads
/-!
# Rotation over the cursors

A poll of a subscription is a round over its cursors: it tries them in rotation from
`nextCursor` and answers what the first one that finds something reads, a message or a failure.
This module gives the exact outcome of a round, says when a round finds nothing, and follows the
rotation along many rounds. While every cursor can read, consecutive polls serve the cursors in
turn, one message each, so `k` polls per cursor read `k` messages from every partition and leave
the rotation where it started.

## Main definitions

* `Subscription.served`: the subscription after polls that each read the cursor at the rotation's
  start

## Main results

* `Subscription.pollSteps_range'_eq`: a round answers what the first cursor that finds something
  reads, and every cursor tried before it found nothing and stayed
* `Subscription.pollCursors_eq`: the same for a poll, whose rotation moves past a cursor that read
  a message and stays after a failure
* `Topic.Refines.pollCursors_eq_none_iff`: a poll finds nothing exactly when every cursor is at
  its partition's high watermark or beyond
* `Lifecycle.rotates_run`: along every run the rotation points at one of the cursors
* `Topic.Refines.iterate_pollCursors`: polls on one topic serve the cursors in turn
-/

namespace MessageBroker

namespace Subscription

variable {s : Subscription} {t : Topic}

/-! ## One cursor -/

/-- A cursor read that answers nothing leaves the cursor where it was. -/
theorem tryCursor_eq_self_iff {c : Cursor} :
    tryCursor t c = (c, .ok none) ↔ (tryCursor t c).2 = .ok none := by
  refine ⟨fun h => by rw [h], fun h => ?_⟩
  have hr : tryCursor t c = ((tryCursor t c).1, .ok none) := Prod.ext rfl h
  exact Prod.ext (tryCursor_eq_ok_none hr).1 h

theorem tryCursor_of_find? {c : Cursor} {p : Partition} (hp : t.find? c.key = some p) :
    tryCursor t c = c.tryNext p := by
  rw [tryCursor, hp]

theorem tryCursor_of_ready {c : Cursor} {p : Partition} {m : Message}
    (hp : t.find? c.key = some p) (hm : p.read c.position = .ready m) :
    tryCursor t c = ({ c with position := m.offset + 1 }, .ok (some m)) := by
  rw [tryCursor_of_find? hp, Cursor.tryNext, hm]

/-! ## One step of a round -/

section Step

variable {start count step : Nat} {rest : List Nat} {cs : List Cursor}

/-- A step that finds no cursor, or one that answers nothing, hands the round on with the
cursors as they were. -/
theorem pollSteps_cons_of_none
    (h : ∀ c, cs[(start + step) % count]? = some c → tryCursor t c = (c, .ok none)) :
    pollSteps t start count (step :: rest) cs = pollSteps t start count rest cs := by
  rw [pollSteps.eq_2]
  cases hc : cs[(start + step) % count]? with
  | none => rfl
  | some c =>
    dsimp only
    rw [h c hc, set_of_getElem? hc]

/-- A step that finds a cursor answering something ends the round with that answer, and the
cursor is replaced by the one its read left. -/
theorem pollSteps_cons_of_some {c : Cursor} (hc : cs[(start + step) % count]? = some c)
    (hr : (tryCursor t c).2 ≠ .ok none) :
    pollSteps t start count (step :: rest) cs =
      (cs.set ((start + step) % count) (tryCursor t c).1,
        (tryCursor t c).2.map (Option.map (·, (start + step) % count))) := by
  rw [pollSteps.eq_2, hc]
  dsimp only
  rcases tryCursor_cases t c with h | ⟨e, h⟩ | ⟨p, m, -, -, h⟩
  · exact absurd (by rw [h]) hr
  · rw [h]
    rfl
  · rw [h]
    rfl

end Step

/-! ## A round -/

/-- **A round answers what the first cursor that finds something reads.** Over the steps
`a, a + 1, …, a + n - 1` from `start`, either every cursor tried answers nothing, and the round
answers nothing with the cursors as they were; or the round stops at the first cursor that
answers something, every cursor tried before it answered nothing and stayed, and the round
answers what that cursor read, with the cursor replaced by the one its read left. -/
theorem pollSteps_range'_eq (t : Topic) (start count a n : Nat) (cs : List Cursor) :
    ((∀ i, a ≤ i → i < a + n → ∀ c, cs[(start + i) % count]? = some c →
        tryCursor t c = (c, .ok none)) ∧
      pollSteps t start count (List.range' a n) cs = (cs, .ok none)) ∨
    ∃ i, a ≤ i ∧ i < a + n ∧ ∃ c, cs[(start + i) % count]? = some c ∧
      (tryCursor t c).2 ≠ .ok none ∧
      (∀ i', a ≤ i' → i' < i → ∀ c', cs[(start + i') % count]? = some c' →
        tryCursor t c' = (c', .ok none)) ∧
      pollSteps t start count (List.range' a n) cs =
        (cs.set ((start + i) % count) (tryCursor t c).1,
          (tryCursor t c).2.map (Option.map (·, (start + i) % count))) := by
  induction n generalizing a with
  | zero => exact .inl ⟨fun i _ hi => absurd hi (by omega), rfl⟩
  | succ n ih =>
    rw [List.range'_succ]
    by_cases hfirst : ∀ c, cs[(start + a) % count]? = some c → tryCursor t c = (c, .ok none)
    · -- the first step answers nothing: the rest of the round decides, and the steps before
      -- the one it stops at are the first step and those the rest tried
      rw [pollSteps_cons_of_none hfirst]
      have hbefore : ∀ i, (∀ i', a + 1 ≤ i' → i' < i → ∀ c', cs[(start + i') % count]? = some c' →
            tryCursor t c' = (c', .ok none)) →
          ∀ i', a ≤ i' → i' < i → ∀ c', cs[(start + i') % count]? = some c' →
            tryCursor t c' = (c', .ok none) := by
        intro i hrest i' h₁ h₂
        rcases Nat.eq_or_lt_of_le h₁ with rfl | hlt
        · exact hfirst
        · exact hrest i' hlt h₂
      rcases ih (a + 1) with ⟨hall, hround⟩ | ⟨i, h₁, h₂, c, hc, hr, hprev, hround⟩
      · exact .inl ⟨fun i h₁ h₂ => hbefore (a + 1 + n) hall i h₁ (by omega), hround⟩
      · exact .inr ⟨i, by omega, by omega, c, hc, hr, hbefore i hprev, hround⟩
    · -- the first step answers something: the round stops there
      push Not at hfirst
      obtain ⟨c, hc, hr⟩ := hfirst
      have hr' : (tryCursor t c).2 ≠ .ok none := fun h => hr (tryCursor_eq_self_iff.mpr h)
      exact .inr ⟨a, Nat.le_refl a, by omega, c, hc, hr', fun i' h₁ h₂ => absurd h₂ (by omega),
        pollSteps_cons_of_some hc hr'⟩

/-- From any start, a round over as many steps as there are cursors tries every cursor. -/
theorem exists_step_of_mem {cs : List Cursor} {c : Cursor} (hc : c ∈ cs) (j : Nat) :
    ∃ i < cs.length, cs[(j + i) % cs.length]? = some c := by
  obtain ⟨i, hi⟩ := List.mem_iff_getElem?.mp (List.mem_rotate.mpr hc : c ∈ cs.rotate j)
  have hlt : i < cs.length := by simpa using (List.getElem?_eq_some_iff.mp hi).1
  refine ⟨i, hlt, ?_⟩
  rw [← hi, List.getElem?_rotate hlt, Nat.add_comm i j]

/-- **A poll answers what the first cursor in rotation order that finds something reads.** The
cursors are tried at `nextCursor`, `nextCursor + 1`, … modulo their number. If none finds
anything, the poll answers nothing and changes nothing. Otherwise the first that does decides:
every cursor tried before it answered nothing and stayed; a message moves that cursor alone, and
the rotation to the index after it; a failure changes nothing. -/
theorem pollCursors_eq (s : Subscription) (t : Topic) :
    ((∀ c ∈ s.cursors, tryCursor t c = (c, .ok none)) ∧ s.pollCursors t = (s, .ok none)) ∨
    ∃ i < s.cursors.length, ∃ c, s.cursors[(s.nextCursor + i) % s.cursors.length]? = some c ∧
      (∀ i' < i, ∀ c', s.cursors[(s.nextCursor + i') % s.cursors.length]? = some c' →
        tryCursor t c' = (c', .ok none)) ∧
      ((∃ c' m, tryCursor t c = (c', .ok (some m)) ∧
          s.pollCursors t = ({ s with
            cursors := s.cursors.set ((s.nextCursor + i) % s.cursors.length) c',
            nextCursor := ((s.nextCursor + i) % s.cursors.length + 1) % s.cursors.length },
            .ok (some m))) ∨
        ∃ e, tryCursor t c = (c, .error e) ∧ s.pollCursors t = (s, .error e)) := by
  rcases pollSteps_range'_eq t s.nextCursor s.cursors.length 0 s.cursors.length s.cursors with
    ⟨hall, hround⟩ | ⟨i, -, hi, c, hc, hr, hprev, hround⟩ <;>
    rw [← List.range_eq_range'] at hround
  · refine .inl ⟨fun c hc => ?_, by simp only [pollCursors, hround]⟩
    obtain ⟨i, hi, hci⟩ := exists_step_of_mem hc s.nextCursor
    exact hall i (Nat.zero_le i) (by omega) c hci
  · refine .inr ⟨i, by omega, c, hc, fun i' hi' => hprev i' (Nat.zero_le i') hi', ?_⟩
    rcases tryCursor_cases t c with h | ⟨e, h⟩ | ⟨p, m, -, -, h⟩
    · exact absurd (by rw [h]) hr
    · rw [h] at hround
      exact .inr ⟨e, h, by simp only [pollCursors, hround, set_of_getElem? hc]; rfl⟩
    · rw [h] at hround
      exact .inl ⟨_, m, h, by simp only [pollCursors, hround]; rfl⟩

/-- A poll answers nothing exactly when every cursor's read answers nothing. -/
theorem pollCursors_eq_none_iff (s : Subscription) (t : Topic) :
    (s.pollCursors t).2 = .ok none ↔ ∀ c ∈ s.cursors, tryCursor t c = (c, .ok none) := by
  rcases pollCursors_eq s t with ⟨hall, hround⟩ | ⟨i, -, c, hc, -, hstop⟩
  · rw [hround]
    exact ⟨fun _ => hall, fun _ => rfl⟩
  · -- the cursor the poll stopped at answered something, and so did the poll
    have hmem := List.mem_of_getElem? hc
    obtain ⟨hr, hpoll⟩ : (tryCursor t c).2 ≠ .ok none ∧ (s.pollCursors t).2 ≠ .ok none := by
      rcases hstop with ⟨c', m, hr, hround⟩ | ⟨e, hr, hround⟩ <;> rw [hr, hround] <;> simp
    exact ⟨fun h => absurd h hpoll, fun hall => absurd (by rw [hall c hmem]) hr⟩

/-- A poll that answers nothing changes nothing. -/
theorem pollCursors_of_none (h : (s.pollCursors t).2 = .ok none) : (s.pollCursors t).1 = s := by
  rcases pollCursors_cases s t with h' | ⟨e, h'⟩ | ⟨i, c, p, m, -, -, -, h'⟩
  · rw [h']
  · rw [h'] at h
    cases h
  · rw [h'] at h
    cases h

/-- A poll whose rotation starts at a cursor that can read reads that cursor: it moves past its
message, and the rotation moves on by one. -/
theorem pollCursors_of_ready {c : Cursor} {p : Partition} {m : Message}
    (hc : s.cursors[s.nextCursor]? = some c) (hp : t.find? c.key = some p)
    (hm : p.read c.position = .ready m) :
    s.pollCursors t = ({ s with
      cursors := s.cursors.set s.nextCursor { c with position := m.offset + 1 },
      nextCursor := (s.nextCursor + 1) % s.cursors.length }, .ok (some m)) := by
  have hj : s.nextCursor < s.cursors.length := (List.getElem?_eq_some_iff.mp hc).1
  -- the round's first step is at the rotation's start, and it stops there
  obtain ⟨n, hn⟩ : ∃ n, s.cursors.length = n + 1 := ⟨s.cursors.length - 1, by omega⟩
  have hrange : List.range s.cursors.length = 0 :: List.range' 1 n := by
    rw [hn, List.range_eq_range', List.range'_succ]
  have hc₀ : s.cursors[(s.nextCursor + 0) % s.cursors.length]? = some c := by
    rwa [Nat.add_zero, Nat.mod_eq_of_lt hj]
  have hr := tryCursor_of_ready hp hm
  simp only [pollCursors, hrange, pollSteps_cons_of_some hc₀ (by rw [hr]; simp), hr,
    Nat.add_zero, Nat.mod_eq_of_lt hj]
  rfl

/-! ## The rotation along a run -/

/-- A poll keeps the number of cursors. -/
@[simp] theorem length_cursors_pollCursors (s : Subscription) (t : Topic) :
    (s.pollCursors t).1.cursors.length = s.cursors.length := by
  rcases pollCursors_cases s t with h | ⟨e, h⟩ | ⟨i, c, p, m, -, -, -, h⟩ <;> simp [h]

/-- A poll keeps the rotation at one of the cursors. -/
theorem nextCursor_lt_pollCursors (h : s.nextCursor < s.cursors.length) :
    (s.pollCursors t).1.nextCursor < (s.pollCursors t).1.cursors.length := by
  rw [length_cursors_pollCursors]
  rcases pollCursors_cases s t with h' | ⟨e, h'⟩ | ⟨i, c, p, m, -, -, -, h'⟩ <;> rw [h']
  · exact h
  · exact h
  · exact Nat.mod_lt _ (by omega)

/-- A call changes the subscription as a poll of its cursors does, or not at all, and then
sets its state. -/
theorem next_fst_cases (s : Subscription) (t : Topic) :
    (s.next t).1 = { s with state := (s.next t).1.state } ∨
      (s.next t).1 = { (({ s with state := .streaming } : Subscription).pollCursors t).1 with
        state := (s.next t).1.state } := by
  cases hst : s.state
  case cancelled | failed | closed => exact .inl (by rw [next_of_ended (by simp [hst])])
  all_goals
    have hl : s.state = .opened ∨ s.state = .streaming := by simp [hst]
    rcases Bool.eq_false_or_eq_true s.cancelRequested with hc | hc
    · exact .inl (by rw [next_of_cancelRequested hl hc])
    · have hcf := not_cancelRequested_streaming hc
      refine .inr ?_
      cases hr : ({ s with state := .streaming } : Subscription).pollCursors t with
      | mk s' r =>
        cases r with
        | ok o =>
          cases o with
          | some m => rw [next_of_message hl hcf hr]
          | none => rw [next_of_waiting hl hcf hr]
        | error e => rw [next_of_round_error hl hcf hr]

theorem length_cursors_next (s : Subscription) (t : Topic) :
    (s.next t).1.cursors.length = s.cursors.length := by
  rcases next_fst_cases s t with h | h <;> rw [h]
  exact length_cursors_pollCursors _ t

theorem nextCursor_lt_next (h : s.nextCursor < s.cursors.length) :
    (s.next t).1.nextCursor < (s.next t).1.cursors.length := by
  rcases next_fst_cases s t with h' | h' <;> rw [h']
  · exact h
  · exact nextCursor_lt_pollCursors (s := { s with state := .streaming }) h

/-! ## Polls that read the cursor at the rotation's start -/

/-- Counted from the rotation's start `j`, the cursor at index `x` is the one a round reaches at
step `n` exactly when `x` is `(j + n) % len`. -/
theorem steps_from_eq_iff {len j x : Nat} (hj : j < len) (hx : x < len) (n : Nat) :
    (x + len - j) % len = n % len ↔ x = (j + n) % len := by
  have hq := Nat.mod_lt n (Nat.lt_of_le_of_lt (Nat.zero_le j) hj)
  have hrel : (x + len - j) % len = if j ≤ x then x - j else x + len - j := by
    split_ifs with hxj
    · rw [show x + len - j = x - j + len by omega, Nat.add_mod_right,
        Nat.mod_eq_of_lt (by omega)]
    · exact Nat.mod_eq_of_lt (by omega)
  have hidx : (j + n) % len = if j + n % len < len then j + n % len else j + n % len - len := by
    rw [← Nat.add_mod_mod]
    split_ifs with hlt
    · exact Nat.mod_eq_of_lt hlt
    · rw [Nat.mod_eq_sub_mod (by omega), Nat.mod_eq_of_lt (by omega)]
  rw [hrel, hidx]
  split_ifs <;> omega

/-- The subscription after `n` polls that each read the cursor at the rotation's start: the
rotation has moved on by `n`, and each cursor has moved once for each poll that reached it. The
cursor at index `x` is `(x - nextCursor) mod len` places into each round of `len` polls, and
`Topic.roundRobinShare` counts the polls that reach such a place. -/
def served (s : Subscription) (n : Nat) : Subscription :=
  { s with
    cursors := s.cursors.mapIdx fun x c => { c with
      position := c.position + Topic.roundRobinShare n s.cursors.length
        ((x + s.cursors.length - s.nextCursor) % s.cursors.length) }
    nextCursor := (s.nextCursor + n) % s.cursors.length }

@[simp] theorem length_cursors_served (s : Subscription) (n : Nat) :
    (s.served n).cursors.length = s.cursors.length := by
  simp [served]

@[simp] theorem nextCursor_served (s : Subscription) (n : Nat) :
    (s.served n).nextCursor = (s.nextCursor + n) % s.cursors.length := rfl

theorem getElem?_cursors_served (s : Subscription) (n x : Nat) :
    (s.served n).cursors[x]? = s.cursors[x]?.map fun c => { c with
      position := c.position + Topic.roundRobinShare n s.cursors.length
        ((x + s.cursors.length - s.nextCursor) % s.cursors.length) } := by
  simp [served]

section Served

variable (hj : s.nextCursor < s.cursors.length)
include hj

theorem served_zero : s.served 0 = s := by
  show { s with cursors := _, nextCursor := _ } =
    { s with cursors := s.cursors, nextCursor := s.nextCursor }
  congr 1
  · refine List.ext_getElem? fun x => ?_
    rw [List.getElem?_mapIdx]
    cases s.cursors[x]? <;> simp [Topic.roundRobinShare]
  · exact Nat.mod_eq_of_lt hj

/-- One more poll that reads the cursor at the rotation's start moves that cursor by one and
the rotation on by one. -/
theorem served_succ {n : Nat} {c : Cursor}
    (hc : s.cursors[(s.nextCursor + n) % s.cursors.length]? = some c) :
    s.served (n + 1) = { s.served n with
      cursors := (s.served n).cursors.set ((s.nextCursor + n) % s.cursors.length)
        { c with position := c.position + n / s.cursors.length + 1 },
      nextCursor := ((s.nextCursor + n) % s.cursors.length + 1) % s.cursors.length } := by
  have hpos : 0 < s.cursors.length := by omega
  have hx := Nat.mod_lt (s.nextCursor + n) hpos
  -- the index poll `n` reaches gets one more turn, and no other
  have hshare : ∀ y < s.cursors.length,
      Topic.roundRobinShare (n + 1) s.cursors.length
          ((y + s.cursors.length - s.nextCursor) % s.cursors.length) =
        Topic.roundRobinShare n s.cursors.length
          ((y + s.cursors.length - s.nextCursor) % s.cursors.length) +
        if y = (s.nextCursor + n) % s.cursors.length then 1 else 0 := by
    intro y hy
    rw [Topic.roundRobinShare_succ (Nat.mod_lt _ hpos)]
    simp only [steps_from_eq_iff hj hy n]
  unfold served
  congr 1
  · refine List.ext_getElem? fun y => ?_
    rw [List.getElem?_set, List.getElem?_mapIdx, List.getElem?_mapIdx, List.length_mapIdx]
    by_cases hy : y < s.cursors.length
    · obtain ⟨c', hc'⟩ : ∃ c', s.cursors[y]? = some c' := ⟨_, List.getElem?_eq_getElem hy⟩
      rw [hc', Option.map_some, Option.map_some, hshare y hy]
      by_cases hxy : (s.nextCursor + n) % s.cursors.length = y
      · -- the cursor read: it moves past the message of this round
        subst hxy
        rw [hc, Option.some.injEq] at hc'
        subst hc'
        rw [if_pos rfl, if_pos rfl, if_pos hx, (steps_from_eq_iff hj hx n).mpr rfl,
          Topic.roundRobinShare_mod]
        simp only [Nat.add_assoc]
      · rw [if_neg (Ne.symm hxy), if_neg hxy, Nat.add_zero]
    · -- beyond the cursors there is nothing on either side
      rw [List.getElem?_eq_none (by omega), if_neg (by omega)]
      rfl
  · rw [Nat.mod_add_mod, Nat.add_assoc]

/-- After `k` polls per cursor that each read the cursor at the rotation's start, every cursor
has moved by `k` and the rotation is back where it started. -/
theorem served_mul (k : Nat) :
    s.served (k * s.cursors.length) =
      { s with cursors := s.cursors.map fun c => { c with position := c.position + k } } := by
  have hpos : 0 < s.cursors.length := by omega
  unfold served
  congr 1
  · refine List.ext_getElem? fun x => ?_
    rw [List.getElem?_mapIdx, List.getElem?_map]
    cases s.cursors[x]? <;> simp [Topic.roundRobinShare, Nat.mul_div_cancel _ hpos]
  · rw [Nat.add_mul_mod_self_right, Nat.mod_eq_of_lt hj]

end Served

end Subscription

namespace Lifecycle

variable {w : Lifecycle}

/-- Every event keeps the rotation at one of the cursors, and as many cursors: a change to the
store and a cancellation touch neither, and a call keeps both. -/
theorem rotates_step (h : w.sub.nextCursor < w.sub.cursors.length) (ev : Event) :
    (w.step ev).sub.nextCursor < (w.step ev).sub.cursors.length ∧
      (w.step ev).sub.cursors.length = w.sub.cursors.length := by
  cases ev with
  | change op => exact ⟨h, rfl⟩
  | cancel => exact ⟨h, rfl⟩
  | poll => exact ⟨Subscription.nextCursor_lt_next h, Subscription.length_cursors_next _ _⟩

/-- **Along every run the rotation points at one of the cursors**, by induction on the events. -/
theorem rotates_run (h : w.sub.nextCursor < w.sub.cursors.length) (evs : List Event) :
    (w.run evs).sub.nextCursor < (w.run evs).sub.cursors.length ∧
      (w.run evs).sub.cursors.length = w.sub.cursors.length := by
  induction evs generalizing w with
  | nil => exact ⟨h, rfl⟩
  | cons ev evs ih =>
    obtain ⟨h₁, h₂⟩ := rotates_step h ev
    obtain ⟨h₃, h₄⟩ := ih h₁
    exact ⟨h₃, h₄.trans h₂⟩

end Lifecycle

/-! ## Polls on a topic that refines its histories -/

namespace Topic

open Subscription

variable {t : Topic} {hist : String → List Partition.Entry}

/-- A cursor read answers nothing exactly when the cursor is at its partition's high watermark
or beyond. -/
theorem Refines.tryCursor_eq_self_iff_le (h : t.Refines hist) (c : Cursor) :
    Subscription.tryCursor t c = (c, .ok none) ↔
      ∀ p, t.find? c.key = some p → p.highWatermark ≤ c.position := by
  cases hp : t.find? c.key with
  | none => simp [Subscription.tryCursor, hp]
  | some p =>
    rw [Subscription.tryCursor_of_find? hp, Cursor.tryNext_eq_none_iff (h.partition_of_find? hp)]
    simp

/-- A read that answers a message moves the cursor by one, past the message at its position. -/
theorem Refines.tryCursor_eq_some (h : t.Refines hist) {c c' : Cursor} {m : Message}
    (hr : Subscription.tryCursor t c = (c', .ok (some m))) :
    c' = { c with position := c.position + 1 } ∧ m.offset = c.position := by
  rcases Subscription.tryCursor_cases t c with h' | ⟨e, h'⟩ | ⟨p, m', hp, hm, h'⟩
  · rw [h'] at hr
    cases hr
  · rw [h'] at hr
    cases hr
  · rw [h'] at hr
    simp only [Prod.mk.injEq, Except.ok.injEq, Option.some.injEq] at hr
    obtain ⟨rfl, rfl⟩ := hr
    have hoff : m'.offset = c.position := by
      obtain ⟨_, hm'⟩ := (h.partition_of_find? hp).read_eq_ready hm
      rw [hm', Partition.offset_stamp]
    exact ⟨by rw [hoff], hoff⟩

/-- A poll finds nothing exactly when every cursor is at its partition's high watermark or
beyond. -/
theorem Refines.pollCursors_eq_none_iff (h : t.Refines hist) (s : Subscription) :
    (s.pollCursors t).2 = .ok none ↔
      ∀ c ∈ s.cursors, ∀ p, t.find? c.key = some p → p.highWatermark ≤ c.position := by
  rw [Subscription.pollCursors_eq_none_iff]
  exact forall₂_congr fun c _ => h.tryCursor_eq_self_iff_le c

/-- A poll answers nothing, and so changes nothing, exactly when every cursor is at its
partition's high watermark or beyond. -/
theorem Refines.pollCursors_eq_self_iff (h : t.Refines hist) (s : Subscription) :
    s.pollCursors t = (s, .ok none) ↔
      ∀ c ∈ s.cursors, ∀ p, t.find? c.key = some p → p.highWatermark ≤ c.position := by
  rw [← h.pollCursors_eq_none_iff]
  exact ⟨fun h' => by rw [h'], fun h' => Prod.ext (pollCursors_of_none h') h'⟩

/-- **A poll on a topic that refines its histories** answers as `Subscription.pollCursors_eq`
says, and the cursor that reads a message moves by exactly one, past the message at its
position. -/
theorem Refines.pollCursors_eq (h : t.Refines hist) (s : Subscription) :
    ((∀ c ∈ s.cursors, Subscription.tryCursor t c = (c, .ok none)) ∧
        s.pollCursors t = (s, .ok none)) ∨
    ∃ i < s.cursors.length, ∃ c, s.cursors[(s.nextCursor + i) % s.cursors.length]? = some c ∧
      (∀ i' < i, ∀ c', s.cursors[(s.nextCursor + i') % s.cursors.length]? = some c' →
        Subscription.tryCursor t c' = (c', .ok none)) ∧
      ((∃ m : Message, m.offset = c.position ∧
          Subscription.tryCursor t c = ({ c with position := c.position + 1 }, .ok (some m)) ∧
          s.pollCursors t = ({ s with
            cursors := s.cursors.set ((s.nextCursor + i) % s.cursors.length)
              { c with position := c.position + 1 },
            nextCursor := ((s.nextCursor + i) % s.cursors.length + 1) % s.cursors.length },
            .ok (some m))) ∨
        ∃ e, Subscription.tryCursor t c = (c, .error e) ∧ s.pollCursors t = (s, .error e)) := by
  rcases Subscription.pollCursors_eq s t with
    hnone | ⟨i, hi, c, hc, hprev, ⟨c', m, hr, hpoll⟩ | herr⟩
  · exact .inl hnone
  · obtain ⟨rfl, hoff⟩ := h.tryCursor_eq_some hr
    exact .inr ⟨i, hi, c, hc, hprev, .inl ⟨m, hoff, hr, hpoll⟩⟩
  · exact .inr ⟨i, hi, c, hc, hprev, .inr herr⟩

section Served

variable (h : t.Refines hist) {s : Subscription} (hj : s.nextCursor < s.cursors.length) {k : Nat}
  (hk : ∀ c ∈ s.cursors, ∃ p, t.find? c.key = some p ∧ p.start ≤ c.position ∧
    c.position + k ≤ p.highWatermark)
include h hj hk

/-- While every cursor can read, poll `n` reads the cursor at index `(j + n) % len`, at the
position it started from plus the rounds done before, and leaves the subscription as `n + 1`
such polls do. -/
theorem Refines.pollCursors_served {n : Nat} (hn : n < k * s.cursors.length) :
    ∃ c p m, s.cursors[(s.nextCursor + n) % s.cursors.length]? = some c ∧
      t.find? c.key = some p ∧ p.read (c.position + n / s.cursors.length) = .ready m ∧
      (s.served n).pollCursors t = (s.served (n + 1), .ok (some m)) := by
  have hpos : 0 < s.cursors.length := by omega
  have hx := Nat.mod_lt (s.nextCursor + n) hpos
  obtain ⟨c, hc⟩ : ∃ c, s.cursors[(s.nextCursor + n) % s.cursors.length]? = some c :=
    ⟨_, List.getElem?_eq_getElem hx⟩
  obtain ⟨p, hp, hstart, hend⟩ := hk c (List.mem_of_getElem? hc)
  have hp' := h.partition_of_find? hp
  -- the cursor has read once in each round before this one, so it still reads inside its
  -- partition
  have hround : n / s.cursors.length < k := (Nat.div_lt_iff_lt_mul hpos).mpr hn
  have hhw : p.highWatermark = (hist c.key).length := hp'.next_eq
  have hlen : c.position + n / s.cursors.length < (hist c.key).length := by omega
  have hm := hp'.read_of_lt (Nat.le_add_right_of_le hstart) hlen
  refine ⟨c, p, _, hc, hp, hm, ?_⟩
  -- and at poll `n` the rotation starts at that cursor
  have hcur : (s.served n).cursors[(s.served n).nextCursor]? =
      some { c with position := c.position + n / s.cursors.length } := by
    rw [nextCursor_served, getElem?_cursors_served, hc, Option.map_some,
      (steps_from_eq_iff hj hx n).mpr rfl, Topic.roundRobinShare_mod]
  rw [Subscription.pollCursors_of_ready hcur hp hm, served_succ hj hc]
  simp only [length_cursors_served, nextCursor_served, Partition.offset_stamp]

/-- The first `k` polls per cursor each read the cursor at the rotation's start, by induction on
the polls. -/
theorem Refines.iterate_pollCursors_served {n : Nat} (hn : n ≤ k * s.cursors.length) :
    (fun s => (s.pollCursors t).1)^[n] s = s.served n := by
  induction n with
  | zero => exact (served_zero hj).symm
  | succ n ih =>
    obtain ⟨_, _, _, -, -, -, hpoll⟩ := h.pollCursors_served hj hk (n := n) (by omega)
    rw [Function.iterate_succ_apply', ih (by omega), hpoll]

/-- **Polls serve the cursors in turn.** If every cursor can read at least `k` messages, then
`k` polls per cursor read the cursors in rotation order from `nextCursor`, one message each:
poll `n` reads the cursor `n mod len` places after the rotation's start, at the position it
started from plus the rounds before. After them every cursor has moved by exactly `k`, and the
rotation is back where it started. -/
theorem Refines.iterate_pollCursors :
    (∀ n < k * s.cursors.length, ∃ c p m,
      s.cursors[(s.nextCursor + n) % s.cursors.length]? = some c ∧ t.find? c.key = some p ∧
      p.read (c.position + n / s.cursors.length) = .ready m ∧
      (((fun s => (s.pollCursors t).1)^[n] s).pollCursors t).2 = .ok (some m)) ∧
    (fun s => (s.pollCursors t).1)^[k * s.cursors.length] s =
      { s with cursors := s.cursors.map fun c => { c with position := c.position + k } } := by
  refine ⟨fun n hn => ?_, ?_⟩
  · obtain ⟨c, p, m, hc, hp, hm, hpoll⟩ := h.pollCursors_served hj hk hn
    refine ⟨c, p, m, hc, hp, hm, ?_⟩
    rw [h.iterate_pollCursors_served hj hk (Nat.le_of_lt hn), hpoll]
  · rw [h.iterate_pollCursors_served hj hk (Nat.le_refl _), served_mul hj]

end Served

end Topic

namespace Subscription

/-- **Polls take the cursors in turn.** On a topic that refines its histories, as every topic
the store reaches does:

* along every run of a subscription opened with at least one cursor, the rotation points at one
  of its cursors, and there are as many cursors as it opened with;
* a poll tries the cursors in rotation order from `nextCursor` and answers what the first one
  whose read answers something reads. Every cursor tried before it answered nothing and stayed;
  a message moves that cursor alone, by one past the message at its position, and the rotation to
  the index after it; a failure changes nothing. If no cursor answers anything, the poll answers
  nothing and changes nothing;
* a poll answers nothing, changing nothing, exactly when every cursor is at its partition's high
  watermark or beyond;
* if every cursor can read at least `k` messages, `k` polls per cursor read one message from each
  cursor in every round of as many polls as cursors, in rotation order and each cursor's messages
  in order. After them every cursor has moved by `k` and the rotation is back where it started. -/
theorem polls_take_cursors_in_turn (t : Topic) (hist : String → List Partition.Entry)
    (ht : t.Refines hist) :
    (∀ (b : Broker) (consumer : Nat) (name : TopicName) (cs : List Cursor), cs ≠ [] →
      ∀ evs : List Lifecycle.Event,
        let w := (Lifecycle.mk b (open_ consumer name cs) []).run evs
        w.sub.nextCursor < cs.length ∧ w.sub.cursors.length = cs.length) ∧
    (∀ s : Subscription,
      (((∀ c ∈ s.cursors, tryCursor t c = (c, .ok none)) ∧ s.pollCursors t = (s, .ok none)) ∨
      ∃ i < s.cursors.length, ∃ c, s.cursors[(s.nextCursor + i) % s.cursors.length]? = some c ∧
        (∀ i' < i, ∀ c', s.cursors[(s.nextCursor + i') % s.cursors.length]? = some c' →
          tryCursor t c' = (c', .ok none)) ∧
        ((∃ m : Message, m.offset = c.position ∧
            tryCursor t c = ({ c with position := c.position + 1 }, .ok (some m)) ∧
            s.pollCursors t = ({ s with
              cursors := s.cursors.set ((s.nextCursor + i) % s.cursors.length)
                { c with position := c.position + 1 },
              nextCursor := ((s.nextCursor + i) % s.cursors.length + 1) % s.cursors.length },
              .ok (some m))) ∨
          ∃ e, tryCursor t c = (c, .error e) ∧ s.pollCursors t = (s, .error e))) ∧
      (s.pollCursors t = (s, .ok none) ↔
        ∀ c ∈ s.cursors, ∀ p, t.find? c.key = some p → p.highWatermark ≤ c.position)) ∧
    ∀ (s : Subscription) (k : Nat), s.nextCursor < s.cursors.length →
      (∀ c ∈ s.cursors, ∃ p, t.find? c.key = some p ∧ p.start ≤ c.position ∧
        c.position + k ≤ p.highWatermark) →
      (∀ n < k * s.cursors.length, ∃ c p m,
        s.cursors[(s.nextCursor + n) % s.cursors.length]? = some c ∧ t.find? c.key = some p ∧
        p.read (c.position + n / s.cursors.length) = .ready m ∧
        (((fun s => (s.pollCursors t).1)^[n] s).pollCursors t).2 = .ok (some m)) ∧
      (fun s => (s.pollCursors t).1)^[k * s.cursors.length] s =
        { s with cursors := s.cursors.map fun c => { c with position := c.position + k } } := by
  refine ⟨fun b consumer name cs hcs evs => ?_,
    fun s => ⟨ht.pollCursors_eq s, ht.pollCursors_eq_self_iff s⟩,
    fun s k hj hk => ht.iterate_pollCursors hj hk⟩
  -- a subscription opens with its rotation at the first cursor
  obtain ⟨h₁, h₂⟩ := Lifecycle.rotates_run (w := ⟨b, open_ consumer name cs, []⟩)
    (List.length_pos_of_ne_nil hcs) evs
  exact ⟨h₂ ▸ h₁, h₂⟩

/-- Two cursors at the start of two partitions holding one message each: two polls read both,
the default partition's first, and leave the rotation at the first cursor. -/
theorem two_cursors_served_in_turn :
    let name : TopicName := ⟨"orders", by decide⟩
    let t := (((Topic.withKeys name ["a"]).appendTo "" [1] none).1.appendTo "a" [2] none).1
    let s := open_ 1 name [⟨name, "", 0⟩, ⟨name, "a", 0⟩]
    (∃ hist, t.Refines hist) ∧ s.nextCursor < s.cursors.length ∧
    (∀ c ∈ s.cursors, ∃ p, t.find? c.key = some p ∧ p.start ≤ c.position ∧
      c.position + 1 ≤ p.highWatermark) ∧
    (∀ n < 1 * s.cursors.length, ∃ c p m,
      s.cursors[(s.nextCursor + n) % s.cursors.length]? = some c ∧ t.find? c.key = some p ∧
      p.read (c.position + n / s.cursors.length) = .ready m ∧
      (((fun s => (s.pollCursors t).1)^[n] s).pollCursors t).2 = .ok (some m)) ∧
    (fun s => (s.pollCursors t).1)^[1 * s.cursors.length] s =
      { s with cursors := s.cursors.map fun c => { c with position := c.position + 1 } } := by
  intro name t s
  have ht : t.Refines _ := ((Topic.refines_withKeys name ["a"]).appendTo (by decide) [1]
    none).appendTo (by decide) [2] none
  have hk : ∀ c ∈ s.cursors, ∃ p, t.find? c.key = some p ∧ p.start ≤ c.position ∧
      c.position + 1 ≤ p.highWatermark := by
    intro c hc
    simp only [s, open_, List.mem_cons, List.not_mem_nil, or_false] at hc
    rcases hc with rfl | rfl <;> exact ⟨_, (Option.some_get (by decide)).symm, by decide, by decide⟩
  exact ⟨⟨_, ht⟩, by decide, hk, (polls_take_cursors_in_turn t _ ht).2.2 s 1 (by decide) hk⟩

end Subscription

end MessageBroker
