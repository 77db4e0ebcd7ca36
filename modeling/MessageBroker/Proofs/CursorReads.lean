import MessageBroker.Log.Cursor
import MessageBroker.Proofs.PartitionLog
/-!
# A cursor across appends and resets

A cursor reads its partition at its position. On a partition that refines a history, a read does
one of three things, each exactly when its condition holds: below the start it fails, naming the
topic and the position, and the cursor stays; at or beyond the high watermark it finds nothing,
and the cursor stays; in between it delivers the message at the position and moves one past it.

The start never moves back and a failure does not move the cursor, so a cursor that fails once
fails at every later read, with the same failure. Whether a reset makes a cursor fail depends on
how far it lags: a reset at high watermark `N > 0` starts the partition at `N - 1`, so the
cursors below `N - 1`, two or more messages behind, fail from then on; every other cursor reads
exactly as it would have without the reset, and one at `N - 1` reads the message the reset kept.

## Main definitions

* `Cursor.Action`, `Cursor.Reader`: a cursor with its partition, along calls and reads
* `Cursor.Reader.answers`: what the reads of a run answer
* `Cursor.Reader.Sound`: a reader some run reaches
* `Cursor.Reader.ChasedPast`: a cursor below its partition's start
* `Cursor.Reader.Agree`: two readers that answer alike along every run

## Main results

* `Cursor.tryNext_cases`: the three outcomes of a read and when each happens
* `Cursor.Reader.ChasedPast.answers`, `Cursor.Reader.fails_onwards_iff`: a cursor fails at every
  later read exactly when it has been chased past
* `Cursor.Reader.Agree.answers`: readers that agree answer alike along every run
* `Cursor.chased_past_is_exact_and_permanent`: all of it, along every run
-/

namespace MessageBroker

namespace Partition

@[simp] theorem topic_serve (p : Partition) (c : Call) : (p.serve c).1.topic = p.topic := by
  cases c <;> rfl

@[simp] theorem topic_after (p : Partition) (calls : List Call) :
    (p.after calls).topic = p.topic := by
  induction calls generalizing p with
  | nil => rfl
  | cons c calls ih => rw [after_cons, ih, topic_serve]

/-- After a reset of a non-empty history, the partition holds the last message alone. -/
theorem Refines.retained_reset_of_ne_nil {p : Partition} {H : List Entry} (h : p.Refines H)
    (hne : H.length - 1 < H.length) :
    p.reset.1.retained.toList = [H[H.length - 1].stamp p.key (H.length - 1)] := by
  rw [h.retained_reset, List.drop_eq_getElem_cons (by simpa using hne)]
  simp [stamped]
  omega

end Partition

namespace Cursor

variable {p : Partition} {H : List Partition.Entry} {c : Cursor}

/-! ## One read -/

@[simp] theorem topic_tryNext (c : Cursor) (p : Partition) : (c.tryNext p).1.topic = c.topic := by
  unfold tryNext
  split <;> rfl

theorem tryNext_of_lt_start (hc : c.position < p.start) :
    c.tryNext p = (c, .error (.offsetNotFound c.topic (.exactly c.position))) := by
  rw [tryNext, Partition.read_of_lt_start hc]

theorem tryNext_of_highWatermark_le (h : p.Refines H) (hc : p.highWatermark ≤ c.position) :
    c.tryNext p = (c, .ok none) := by
  have hs : p.start ≤ c.position := calc
    p.start ≤ H.length := h.start_le
    _ = p.highWatermark := h.next_eq.symm
    _ ≤ c.position := hc
  rw [tryNext, Partition.read_of_le_next hs hc]

/-- Between the start and the high watermark a read delivers the message of the history at the
cursor's position. -/
theorem tryNext_of_lt_length (h : p.Refines H) (h₁ : p.start ≤ c.position)
    (h₂ : c.position < H.length) :
    c.tryNext p =
      ({ c with position := c.position + 1 }, .ok (some (H[c.position].stamp p.key c.position))) := by
  rw [tryNext, h.read_of_lt h₁ h₂]
  rfl

/-- **The three outcomes of a read.** On a partition that refines a history, a read below the
start fails and the cursor stays; at or beyond the high watermark it finds nothing and the cursor
stays; in between it delivers a message at the cursor's position and moves one past it. -/
theorem tryNext_cases (h : p.Refines H) (c : Cursor) :
    (c.position < p.start ∧
      c.tryNext p = (c, .error (.offsetNotFound c.topic (.exactly c.position)))) ∨
    (p.highWatermark ≤ c.position ∧ c.tryNext p = (c, .ok none)) ∨
    (p.start ≤ c.position ∧ c.position < p.highWatermark ∧ ∃ m : Message, m.offset = c.position ∧
      c.tryNext p = ({ c with position := c.position + 1 }, .ok (some m))) := by
  rcases Nat.lt_or_ge c.position p.start with hs | hs
  · exact .inl ⟨hs, tryNext_of_lt_start hs⟩
  rcases Nat.lt_or_ge c.position p.highWatermark with hw | hw
  · have hl : c.position < H.length := h.next_eq ▸ hw
    exact .inr (.inr ⟨hs, hw, _, rfl, tryNext_of_lt_length h hs hl⟩)
  · exact .inr (.inl ⟨hw, tryNext_of_highWatermark_le h hw⟩)

theorem tryNext_eq_some_iff (h : p.Refines H) :
    (∃ m : Message, m.offset = c.position ∧
        c.tryNext p = ({ c with position := c.position + 1 }, .ok (some m))) ↔
      p.start ≤ c.position ∧ c.position < p.highWatermark := by
  rcases tryNext_cases h c with ⟨hs, he⟩ | ⟨hw, he⟩ | ⟨hs, hw, hm⟩
  · refine ⟨fun ⟨m, _, hm⟩ => by simp [he] at hm, fun h' => absurd h'.1 (Nat.not_le.mpr hs)⟩
  · refine ⟨fun ⟨m, _, hm⟩ => by simp [he] at hm, fun h' => absurd h'.2 (Nat.not_lt.mpr hw)⟩
  · exact ⟨fun _ => ⟨hs, hw⟩, fun _ => hm⟩

theorem tryNext_eq_none_iff (h : p.Refines H) :
    c.tryNext p = (c, .ok none) ↔ p.highWatermark ≤ c.position := by
  rcases tryNext_cases h c with ⟨hs, he⟩ | ⟨hw, he⟩ | ⟨hs, hw, m, -, hm⟩
  · refine ⟨fun h' => by simp [he] at h', fun hw => ?_⟩
    -- below the start is below the high watermark
    have := h.next_eq ▸ h.start_le
    exact absurd (Nat.lt_of_lt_of_le hs this) (Nat.not_lt.mpr hw)
  · exact ⟨fun _ => hw, fun _ => he⟩
  · exact ⟨fun h' => by simp [hm] at h', fun h' => absurd hw (Nat.not_lt.mpr h')⟩

theorem tryNext_eq_error_iff (h : p.Refines H) :
    c.tryNext p = (c, .error (.offsetNotFound c.topic (.exactly c.position))) ↔
      c.position < p.start := by
  rcases tryNext_cases h c with ⟨hs, he⟩ | ⟨hw, he⟩ | ⟨hs, hw, m, -, hm⟩
  · exact ⟨fun _ => hs, fun _ => he⟩
  · exact ⟨fun h' => by simp [he] at h', fun hs => absurd (tryNext_of_lt_start hs ▸ he) (by simp)⟩
  · exact ⟨fun h' => by simp [hm] at h', fun h' => absurd h' (Nat.not_lt.mpr hs)⟩

/-- A read never moves the cursor back. -/
theorem position_le_tryNext (h : p.Refines H) (c : Cursor) :
    c.position ≤ (c.tryNext p).1.position := by
  rcases tryNext_cases h c with ⟨-, he⟩ | ⟨-, he⟩ | ⟨-, -, m, -, hm⟩
  · exact Nat.le_of_eq (by rw [he])
  · exact Nat.le_of_eq (by rw [he])
  · rw [hm]
    exact Nat.le_succ _

/-! ## A cursor along a run -/

/-- A call on a cursor's partition, or a read of the cursor. -/
inductive Action where
  | call (call : Partition.Call)
  | read

/-- A cursor with the partition it reads. -/
structure Reader where
  partition : Partition
  cursor : Cursor

namespace Reader

variable {r r₁ r₂ : Reader}

/-- What a read answers now. -/
def next (r : Reader) : Except BrokerError (Option Message) := (r.cursor.tryNext r.partition).2

/-- One action: a call changes the partition, and a read moves the cursor as its answer says. -/
def step (r : Reader) : Action → Reader
  | .call call => { r with partition := (r.partition.serve call).1 }
  | .read => { r with cursor := (r.cursor.tryNext r.partition).1 }

/-- A run of actions. -/
def run (r : Reader) (as : List Action) : Reader := as.foldl step r

/-- What the reads of a run answer, in order. -/
def answers (r : Reader) : List Action → List (Except BrokerError (Option Message))
  | [] => []
  | .call call :: as => (r.step (.call call)).answers as
  | .read :: as => r.next :: (r.step .read).answers as

@[simp] theorem run_nil (r : Reader) : r.run [] = r := rfl

@[simp] theorem run_cons (r : Reader) (a : Action) (as : List Action) :
    r.run (a :: as) = (r.step a).run as := rfl

@[simp] theorem answers_nil (r : Reader) : r.answers [] = [] := rfl

@[simp] theorem answers_call (r : Reader) (call : Partition.Call) (as : List Action) :
    r.answers (.call call :: as) = (r.step (.call call)).answers as := rfl

@[simp] theorem answers_read (r : Reader) (as : List Action) :
    r.answers (.read :: as) = r.next :: (r.step .read).answers as := rfl

@[simp] theorem partition_step_call (r : Reader) (call : Partition.Call) :
    (r.step (.call call)).partition = (r.partition.serve call).1 := rfl

@[simp] theorem cursor_step_call (r : Reader) (call : Partition.Call) :
    (r.step (.call call)).cursor = r.cursor := rfl

@[simp] theorem partition_step_read (r : Reader) : (r.step .read).partition = r.partition := rfl

@[simp] theorem cursor_step_read (r : Reader) :
    (r.step .read).cursor = (r.cursor.tryNext r.partition).1 := rfl

theorem topic_run (r : Reader) (as : List Action) :
    (r.run as).partition.topic = r.partition.topic := by
  induction as generalizing r with
  | nil => rfl
  | cons a as ih =>
    rw [run_cons, ih]
    cases a with
    | call call => exact Partition.topic_serve _ _
    | read => rfl

/-! ## Readers a run reaches -/

/-- **A reader some run reaches**: its partition refines a history, and the cursor is on the
partition's topic. -/
structure Sound (r : Reader) : Prop where
  refines : ∃ H, r.partition.Refines H
  topic_eq : r.cursor.topic = r.partition.topic

theorem Sound.step (h : r.Sound) (a : Action) : (r.step a).Sound := by
  obtain ⟨H, hH⟩ := h.refines
  cases a with
  | call call =>
    refine ⟨?_, by simp [h.topic_eq]⟩
    cases call with
    | append e => exact ⟨_, hH.append e.sequence e.content e.expiresAt⟩
    | reset => exact ⟨H, hH.reset⟩
  | read => exact ⟨⟨H, hH⟩, by simp [h.topic_eq]⟩

theorem Sound.run (h : r.Sound) (as : List Action) : (r.run as).Sound := by
  induction as generalizing r with
  | nil => exact h
  | cons a as ih => exact ih (h.step a)

/-- The start never moves back along a run. -/
theorem Sound.start_le_run (h : r.Sound) (as : List Action) :
    r.partition.start ≤ (r.run as).partition.start := by
  induction as generalizing r with
  | nil => exact Nat.le_refl _
  | cons a as ih =>
    refine Nat.le_trans ?_ (ih (h.step a))
    obtain ⟨H, hH⟩ := h.refines
    cases a with
    | call call =>
      cases call with
      | append e => exact Nat.le_refl _
      | reset => exact hH.start_le_reset
    | read => exact Nat.le_refl _

/-- A reset starts the partition at the last offset of its history. -/
theorem Sound.start_reset (h : r.Sound) :
    (r.step (.call .reset)).partition.start = r.partition.highWatermark - 1 := by
  obtain ⟨H, hH⟩ := h.refines
  show r.partition.reset.1.start = _
  rw [Partition.start_reset, hH.reset_snd, Partition.highWatermark, hH.next_eq]

/-! ## A cursor chased past fails for good -/

/-- The cursor has been chased past: its position lies below the partition's start. -/
def ChasedPast (r : Reader) : Prop := r.cursor.position < r.partition.start

theorem ChasedPast.tryNext (h : r.ChasedPast) :
    r.cursor.tryNext r.partition =
      (r.cursor, .error (.offsetNotFound r.cursor.topic (.exactly r.cursor.position))) :=
  tryNext_of_lt_start h

/-- A chased cursor stays where it is and stays chased: an append keeps the start, a reset moves
it only forward, and a read fails without moving the cursor. -/
theorem ChasedPast.step (hs : r.Sound) (h : r.ChasedPast) (a : Action) :
    (r.step a).cursor = r.cursor ∧ (r.step a).ChasedPast := by
  obtain ⟨H, hH⟩ := hs.refines
  cases a with
  | call call =>
    refine ⟨rfl, ?_⟩
    cases call with
    | append e => exact h
    | reset => exact Nat.lt_of_lt_of_le h hH.start_le_reset
  | read =>
    have hc : (r.step .read).cursor = r.cursor := by rw [cursor_step_read, h.tryNext]
    exact ⟨hc, by rw [ChasedPast, hc, partition_step_read]; exact h⟩

/-- **Once chased, every later read fails the same way**, by induction on the run: each action
keeps the cursor and keeps it chased. -/
theorem ChasedPast.answers (hs : r.Sound) (h : r.ChasedPast) (as : List Action) :
    ∀ x ∈ r.answers as, x = r.next := by
  induction as generalizing r with
  | nil => simp
  | cons a as ih =>
    obtain ⟨hc, h'⟩ := h.step hs a
    have hnext : (r.step a).next = r.next := by rw [next, next, h'.tryNext, h.tryNext, hc]
    intro x hx
    cases a with
    | call call => exact (ih (hs.step _) h' x hx).trans hnext
    | read =>
      rcases List.mem_cons.mp hx with rfl | hx
      · rfl
      · exact (ih (hs.step _) h' x hx).trans hnext

/-- A read fails exactly when the cursor has been chased past. -/
theorem Sound.next_eq_error_iff (hs : r.Sound) : (∃ e, r.next = .error e) ↔ r.ChasedPast := by
  obtain ⟨H, hH⟩ := hs.refines
  rcases tryNext_cases hH r.cursor with ⟨hc, he⟩ | ⟨hw, hn⟩ | ⟨hs', -, m, -, hm⟩
  · exact ⟨fun _ => hc, fun _ => ⟨_, by rw [next, he]⟩⟩
  · refine ⟨fun ⟨e, he⟩ => (by rw [next, hn] at he; cases he), fun hc => absurd hc ?_⟩
    -- at or beyond the high watermark is at or beyond the start
    have := hH.next_eq ▸ hH.start_le
    exact Nat.not_lt.mpr (Nat.le_trans this hw)
  · exact ⟨fun ⟨e, he⟩ => (by rw [next, hm] at he; cases he),
      fun hc => absurd hc (Nat.not_lt.mpr hs')⟩

/-- **A cursor fails at every read from now on exactly when it has been chased past.** -/
theorem fails_onwards_iff (hs : r.Sound) :
    (∀ as, ∀ x ∈ r.answers as, ∃ e, x = .error e) ↔ r.ChasedPast := by
  constructor
  · intro h
    -- the next read alone already fails
    exact hs.next_eq_error_iff.mp (h [.read] r.next (by simp))
  · intro h as x hx
    obtain ⟨e, he⟩ := hs.next_eq_error_iff.mpr h
    exact ⟨e, (h.answers hs as x hx).trans he⟩

/-! ## Readers that answer alike -/

/-- **Two readers that answer alike along every run**: the same cursor, and partitions under the
same key that refine one history, whose starts are equal or both at or below the cursor. -/
structure Agree (r₁ r₂ : Reader) : Prop where
  cursor_eq : r₁.cursor = r₂.cursor
  key_eq : r₁.partition.key = r₂.partition.key
  refines : ∃ H, r₁.partition.Refines H ∧ r₂.partition.Refines H
  start_eq : r₁.partition.start = r₂.partition.start ∨
    r₁.partition.start ≤ r₁.cursor.position ∧ r₂.partition.start ≤ r₁.cursor.position

/-- Readers that agree find the same at the cursor's position. -/
theorem Agree.read_eq (h : Agree r₁ r₂) :
    r₁.partition.read r₁.cursor.position = r₂.partition.read r₁.cursor.position := by
  obtain ⟨H, h₁, h₂⟩ := h.refines
  rw [h₁.read_eq, h₂.read_eq, h.key_eq]
  rcases h.start_eq with hs | ⟨hs₁, hs₂⟩
  · rw [hs]
  · rw [if_neg (Nat.not_lt.mpr hs₁), if_neg (Nat.not_lt.mpr hs₂)]

theorem Agree.tryNext_eq (h : Agree r₁ r₂) :
    r₁.cursor.tryNext r₁.partition = r₂.cursor.tryNext r₂.partition := by
  have hread := h.read_eq
  rw [h.cursor_eq] at hread ⊢
  unfold tryNext
  rw [hread]

/-- Each action keeps two readers in agreement: both partitions take the same call, and a read
moves both cursors alike, only forward. -/
theorem Agree.step (h : Agree r₁ r₂) (a : Action) : Agree (r₁.step a) (r₂.step a) := by
  obtain ⟨H, h₁, h₂⟩ := h.refines
  cases a with
  | call call =>
    cases call with
    | append e =>
      exact ⟨h.cursor_eq, h.key_eq, ⟨_, h₁.append e.sequence e.content e.expiresAt,
        h₂.append e.sequence e.content e.expiresAt⟩, h.start_eq⟩
    | reset =>
      -- both resets start at the last offset of the one history
      refine ⟨h.cursor_eq, h.key_eq, ⟨H, h₁.reset, h₂.reset⟩, .inl ?_⟩
      show r₁.partition.reset.1.start = r₂.partition.reset.1.start
      rw [Partition.start_reset, Partition.start_reset, h₁.reset_snd, h₂.reset_snd]
  | read =>
    have hc : (r₁.step .read).cursor = (r₂.step .read).cursor := by
      rw [cursor_step_read, cursor_step_read, h.tryNext_eq]
    have hle : r₁.cursor.position ≤ (r₁.step .read).cursor.position :=
      position_le_tryNext h₁ r₁.cursor
    refine ⟨hc, h.key_eq, ⟨H, h₁, h₂⟩, ?_⟩
    rcases h.start_eq with hs | ⟨hs₁, hs₂⟩
    · exact .inl hs
    · exact .inr ⟨Nat.le_trans hs₁ hle, Nat.le_trans hs₂ hle⟩

/-- **Readers that agree answer alike along every run**, by induction on the run. -/
theorem Agree.answers (h : Agree r₁ r₂) (as : List Action) : r₁.answers as = r₂.answers as := by
  induction as generalizing r₁ r₂ with
  | nil => rfl
  | cons a as ih =>
    cases a with
    | call call => exact ih (h.step _)
    | read =>
      rw [answers_read, answers_read, ih (h.step _), next, next, h.tryNext_eq]

/-! ## A reset -/

/-- A reset leaves a cursor at or beyond the new start reading as it would have without it. -/
theorem Sound.agree_reset (hs : r.Sound) (hpos : r.partition.highWatermark - 1 ≤ r.cursor.position) :
    Agree (r.step (.call .reset)) r := by
  obtain ⟨H, hH⟩ := hs.refines
  refine ⟨rfl, rfl, ⟨H, hH.reset, hH⟩, .inr ⟨?_, ?_⟩⟩
  · rw [hs.start_reset]
    exact hpos
  · -- the old start lies at or below the last offset, or the history is empty
    have hle : r.partition.start ≤ r.partition.highWatermark - 1 := by
      rw [Partition.highWatermark, hH.next_eq]
      rcases Nat.eq_zero_or_pos H.length with h0 | hpos'
      · have := hH.start_le
        omega
      · have := hH.start_lt (List.ne_nil_of_length_pos hpos')
        omega
    exact Nat.le_trans hle hpos

/-- After a reset at high watermark `N > 0`, a cursor at `N - 1` reads the one message kept. -/
theorem Sound.next_reset_last (hs : r.Sound) (hN : 0 < r.partition.highWatermark)
    (hpos : r.cursor.position = r.partition.highWatermark - 1) :
    ∃ m, (r.step (.call .reset)).partition.retained.toList = [m] ∧
      (r.step (.call .reset)).next = .ok (some m) := by
  obtain ⟨H, hH⟩ := hs.refines
  have hlen : H.length - 1 < H.length := by
    rw [← hH.next_eq]
    exact Nat.sub_lt hN Nat.one_pos
  have hstart : (r.step (.call .reset)).partition.start ≤ r.cursor.position :=
    Nat.le_of_eq (by rw [hs.start_reset, hpos])
  have hat : r.cursor.position = H.length - 1 := by rw [hpos, Partition.highWatermark, hH.next_eq]
  refine ⟨_, hH.retained_reset_of_ne_nil hlen, ?_⟩
  show (r.cursor.tryNext r.partition.reset.1).2 = _
  rw [tryNext_of_lt_length hH.reset hstart (hat ▸ hlen)]
  simp only [hat]
  rfl

end Reader

/-! ## Every cursor along every run -/

/-- **A cursor across appends and resets.** Take a partition reached from its creation by any
appends and resets, a cursor on it (as every cursor opened at an offset or at the latest message
is), and any run of appends, resets and reads after that. At every point of the run a read
delivers a message at the cursor's position and moves one past it exactly when the position lies
between the start and the high watermark; finds nothing and stays exactly when the position is
at or beyond the high watermark; and fails, naming the topic and the position, and stays, exactly
when the position lies below the start. The start never moves back, and once a read fails every
later read fails the same way. A reset at high watermark `N > 0` starts the partition at `N - 1`;
from then on the cursor fails at every read exactly when it lies below `N - 1`; otherwise it
reads exactly as it would have without the reset, and at `N - 1` it reads the one message the
reset kept. -/
theorem chased_past_is_exact_and_permanent (topic : TopicName) (key : String)
    (calls : List Partition.Call) (c : Cursor) (hc : c.topic = topic) (as : List Action) :
    let r := (Reader.mk ((Partition.create topic key).after calls) c).run as
    let pos := r.cursor.position
    ((∃ m : Message, m.offset = pos ∧
        r.cursor.tryNext r.partition = ({ r.cursor with position := pos + 1 }, .ok (some m))) ↔
      r.partition.start ≤ pos ∧ pos < r.partition.highWatermark) ∧
    (r.cursor.tryNext r.partition = (r.cursor, .ok none) ↔ r.partition.highWatermark ≤ pos) ∧
    (r.cursor.tryNext r.partition = (r.cursor, .error (.offsetNotFound topic (.exactly pos))) ↔
      pos < r.partition.start) ∧
    (∀ more, r.partition.start ≤ (r.run more).partition.start) ∧
    (∀ e, r.next = .error e → ∀ more, ∀ x ∈ r.answers more, x = .error e) ∧
    (0 < r.partition.highWatermark →
      let N := r.partition.highWatermark
      let r' := r.step (.call .reset)
      r'.partition.start = N - 1 ∧
      ((∀ more, ∀ x ∈ r'.answers more, ∃ e, x = .error e) ↔ pos < N - 1) ∧
      (N - 1 ≤ pos → ∀ more, r'.answers more = r.answers more) ∧
      (pos = N - 1 → ∃ m, r'.partition.retained.toList = [m] ∧ r'.next = .ok (some m))) := by
  intro r pos
  have h₀ : (Reader.mk ((Partition.create topic key).after calls) c).Sound :=
    ⟨⟨_, by simpa using (Partition.refines_create topic key).after calls⟩,
      by simp [hc, Partition.create]⟩
  have hs : r.Sound := h₀.run as
  obtain ⟨H, hH⟩ := hs.refines
  have htopic : r.cursor.topic = topic := by
    rw [hs.topic_eq, Reader.topic_run]
    simp [Partition.create]
  refine ⟨tryNext_eq_some_iff hH, tryNext_eq_none_iff hH, htopic ▸ tryNext_eq_error_iff hH,
    hs.start_le_run, fun e he more x hx => ?_, fun hN => ?_⟩
  · -- a failing read means the cursor was chased past
    have hcp : r.ChasedPast := hs.next_eq_error_iff.mp ⟨e, he⟩
    exact (hcp.answers hs more x hx).trans he
  · intro N r'
    have hstart : r'.partition.start = N - 1 := hs.start_reset
    refine ⟨hstart, ?_, fun hpos more => (hs.agree_reset hpos).answers more,
      hs.next_reset_last hN⟩
    rw [Reader.fails_onwards_iff (hs.step _), Reader.ChasedPast, hstart]
    rfl

/-- A cursor opened at offset `0` of a new partition, which then takes three appends: a reset
at high watermark `3` leaves it two messages behind, and it fails from then on. -/
theorem cursor_at_zero_after_three_appends :
    let topic : TopicName := ⟨"orders", by decide⟩
    let c := Cursor.atOffset (Partition.create topic "") 0
    let e : Partition.Entry := ⟨0, [120], none⟩
    let as : List Action := [.call (.append e), .call (.append e), .call (.append e)]
    c.topic = topic ∧
    let r := (Reader.mk ((Partition.create topic "").after []) c).run as
    let pos := r.cursor.position
    ((∃ m : Message, m.offset = pos ∧
        r.cursor.tryNext r.partition = ({ r.cursor with position := pos + 1 }, .ok (some m))) ↔
      r.partition.start ≤ pos ∧ pos < r.partition.highWatermark) ∧
    (r.cursor.tryNext r.partition = (r.cursor, .ok none) ↔ r.partition.highWatermark ≤ pos) ∧
    (r.cursor.tryNext r.partition = (r.cursor, .error (.offsetNotFound topic (.exactly pos))) ↔
      pos < r.partition.start) ∧
    (∀ more, r.partition.start ≤ (r.run more).partition.start) ∧
    (∀ e, r.next = .error e → ∀ more, ∀ x ∈ r.answers more, x = .error e) ∧
    (0 < r.partition.highWatermark →
      let N := r.partition.highWatermark
      let r' := r.step (.call .reset)
      r'.partition.start = N - 1 ∧
      ((∀ more, ∀ x ∈ r'.answers more, ∃ e, x = .error e) ↔ pos < N - 1) ∧
      (N - 1 ≤ pos → ∀ more, r'.answers more = r.answers more) ∧
      (pos = N - 1 → ∃ m, r'.partition.retained.toList = [m] ∧ r'.next = .ok (some m))) := by
  intro topic c e as
  exact ⟨rfl, chased_past_is_exact_and_permanent topic "" [] c rfl as⟩

end Cursor

end MessageBroker
