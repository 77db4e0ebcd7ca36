import MessageBroker.Proofs.Delivery
import MessageBroker.Proofs.TopicShape
/-!
# The life of a subscription

A subscription is opened, then streams from its first call of `next`; it ends cancelled, when a
call finds its cancellation asked for, or failed, when a call meets a cursor chased past; and
the call after the end closes it. This module says what one call does, with the state it leaves
and the order in which it tries the cursors, and follows a subscription along any run of store
changes, cancellations and calls: what the calls answer and the states they leave form one
fixed pattern.

A call that finds nothing waits; a poll that answers "pending" is a call still waiting, so the
answers of the calls are the deliveries of the polls with the pending ones left out.

## Main definitions

* `Cursor.Waits`, `Cursor.ChasedPast`: a cursor that reads nothing yet, and one that fails
* `SubscriptionState.after`: the state a call leaves, by its start and its answer
* `Lifecycle`, `Lifecycle.step`, `Lifecycle.run`: a subscription along a run, with its calls
* `Lifecycle.Told`, `Lifecycle.Passed`: the answers and the states a subscription has gone
  through, for the state it is in

## Main results

* `Subscription.next_state_cases`: the five things a call can do
* `Subscription.next_eq_failure`: a failure comes from the first cursor, in rotation order,
  that does not wait, and it is chased past
* `Lifecycle.Inv.step`, `Lifecycle.Inv.run`: every step, and so every run, keeps the invariant
* `Lifecycle.subscription_lifecycle`: the answers, the states and the cancellation of every run
-/

namespace MessageBroker

/-! ## Cursors that wait, and cursors that fail -/

namespace Cursor

/-- The cursor reads nothing yet in the topic: its partition holds nothing at its position. -/
def Waits (t : Topic) (c : Cursor) : Prop :=
  ∀ p, t.find? c.key = some p → p.read c.position = .pending

/-- The cursor has been chased past: its position lies below the start of its partition. -/
def ChasedPast (t : Topic) (c : Cursor) : Prop :=
  ∃ p, t.find? c.key = some p ∧ c.position < p.start

end Cursor

theorem Partition.read_eq_chasedPast {p : Partition} {o s : Nat} (h : p.read o = .chasedPast s) :
    o < p.start := by
  unfold Partition.read at h
  split at h
  · assumption
  · -- the other two branches read nothing or a message
    split at h
    · cases h
    · split at h <;> cases h

namespace Subscription

variable {s : Subscription} {t : Topic}

/-! ## One cursor -/

theorem tryCursor_eq_ok_none {c c' : Cursor} (h : tryCursor t c = (c', .ok none)) :
    c' = c ∧ c.Waits t := by
  unfold tryCursor at h
  cases hp : t.find? c.key with
  | none =>
    simp only [hp, Prod.mk.injEq] at h
    exact ⟨h.1.symm, fun p hp' => by simp [hp] at hp'⟩
  | some p =>
    simp only [hp] at h
    unfold Cursor.tryNext at h
    cases hr : p.read c.position with
    | ready m => simp [hr] at h
    | pending =>
      simp only [hr, Prod.mk.injEq] at h
      exact ⟨h.1.symm, fun p' hp' => by rw [hp, Option.some.injEq] at hp'; rw [← hp', hr]⟩
    | chasedPast s => simp [hr] at h

theorem tryCursor_eq_error {c c' : Cursor} {e : BrokerError}
    (h : tryCursor t c = (c', .error e)) :
    c' = c ∧ c.ChasedPast t ∧ e = .offsetNotFound c.topic (.exactly c.position) := by
  unfold tryCursor at h
  cases hp : t.find? c.key with
  | none => simp [hp] at h
  | some p =>
    simp only [hp] at h
    unfold Cursor.tryNext at h
    cases hr : p.read c.position with
    | ready m => simp [hr] at h
    | pending => simp [hr] at h
    | chasedPast s =>
      simp only [hr, Prod.mk.injEq, Except.error.injEq] at h
      exact ⟨h.1.symm, ⟨p, hp, Partition.read_eq_chasedPast hr⟩, h.2.symm⟩

/-! ## One round over the cursors -/

/-- **A round fails only at a cursor chased past, after cursors that wait.** Over the steps
`a, a + 1, …, a + n - 1`, a failing round fails at the cursor of some step, every earlier step
found a cursor that waits or none, and no cursor moved. -/
theorem pollSteps_range'_eq_error {start count a n : Nat} {cs cs' : List Cursor}
    {e : BrokerError} (h : pollSteps t start count (List.range' a n) cs = (cs', .error e)) :
    cs' = cs ∧ ∃ j, a ≤ j ∧ j < a + n ∧ ∃ c, cs[(start + j) % count]? = some c ∧
      c.ChasedPast t ∧ e = .offsetNotFound c.topic (.exactly c.position) ∧
      ∀ j', a ≤ j' → j' < j → ∀ c', cs[(start + j') % count]? = some c' → c'.Waits t := by
  induction n generalizing a cs with
  | zero => simp [pollSteps] at h
  | succ n ih =>
    rw [List.range'_succ] at h
    unfold pollSteps at h
    dsimp only at h
    split at h
    · -- no cursor at this step: the round goes on
      rename_i hnone
      obtain ⟨rfl, j, hj₁, hj₂, c, hc, hcp, he, hw⟩ := ih h
      refine ⟨rfl, j, by omega, by omega, c, hc, hcp, he, fun j' hj'₁ hj'₂ c' hc' => ?_⟩
      rcases Nat.eq_or_lt_of_le hj'₁ with rfl | hlt
      · rw [hnone] at hc'
        cases hc'
      · exact hw j' (by omega) hj'₂ c' hc'
    · rename_i c hc
      cases hr : tryCursor t c with
      | mk c₁ r =>
        rw [hr] at h
        cases r with
        | error e' =>
          -- the round fails here, at the first step
          obtain ⟨hc₁, hcp, he'⟩ := tryCursor_eq_error hr
          rw [hc₁] at h
          simp only [Prod.mk.injEq, Except.error.injEq] at h
          obtain ⟨rfl, rfl⟩ := h
          refine ⟨set_of_getElem? hc, a, le_refl a, by omega, c, hc, hcp, he',
            fun j' hj'₁ hj'₂ => absurd hj'₂ (by omega)⟩
        | ok o =>
          cases o with
          | some m => simp at h
          | none =>
            -- the cursor waits and stays: the round goes on from the next step
            obtain ⟨rfl, hwait⟩ := tryCursor_eq_ok_none hr
            rw [set_of_getElem? hc] at h
            obtain ⟨rfl, j, hj₁, hj₂, c', hc', hcp, he, hw⟩ := ih h
            refine ⟨rfl, j, by omega, by omega, c', hc', hcp, he,
              fun j' hj'₁ hj'₂ c'' hc'' => ?_⟩
            rcases Nat.eq_or_lt_of_le hj'₁ with rfl | hlt
            · rw [hc, Option.some.injEq] at hc''
              exact hc'' ▸ hwait
            · exact hw j' (by omega) hj'₂ c'' hc''

/-- A round leaves the state and the cancellation as they were. -/
theorem pollCursors_fields (s : Subscription) (t : Topic) :
    (s.pollCursors t).1.state = s.state ∧
      (s.pollCursors t).1.cancelRequested = s.cancelRequested := by
  rcases pollCursors_cases s t with h | ⟨e, h⟩ | ⟨i, c, p, m, -, -, -, h⟩ <;> rw [h] <;>
    exact ⟨rfl, rfl⟩

theorem pollCursors_eq_error {s' : Subscription} {e : BrokerError}
    (h : s.pollCursors t = (s', .error e)) :
    s' = s ∧ ∃ j < s.cursors.length, ∃ c,
      s.cursors[(s.nextCursor + j) % s.cursors.length]? = some c ∧
      c.ChasedPast t ∧ e = .offsetNotFound c.topic (.exactly c.position) ∧
      ∀ j' < j, ∀ c', s.cursors[(s.nextCursor + j') % s.cursors.length]? = some c' →
        c'.Waits t := by
  unfold pollCursors at h
  dsimp only at h
  rw [List.range_eq_range'] at h
  cases hr : pollSteps t s.nextCursor s.cursors.length (List.range' 0 s.cursors.length)
      s.cursors with
  | mk cs r =>
    rw [hr] at h
    cases r with
    | error e' =>
      simp only [Prod.mk.injEq, Except.error.injEq] at h
      obtain ⟨rfl, rfl⟩ := h
      obtain ⟨rfl, j, -, hj, c, hc, hcp, he, hw⟩ := pollSteps_range'_eq_error hr
      exact ⟨rfl, j, by omega, c, hc, hcp, he, fun j' hj' => hw j' (Nat.zero_le _) hj'⟩
    | ok o => cases o with
      | none => simp at h
      | some x => simp at h

/-! ## One call -/

/-- An ended subscription closes, and answers the end. -/
theorem next_of_ended (h : s.state = .cancelled ∨ s.state = .failed ∨ s.state = .closed) :
    s.next t = ({ s with state := .closed }, .finished) := by
  rcases h with h | h | h <;> simp [next, h]

/-- A live subscription whose cancellation was asked for ends, and answers the end. -/
theorem next_of_cancelRequested (hl : s.state = .opened ∨ s.state = .streaming)
    (hc : s.cancelRequested = true) :
    s.next t = ({ s with state := .cancelled }, .finished) := by
  rcases hl with h | h <;> simp [next, h, hc]

section Live

/-! A live subscription not cancelled streams and polls its cursors: it answers the message the
round found, waits, or fails with the round's failure. -/

variable (hl : s.state = .opened ∨ s.state = .streaming)
  (hcf : ¬ ({ s with state := .streaming } : Subscription).cancelRequested = true)
include hl hcf

theorem next_of_message {s' : Subscription} {m : Message}
    (hr : ({ s with state := .streaming } : Subscription).pollCursors t = (s', .ok (some m))) :
    s.next t = (s', .message m) := by
  unfold next
  rcases hl with h | h <;> rw [h] <;> dsimp only <;> rw [if_neg hcf, hr]

theorem next_of_waiting {s' : Subscription}
    (hr : ({ s with state := .streaming } : Subscription).pollCursors t = (s', .ok none)) :
    s.next t = (s', .pending) := by
  unfold next
  rcases hl with h | h <;> rw [h] <;> dsimp only <;> rw [if_neg hcf, hr]

theorem next_of_round_error {s' : Subscription} {e : BrokerError}
    (hr : ({ s with state := .streaming } : Subscription).pollCursors t = (s', .error e)) :
    s.next t = ({ s' with state := .failed }, .failure e) := by
  unfold next
  rcases hl with h | h <;> rw [h] <;> dsimp only <;> rw [if_neg hcf, hr]

end Live

theorem not_cancelRequested_streaming (hc : s.cancelRequested = false) :
    ¬ ({ s with state := .streaming } : Subscription).cancelRequested = true := by
  simp [hc]

/-- **The five things a call can do.** An ended subscription closes and answers the end. A live
one ends cancelled and answers the end; or streams, with a message or still waiting; or fails
with the failure of one of its cursors. -/
theorem next_state_cases (s : Subscription) (t : Topic) :
    ((s.state = .cancelled ∨ s.state = .failed ∨ s.state = .closed) ∧
      (s.next t).1.state = .closed ∧ (s.next t).2 = .finished) ∨
    ((s.state = .opened ∨ s.state = .streaming) ∧
      (((s.next t).1.state = .cancelled ∧ (s.next t).2 = .finished) ∨
        ((s.next t).1.state = .streaming ∧
          ((∃ m, (s.next t).2 = .message m) ∨ (s.next t).2 = .pending)) ∨
        ((s.next t).1.state = .failed ∧
          ∃ c ∈ s.cursors, (s.next t).2 = .failure (.offsetNotFound c.topic (.exactly c.position))))) := by
  cases hst : s.state
  case cancelled | failed | closed =>
    refine .inl ⟨by simp, ?_⟩
    rw [next_of_ended (by simp [hst])]
    exact ⟨rfl, rfl⟩
  all_goals
    refine .inr ⟨by simp, ?_⟩
    have hl : s.state = .opened ∨ s.state = .streaming := by simp [hst]
    cases hc : s.cancelRequested
    case true =>
      rw [next_of_cancelRequested hl hc]
      exact .inl ⟨rfl, rfl⟩
    case false =>
      have hcf := not_cancelRequested_streaming hc
      -- the round keeps the state streaming; only a failure changes it
      obtain ⟨hstate, -⟩ := pollCursors_fields ({ s with state := .streaming } : Subscription) t
      cases hr : ({ s with state := .streaming } : Subscription).pollCursors t with
      | mk s' r =>
        rw [hr] at hstate
        cases r with
        | ok o =>
          cases o with
          | some m =>
            rw [next_of_message hl hcf hr]
            exact .inr (.inl ⟨hstate, .inl ⟨m, rfl⟩⟩)
          | none =>
            rw [next_of_waiting hl hcf hr]
            exact .inr (.inl ⟨hstate, .inr rfl⟩)
        | error e =>
          rw [next_of_round_error hl hcf hr]
          obtain ⟨-, j, -, c, hc', -, he, -⟩ := pollCursors_eq_error hr
          exact .inr (.inr ⟨rfl, c, List.mem_of_getElem? hc', by rw [he]⟩)

/-- **A failure comes from the first cursor, in rotation order, that does not wait.** A call
fails only when the subscription is live and not cancelled, and the cursors tried from the
rotation's start meet, after cursors that wait, one chased past; the failure names that cursor,
and the subscription keeps its cursors and rotation and is failed. -/
theorem next_eq_failure {e : BrokerError} (h : (s.next t).2 = .failure e) :
    (s.state = .opened ∨ s.state = .streaming) ∧ s.cancelRequested = false ∧
      (s.next t).1 = { s with state := .failed } ∧
      ∃ j < s.cursors.length, ∃ c, s.cursors[(s.nextCursor + j) % s.cursors.length]? = some c ∧
        c.ChasedPast t ∧ e = .offsetNotFound c.topic (.exactly c.position) ∧
        ∀ j' < j, ∀ c', s.cursors[(s.nextCursor + j') % s.cursors.length]? = some c' →
          c'.Waits t := by
  have hl : s.state = .opened ∨ s.state = .streaming := by
    cases hst : s.state <;> simp_all [next_of_ended]
  have hc : s.cancelRequested = false := by
    cases hc : s.cancelRequested
    · rfl
    · rw [next_of_cancelRequested hl hc] at h
      cases h
  have hcf := not_cancelRequested_streaming hc
  cases hr : ({ s with state := .streaming } : Subscription).pollCursors t with
  | mk s' r =>
    cases r with
    | ok o =>
      cases o with
      | some m => rw [next_of_message hl hcf hr] at h; cases h
      | none => rw [next_of_waiting hl hcf hr] at h; cases h
    | error e' =>
      rw [next_of_round_error hl hcf hr] at h ⊢
      cases h
      obtain ⟨rfl, hrot⟩ := pollCursors_eq_error hr
      exact ⟨hl, hc, rfl, hrot⟩

/-- A call keeps the cancellation asked for. -/
@[simp] theorem cancelRequested_next (s : Subscription) (t : Topic) :
    (s.next t).1.cancelRequested = s.cancelRequested := by
  cases hst : s.state
  case cancelled | failed | closed => rw [next_of_ended (by simp [hst])]
  all_goals
    have hl : s.state = .opened ∨ s.state = .streaming := by simp [hst]
    cases hc : s.cancelRequested
    case true =>
      rw [next_of_cancelRequested hl hc]
      exact hc
    case false =>
      have hcf := not_cancelRequested_streaming hc
      obtain ⟨-, hcr⟩ := pollCursors_fields ({ s with state := .streaming } : Subscription) t
      cases hr : ({ s with state := .streaming } : Subscription).pollCursors t with
      | mk s' r =>
        rw [hr] at hcr
        cases r with
        | ok o =>
          cases o with
          | some m => rw [next_of_message hl hcf hr]; exact hcr.trans hc
          | none => rw [next_of_waiting hl hcf hr]; exact hcr.trans hc
        | error e => rw [next_of_round_error hl hcf hr]; exact hcr.trans hc

/-- A call after the cancellation was asked for answers the end and moves no cursor, whatever
the cursors could read. -/
theorem next_of_cancelled (hc : s.cancelRequested = true) :
    (s.next t).2 = .finished ∧ (s.next t).1.cursors = s.cursors := by
  by_cases hl : s.state = .opened ∨ s.state = .streaming
  · rw [next_of_cancelRequested hl hc]
    exact ⟨rfl, rfl⟩
  · have he : s.state = .cancelled ∨ s.state = .failed ∨ s.state = .closed := by
      cases hst : s.state <;> simp_all
    rw [next_of_ended he]
    exact ⟨rfl, rfl⟩

/-- A call keeps every cursor on the topic it was on. -/
theorem topic_of_mem_cursors_next {name : TopicName} (h : ∀ c ∈ s.cursors, c.topic = name) :
    ∀ c ∈ (s.next t).1.cursors, c.topic = name := by
  rcases next_cases s t with ⟨hcs, -⟩ | ⟨i, c, p, m, hc, -, -, hcs, -⟩
  · rw [hcs]
    exact h
  · -- one cursor moves, along its own partition
    rw [hcs]
    intro c' hc'
    rcases List.mem_or_eq_of_mem_set hc' with hc' | rfl
    · exact h c' hc'
    · exact h c (List.mem_of_getElem? hc)

end Subscription

/-! ## The state a call leaves -/

/-- The state a call leaves, by the state it started in and what it answered: streaming after
a message or while it waits, failed after a failure; after the end, cancelled when the
subscription was live and closed when it had ended already. -/
def SubscriptionState.after (start : SubscriptionState) : Delivery → SubscriptionState
  | .message _ | .pending => .streaming
  | .failure _ => .failed
  | .finished =>
    match start with
    | .opened | .streaming => .cancelled
    | .cancelled | .failed | .closed => .closed

theorem Subscription.state_next (s : Subscription) (t : Topic) :
    (s.next t).1.state = s.state.after (s.next t).2 := by
  rcases next_state_cases s t with ⟨hs, h₁, h₂⟩ | ⟨hs, ⟨h₁, h₂⟩ | ⟨h₁, ⟨m, h₂⟩ | h₂⟩ | ⟨h₁, c, -, h₂⟩⟩ <;>
    rw [h₁, h₂]
  · rcases hs with h | h | h <;> rw [h] <;> rfl
  · rcases hs with h | h <;> rw [h] <;> rfl
  all_goals rfl

/-! ## A subscription along a run -/

/-- One call of `next`: the subscription it found, and its topic as the store held it. -/
structure Subscription.Call where
  before : Subscription
  topic : Topic

namespace Subscription.Call

/-- What the call answered. -/
def delivery (x : Call) : Delivery := (x.before.next x.topic).2

/-- The subscription the call left. -/
def after (x : Call) : Subscription := (x.before.next x.topic).1

end Subscription.Call

/-- A subscription with the broker it reads from, and its calls so far, oldest first. -/
structure Lifecycle where
  broker : Broker
  sub : Subscription
  calls : List Subscription.Call

namespace Lifecycle

/-- What happens around a subscription: a change to the store, the cancellation of its token,
or a call of `next`. -/
inductive Event where
  | change (op : Storage.Op)
  | cancel
  | poll

/-- One event: a change applies to the store; a cancellation is asked for, to be seen by the
next call; a call reads the topic as the store holds it and is recorded. -/
def step (w : Lifecycle) : Event → Lifecycle
  | .change op => { w with broker := { w.broker with storage := w.broker.storage.apply op } }
  | .cancel => { w with sub := { w.sub with cancelRequested := true } }
  | .poll =>
    let x : Subscription.Call := ⟨w.sub, w.broker.topicOf w.sub⟩
    { w with sub := x.after, calls := w.calls ++ [x] }

/-- A run of events. -/
def run (w : Lifecycle) (evs : List Event) : Lifecycle :=
  evs.foldl step w

@[simp] theorem run_nil (w : Lifecycle) : w.run [] = w := rfl

@[simp] theorem run_cons (w : Lifecycle) (ev : Event) (evs : List Event) :
    w.run (ev :: evs) = (w.step ev).run evs := rfl

theorem run_append (w : Lifecycle) (evs₁ evs₂ : List Event) :
    w.run (evs₁ ++ evs₂) = (w.run evs₁).run evs₂ :=
  List.foldl_append

/-- What the calls answered, oldest first; a poll that found nothing is a call still waiting,
and is left out. -/
def results (w : Lifecycle) : List Delivery :=
  (w.calls.map (·.delivery)).filter (· != .pending)

/-- The states the subscription was seen in: opened at first, then after each call. -/
def states (w : Lifecycle) : List SubscriptionState :=
  .opened :: w.calls.map (·.after.state)

/-- **What a subscription has answered, for the state it is in**: nothing while opened,
messages while streaming; then the end once cancelled, or one failure naming the topic `name`
once failed; and once closed, one end or more after those. -/
def Told (name : TopicName) : SubscriptionState → List Delivery → Prop
  | .opened, ds => ds = []
  | .streaming, ds => ∃ ms : List Message, ds = ms.map .message
  | .cancelled, ds => ∃ ms : List Message, ds = ms.map .message ++ [.finished]
  | .failed, ds => ∃ (ms : List Message) (o : Nat),
      ds = ms.map .message ++ [.failure (.offsetNotFound name (.exactly o))]
  | .closed, ds => ∃ (ms : List Message) (n : Nat),
      ds = ms.map .message ++ List.replicate (n + 1) .finished ∨
      ∃ o, ds = ms.map .message ++
        .failure (.offsetNotFound name (.exactly o)) :: List.replicate (n + 1) .finished

/-- **The states a subscription has gone through, for the state it is in**: opened, then
streaming for a while, then cancelled or failed, then closed for a while. -/
def Passed : SubscriptionState → List SubscriptionState → Prop
  | .opened, l => l = [.opened]
  | .streaming, l => ∃ a, l = .opened :: List.replicate (a + 1) .streaming
  | .cancelled, l => ∃ a, l = .opened :: List.replicate a .streaming ++ [.cancelled]
  | .failed, l => ∃ a, l = .opened :: List.replicate a .streaming ++ [.failed]
  | .closed, l => ∃ a b,
      l = .opened :: List.replicate a .streaming ++ .cancelled :: List.replicate (b + 1) .closed ∨
      l = .opened :: List.replicate a .streaming ++ .failed :: List.replicate (b + 1) .closed

variable {name : TopicName}

/-- **A call extends what was answered by its answer**, pending left out, in the pattern of the
state it leaves. A failure names the topic, since every cursor is on it. -/
theorem Told.next {s : Subscription} {ds : List Delivery} (h : Told name s.state ds)
    (hcs : ∀ c ∈ s.cursors, c.topic = name) (t : Topic) :
    Told name (s.next t).1.state (ds ++ [(s.next t).2].filter (· != .pending)) := by
  rcases Subscription.next_state_cases s t with ⟨hs, h₁, h₂⟩ |
    ⟨hs, ⟨h₁, h₂⟩ | ⟨h₁, ⟨m, h₂⟩ | h₂⟩ | ⟨h₁, c, hc, h₂⟩⟩ <;> rw [h₁, h₂]
  · -- an ended subscription answers one more end
    rcases hs with hs | hs | hs <;> rw [hs] at h
    · obtain ⟨ms, rfl⟩ := h
      exact ⟨ms, 1, .inl (by simp [List.replicate_succ])⟩
    · obtain ⟨ms, o, rfl⟩ := h
      exact ⟨ms, 0, .inr ⟨o, by simp⟩⟩
    · obtain ⟨ms, n, rfl | ⟨o, rfl⟩⟩ := h
      · exact ⟨ms, n + 1, .inl (by simp [List.replicate_succ'])⟩
      · exact ⟨ms, n + 1, .inr ⟨o, by simp [List.replicate_succ']⟩⟩
  -- a live subscription has answered messages only
  all_goals
    obtain ⟨ms, rfl⟩ : ∃ ms : List Message, ds = ms.map .message := by
      rcases hs with hs | hs <;> rw [hs] at h
      · exact ⟨[], h⟩
      · exact h
  · exact ⟨ms, by simp⟩
  · exact ⟨ms ++ [m], by simp⟩
  · exact ⟨ms, by simp⟩
  · exact ⟨ms, c.position, by simp [hcs c hc]⟩

/-- **A call extends the states gone through by the state it leaves.** -/
theorem Passed.next {s : Subscription} {l : List SubscriptionState} (h : Passed s.state l)
    (t : Topic) : Passed (s.next t).1.state (l ++ [(s.next t).1.state]) := by
  rcases Subscription.next_state_cases s t with ⟨hs, h₁, -⟩ |
    ⟨hs, ⟨h₁, -⟩ | ⟨h₁, -⟩ | ⟨h₁, -⟩⟩ <;> rw [h₁]
  · -- an ended subscription closes
    rcases hs with hs | hs | hs <;> rw [hs] at h
    · obtain ⟨a, rfl⟩ := h
      exact ⟨a, 0, .inl (by simp)⟩
    · obtain ⟨a, rfl⟩ := h
      exact ⟨a, 0, .inr (by simp)⟩
    · obtain ⟨a, b, rfl | rfl⟩ := h
      · exact ⟨a, b + 1, .inl (by simp [List.replicate_succ'])⟩
      · exact ⟨a, b + 1, .inr (by simp [List.replicate_succ'])⟩
  -- a live subscription has only streamed since it opened
  all_goals
    obtain ⟨a, rfl⟩ : ∃ a, l = .opened :: List.replicate a .streaming := by
      rcases hs with hs | hs <;> rw [hs] at h
      · exact ⟨0, h⟩
      · obtain ⟨a, rfl⟩ := h
        exact ⟨a + 1, rfl⟩
  · exact ⟨a, by simp⟩
  · exact ⟨a, by simp [List.replicate_succ']⟩
  · exact ⟨a, by simp⟩

/-! ## The invariant of a run -/

/-- **The invariant of a subscription to the topic of `name` along a run.** It and all its
cursors are on that topic, and so were those of every call; each call started in the state the
one before left; and what the calls answered and the states they left follow the pattern of
the state the subscription is in. -/
structure Inv (w : Lifecycle) (name : TopicName) : Prop where
  topic_eq : w.sub.topic = name
  cursors_topic : ∀ c ∈ w.sub.cursors, c.topic = name
  calls_topic : ∀ x ∈ w.calls, ∀ c ∈ x.before.cursors, c.topic = name
  chain : w.calls.map (·.before.state) ++ [w.sub.state] = w.states
  told : Told name w.sub.state w.results
  passed : Passed w.sub.state w.states

variable {w : Lifecycle}

/-- A change and a cancellation leave the subscription's state, cursors and calls as they
were. -/
theorem Inv.of_sub (h : w.Inv name) {w' : Lifecycle} (hcalls : w'.calls = w.calls)
    (htopic : w'.sub.topic = w.sub.topic) (hcs : w'.sub.cursors = w.sub.cursors)
    (hstate : w'.sub.state = w.sub.state) : w'.Inv name := by
  have hres : w'.results = w.results := by simp [results, hcalls]
  have hst : w'.states = w.states := by simp [states, hcalls]
  exact ⟨htopic.trans h.topic_eq, hcs ▸ h.cursors_topic, hcalls ▸ h.calls_topic,
    by rw [hcalls, hstate, hst]; exact h.chain, by rw [hstate, hres]; exact h.told,
    by rw [hstate, hst]; exact h.passed⟩

/-- A call is recorded: its answer joins the answers, and the state it leaves the states. -/
theorem Inv.poll (h : w.Inv name) : (w.step .poll).Inv name := by
  let x : Subscription.Call := ⟨w.sub, w.broker.topicOf w.sub⟩
  have hsub : (w.step .poll).sub = x.after := rfl
  have hcalls : (w.step .poll).calls = w.calls ++ [x] := rfl
  have hres : (w.step .poll).results = w.results ++ [x.delivery].filter (· != .pending) := by
    simp only [results, hcalls, List.map_append, List.filter_append, List.map_cons,
      List.map_nil]
  have hst : (w.step .poll).states = w.states ++ [x.after.state] := by
    simp [states, hcalls]
  refine ⟨?_, ?_, ?_, ?_, ?_, ?_⟩
  · rw [hsub, Subscription.Call.after, Subscription.topic_next]
    exact h.topic_eq
  · exact Subscription.topic_of_mem_cursors_next h.cursors_topic
  · intro y hy
    rw [hcalls, List.mem_append, List.mem_singleton] at hy
    rcases hy with hy | rfl
    · exact h.calls_topic y hy
    · exact h.cursors_topic
  · -- the call started in the state the last one left
    rw [hcalls, hsub, hst, ← h.chain]
    simp [x]
  · rw [hsub, hres]
    exact h.told.next h.cursors_topic _
  · rw [hsub, hst]
    exact h.passed.next _

/-- **Every event keeps the invariant.** -/
theorem Inv.step (h : w.Inv name) (ev : Event) : (w.step ev).Inv name := by
  cases ev with
  | change op => exact h.of_sub rfl rfl rfl rfl
  | cancel => exact h.of_sub rfl rfl rfl rfl
  | poll => exact h.poll

/-- **Every run keeps the invariant**, by induction on the events. -/
theorem Inv.run (h : w.Inv name) (evs : List Event) : (w.run evs).Inv name := by
  induction evs generalizing w with
  | nil => exact h
  | cons ev evs ih => exact ih (h.step ev)

/-- Once cancelled, always cancelled: no event withdraws a cancellation. -/
theorem cancelRequested_run (h : w.sub.cancelRequested = true) (evs : List Event) :
    (w.run evs).sub.cancelRequested = true := by
  induction evs generalizing w with
  | nil => exact h
  | cons ev evs ih =>
    apply ih
    cases ev with
    | change op => exact h
    | cancel => rfl
    | poll => exact (Subscription.cancelRequested_next _ _).trans h

/-! ## Reading the pattern -/

/-- The answers of a subscription in any state: messages, then nothing more, one failure of
the topic followed by ends, or ends only. -/
theorem Told.form {st : SubscriptionState} {ds : List Delivery} (h : Told name st ds) :
    ∃ (ms : List Message) (tail : List Delivery), ds = ms.map .message ++ tail ∧
      (tail = [] ∨
        (∃ o n, tail = .failure (.offsetNotFound name (.exactly o)) :: List.replicate n .finished) ∨
        ∃ n, tail = List.replicate (n + 1) .finished) := by
  cases st with
  | opened => exact ⟨[], [], by simp [show ds = [] from h], .inl rfl⟩
  | streaming =>
    obtain ⟨ms, rfl⟩ := h
    exact ⟨ms, [], by simp, .inl rfl⟩
  | cancelled =>
    obtain ⟨ms, rfl⟩ := h
    exact ⟨ms, _, rfl, .inr (.inr ⟨0, rfl⟩)⟩
  | failed =>
    obtain ⟨ms, o, rfl⟩ := h
    exact ⟨ms, _, rfl, .inr (.inl ⟨o, 0, rfl⟩)⟩
  | closed =>
    obtain ⟨ms, n, rfl | ⟨o, rfl⟩⟩ := h
    · exact ⟨ms, _, rfl, .inr (.inr ⟨n, rfl⟩)⟩
    · exact ⟨ms, _, rfl, .inr (.inl ⟨o, n + 1, rfl⟩)⟩

/-- The states of a subscription in any state: opened, streaming for a while, then possibly
cancelled or failed and closed for a while. -/
theorem Passed.form {st : SubscriptionState} {l : List SubscriptionState} (h : Passed st l) :
    ∃ a rest, l = .opened :: List.replicate a .streaming ++ rest ∧
      (rest = [] ∨ ∃ b, rest = .cancelled :: List.replicate b .closed ∨
        rest = .failed :: List.replicate b .closed) := by
  cases st with
  | opened => exact ⟨0, [], by simp [show l = [.opened] from h], .inl rfl⟩
  | streaming =>
    obtain ⟨a, rfl⟩ := h
    exact ⟨a + 1, [], by simp, .inl rfl⟩
  | cancelled =>
    obtain ⟨a, rfl⟩ := h
    exact ⟨a, _, rfl, .inr ⟨0, .inl rfl⟩⟩
  | failed =>
    obtain ⟨a, rfl⟩ := h
    exact ⟨a, _, rfl, .inr ⟨0, .inr rfl⟩⟩
  | closed =>
    obtain ⟨a, b, rfl | rfl⟩ := h
    · exact ⟨a, _, rfl, .inr ⟨b + 1, .inl rfl⟩⟩
    · exact ⟨a, _, rfl, .inr ⟨b + 1, .inr rfl⟩⟩

/-- **A subscription starts with the invariant**: it is opened, no call has been made, and its
cursors are on the topic, since every partition of a topic in a shaped store is. -/
theorem inv_subscribe {b b₁ : Broker} {S : Subscription} (hb : b.storage.Shaped)
    (hS : b.subscribe name = .ok (b₁, S)) : (Lifecycle.mk b₁ S []).Inv name := by
  obtain ⟨t, ht, -, rfl⟩ := Broker.subscribe_eq_ok hS
  have hname : t.name = name := Storage.topic?_eq_some ht
  refine ⟨rfl, fun c hc => ?_, fun x hx => absurd hx List.not_mem_nil, rfl, rfl, rfl⟩
  obtain ⟨p, hp, rfl⟩ := List.mem_map.mp hc
  exact ((hb name t ht).topic_eq p hp).trans hname

/-- **The life of a subscription.** Open a subscription on the topic of `name` in a shaped store
(every store reached from an empty one is) and run any events after it: store operations of
every kind, cancellations of its token and calls of `next`. Then:

* it is opened before its first call;
* what the calls answer is messages, then nothing more, or exactly one failure, that a read of
  this topic at some offset was not found, followed by ends only, or ends only: an error comes at
  most once and only ends follow the first end;
* the states it is seen in are opened, streaming for a while, then cancelled or failed, then
  closed; each call starts in the state the one before left, and leaves streaming after a
  message, failed after a failure, cancelled after an end from a live state and closed after an
  end from an ended one;
* after a cancellation, the next call answers the end and moves no cursor, whatever its
  partitions hold;
* a call fails only when the cursors tried in rotation order from the rotation's start meet,
  after cursors that wait, one below the start of its partition, and the failure names its
  position. -/
theorem subscription_lifecycle {b b₁ : Broker} {S : Subscription} (hb : b.storage.Shaped)
    (hS : b.subscribe name = .ok (b₁, S)) (evs : List Event) :
    let w := (Lifecycle.mk b₁ S []).run evs
    S.state = .opened ∧
    (∃ (ms : List Message) (tail : List Delivery), w.results = ms.map .message ++ tail ∧
      (tail = [] ∨
        (∃ o n, tail = .failure (.offsetNotFound name (.exactly o)) :: List.replicate n .finished) ∨
        ∃ n, tail = List.replicate (n + 1) .finished)) ∧
    (∃ a rest, w.states = .opened :: List.replicate a .streaming ++ rest ∧
      (rest = [] ∨ ∃ b, rest = .cancelled :: List.replicate b .closed ∨
        rest = .failed :: List.replicate b .closed)) ∧
    w.calls.map (·.before.state) ++ [w.sub.state] = w.states ∧
    (∀ x ∈ w.calls, x.after.state = x.before.state.after x.delivery) ∧
    (∀ pre mid, let w₁ := (Lifecycle.mk b₁ S []).run (pre ++ .cancel :: mid)
      (w₁.sub.next (w₁.broker.topicOf w₁.sub)).2 = .finished ∧
        (w₁.sub.next (w₁.broker.topicOf w₁.sub)).1.cursors = w₁.sub.cursors) ∧
    ∀ x ∈ w.calls, ∀ e, x.delivery = .failure e →
      ∃ j < x.before.cursors.length, ∃ c,
        x.before.cursors[(x.before.nextCursor + j) % x.before.cursors.length]? = some c ∧
        c.ChasedPast x.topic ∧ e = .offsetNotFound name (.exactly c.position) ∧
        ∀ j' < j, ∀ c',
          x.before.cursors[(x.before.nextCursor + j') % x.before.cursors.length]? = some c' →
          c'.Waits x.topic := by
  intro w
  have hopen : S.state = .opened := by
    obtain ⟨t, -, -, rfl⟩ := Broker.subscribe_eq_ok hS
    rfl
  have h₀ := inv_subscribe hb hS
  have h := h₀.run evs
  refine ⟨hopen, h.told.form, h.passed.form, h.chain,
    fun x _ => Subscription.state_next x.before x.topic, fun pre mid => ?_,
    fun x hx e he => ?_⟩
  · -- the cancellation asked for is still there at the call
    rw [run_append]
    exact Subscription.next_of_cancelled (cancelRequested_run rfl mid)
  · obtain ⟨-, -, -, j, hj, c, hc, hcp, rfl, hw⟩ := Subscription.next_eq_failure he
    exact ⟨j, hj, c, hc, hcp, by rw [h.calls_topic x hx c (List.mem_of_getElem? hc)], hw⟩

/-- A subscription to a freshly created topic, then a save, a call, a cancellation and two more
calls. -/
theorem lifecycle_of_fresh_subscription :
    let name : TopicName := ⟨"orders", by decide⟩
    let b : Broker := { Broker.create 1 with storage := (Storage.create 1).createTopic name [] }
    let b₁ : Broker := { b with nextConsumer := 2, active := 1 }
    let S : Subscription := Subscription.open_ 1 name [⟨name, "", 0⟩]
    let evs : List Event := [.change (.save name [1] none none), .poll, .cancel, .poll, .poll]
    b.storage.Shaped ∧ b.subscribe name = .ok (b₁, S) ∧
    let w := (Lifecycle.mk b₁ S []).run evs
    S.state = .opened ∧
    (∃ (ms : List Message) (tail : List Delivery), w.results = ms.map .message ++ tail ∧
      (tail = [] ∨
        (∃ o n, tail = .failure (.offsetNotFound name (.exactly o)) :: List.replicate n .finished) ∨
        ∃ n, tail = List.replicate (n + 1) .finished)) ∧
    (∃ a rest, w.states = .opened :: List.replicate a .streaming ++ rest ∧
      (rest = [] ∨ ∃ b, rest = .cancelled :: List.replicate b .closed ∨
        rest = .failed :: List.replicate b .closed)) ∧
    w.calls.map (·.before.state) ++ [w.sub.state] = w.states ∧
    (∀ x ∈ w.calls, x.after.state = x.before.state.after x.delivery) ∧
    (∀ pre mid, let w₁ := (Lifecycle.mk b₁ S []).run (pre ++ .cancel :: mid)
      (w₁.sub.next (w₁.broker.topicOf w₁.sub)).2 = .finished ∧
        (w₁.sub.next (w₁.broker.topicOf w₁.sub)).1.cursors = w₁.sub.cursors) ∧
    ∀ x ∈ w.calls, ∀ e, x.delivery = .failure e →
      ∃ j < x.before.cursors.length, ∃ c,
        x.before.cursors[(x.before.nextCursor + j) % x.before.cursors.length]? = some c ∧
        c.ChasedPast x.topic ∧ e = .offsetNotFound name (.exactly c.position) ∧
        ∀ j' < j, ∀ c',
          x.before.cursors[(x.before.nextCursor + j') % x.before.cursors.length]? = some c' →
          c'.Waits x.topic := by
  intro name b b₁ S evs
  exact ⟨Storage.shaped_runOps 1 [.createTopic _ []], rfl,
    subscription_lifecycle (b := b) (Storage.shaped_runOps 1 [.createTopic _ []]) rfl evs⟩

end Lifecycle

end MessageBroker
