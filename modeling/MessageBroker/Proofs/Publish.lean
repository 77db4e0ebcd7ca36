import MessageBroker.Client.Session
import MessageBroker.Proofs.StoreRun
/-!
# Publishing

A publish request is checked in full before anything is written: its topic name first, then
its time to live, which must not be negative and, when positive, must fit a clock offset and
put the expiry inside the calendar. A request that passes all checks is one save: the store
routes it to one partition of its topic, creating the topic with its default partitions when
it is missing, appends it there once and answers the partition and the offset it wrote at.

## Main definitions

* `PublishRequest.Rejected`: the checks a request fails at an instant
* `PublishRequest.expiry`: the expiry a request asks for at an instant

## Main results

* `Broker.publishRequest_of_valid`: what a request with a valid name answers
* `Broker.publishRequest_eq_error_iff`: a request fails exactly when it is rejected
* `Broker.publishRequest_of_accepted`: an accepted request is one save
* `Session.publish_atomic_appends_once`: a publish fails leaving the session as it was, or
  appends its message once, where its answer says, and the message stays there until a reset
-/

namespace MessageBroker

/-! ## Times to live -/

theorem Span.total_ofMillis (ms : Nat) : (Span.ofMillis ms).total = ms * 1000000 := by
  simp only [Span.ofMillis, Span.total, Span.nanosPerSec]
  omega

theorem Span.isZero_ofMillis {ms : Nat} (h : 0 < ms) : (Span.ofMillis ms).isZero = false := by
  simp only [Span.isZero, Span.ofMillis, Bool.and_eq_false_iff, beq_eq_false_iff_ne]
  omega

/-- The expiry of a positive number of milliseconds: the span must fit a clock offset, and the
instant it reaches must lie inside the calendar. -/
theorem expiryAfter_ofMillis (now : Instant) {ms : Nat} (hms : 0 < ms) :
    expiryAfter now (Span.ofMillis ms) =
      if Span.limit.total < ms * 1000000 then .error (.tooLarge (Span.ofMillis ms))
      else if Instant.last.nanos < now.nanos + ((ms * 1000000 : Nat) : Int) then
        .error (.overflows (Span.ofMillis ms))
      else .ok (some ⟨now.nanos + ((ms * 1000000 : Nat) : Int)⟩) := by
  unfold expiryAfter
  rw [Span.isZero_ofMillis hms, Span.total_ofMillis]
  simp only [Bool.false_eq_true, if_false]

namespace PublishRequest

/-- The expiry a request asks for at `now`: none for a time to live of `0`, else `now` plus
that many milliseconds. -/
def expiry (r : PublishRequest) (now : Instant) : Option Instant :=
  if 0 < r.ttlMs.toInt then some ⟨now.nanos + r.ttlMs.toInt * 1000000⟩ else none

/-- A request is rejected at `now` when its topic name breaks a rule, when its time to live is
negative, or when it is positive and either does not fit a clock offset or puts the expiry
past the last instant of the calendar. -/
def Rejected (r : PublishRequest) (now : Instant) : Prop :=
  nameProblem? r.topic ≠ none ∨ r.ttlMs.toInt < 0 ∨
    (0 < r.ttlMs.toInt ∧ ((Span.limit.total : Int) < r.ttlMs.toInt * 1000000 ∨
      Instant.last.nanos < now.nanos + r.ttlMs.toInt * 1000000))

instance (r : PublishRequest) (now : Instant) : Decidable (r.Rejected now) :=
  inferInstanceAs (Decidable (_ ∨ _ ∨ _))

/-- A time to live always fits a clock offset: the longest one a request can carry is the
longest span an offset holds. -/
theorem ttl_fits (r : PublishRequest) : r.ttlMs.toInt * 1000000 ≤ (Span.limit.total : Int) := by
  have hlt := Int64.toInt_lt r.ttlMs
  have hlimit : Span.limit.total = 9223372036854775807000000 := rfl
  rw [hlimit]
  omega

/-- The expiry of a positive time to live: it always fits a clock offset, so only the calendar
can refuse it, and otherwise it is the expiry the request asks for. -/
theorem expiryAfter_ttl (r : PublishRequest) (now : Instant) (hpos : 0 < r.ttlMs.toInt) :
    expiryAfter now (Span.ofMillis r.ttlMs.toInt.toNat) =
      if Instant.last.nanos < now.nanos + r.ttlMs.toInt * 1000000 then
        .error (.overflows (Span.ofMillis r.ttlMs.toInt.toNat))
      else .ok (r.expiry now) := by
  have hms : 0 < r.ttlMs.toInt.toNat := by omega
  have hcast : ((r.ttlMs.toInt.toNat * 1000000 : Nat) : Int) = r.ttlMs.toInt * 1000000 := by
    omega
  have hfit : ¬ Span.limit.total < r.ttlMs.toInt.toNat * 1000000 := by
    have := r.ttl_fits
    omega
  rw [expiryAfter_ofMillis now hms, if_neg hfit, hcast, expiry, if_pos hpos]

end PublishRequest

/-! ## Checking a name -/

namespace TopicName

variable {s : String}

theorem check_of_problem {p : NameProblem} (h : nameProblem? s = some p) :
    check s = .error p := by
  unfold check
  split
  · next p' h' =>
    rw [h] at h'
    cases h'
    rfl
  · next h' =>
    rw [h] at h'
    cases h'

theorem parse_of_problem {p : NameProblem} (h : nameProblem? s = some p) :
    parse s = .error (.invalidArgument p.message) := by
  rw [parse, check_of_problem h]
  rfl

theorem parse_of_valid (h : nameProblem? s = none) : parse s = .ok ⟨s, h⟩ := by
  rw [parse, check_val ⟨s, h⟩]
  rfl

end TopicName

/-! ## What a broker answers -/

namespace Broker

variable (b : Broker) (now : Instant) {r : PublishRequest}

theorem publish_none (topic : TopicName) (c : List UInt8) (key : Option String) :
    b.publish now topic c key none =
      .ok ({ b with storage := (b.storage.save topic c key none).1 },
        (b.storage.save topic c key none).2) := rfl

theorem publish_some (topic : TopicName) (c : List UInt8) (key : Option String) (d : Span) :
    b.publish now topic c key (some d) =
      match expiryAfter now d with
      | .error e => .error (.invalidArgument e.message)
      | .ok x => .ok ({ b with storage := (b.storage.save topic c key x).1 },
          (b.storage.save topic c key x).2) := by
  cases h : expiryAfter now d <;>
    simp only [Broker.publish, h, Except.mapError, bind, Except.bind, pure, Except.pure]

theorem publishRequest_of_problem {p : NameProblem} (h : nameProblem? r.topic = some p) :
    b.publishRequest now r = .error (.invalidArgument p.message) := by
  unfold publishRequest
  rw [TopicName.parse_of_problem h]
  rfl

theorem publishRequest_of_negative (hv : nameProblem? r.topic = none)
    (hneg : r.ttlMs.toInt < 0) :
    b.publishRequest now r = .error (.invalidArgument
      ("TTL cannot be negative, got " ++ toString r.ttlMs.toInt ++ "ms")) := by
  unfold publishRequest
  rw [TopicName.parse_of_valid hv]
  simp only [bind, Except.bind, hneg, if_true]
  rfl

/-- A request whose name and sign of time to live pass is the broker's publish of its body,
under its key unless that is empty, for its time to live as a span (none for `0`). -/
theorem publishRequest_of_checked (hv : nameProblem? r.topic = none)
    (hneg : ¬ r.ttlMs.toInt < 0) :
    b.publishRequest now r =
      match b.publish now ⟨r.topic, hv⟩ r.body (r.key.filter (· ≠ ""))
          (if 0 < r.ttlMs.toInt then some (Span.ofMillis r.ttlMs.toInt.toNat) else none) with
      | .error e => .error e
      | .ok res => .ok (res.1, PublishResponse.ofId res.2) := by
  unfold publishRequest
  rw [TopicName.parse_of_valid hv]
  simp only [bind, Except.bind, hneg, if_false]
  cases b.publish now ⟨r.topic, hv⟩ r.body (r.key.filter (· ≠ ""))
    (if 0 < r.ttlMs.toInt then some (Span.ofMillis r.ttlMs.toInt.toNat) else none) <;> rfl

/-- **What a request with a valid name answers.** A negative time to live is refused; a positive
one that does not fit a clock offset, or whose expiry falls past the calendar, is refused as an
invalid argument; anything else is saved once, under the key unless it is empty, with the
expiry the request asks for. -/
theorem publishRequest_of_valid (hv : nameProblem? r.topic = none) :
    b.publishRequest now r =
      if r.ttlMs.toInt < 0 then .error (.invalidArgument
        ("TTL cannot be negative, got " ++ toString r.ttlMs.toInt ++ "ms"))
      else if 0 < r.ttlMs.toInt ∧ (Span.limit.total : Int) < r.ttlMs.toInt * 1000000 then
        .error (.invalidArgument
          (ExpiryError.tooLarge (Span.ofMillis r.ttlMs.toInt.toNat)).message)
      else if 0 < r.ttlMs.toInt ∧ Instant.last.nanos < now.nanos + r.ttlMs.toInt * 1000000 then
        .error (.invalidArgument
          (ExpiryError.overflows (Span.ofMillis r.ttlMs.toInt.toNat)).message)
      else
        let w := b.storage.save ⟨r.topic, hv⟩ r.body (r.key.filter (· ≠ "")) (r.expiry now)
        .ok ({ b with storage := w.1 }, .ofId w.2) := by
  by_cases hneg : r.ttlMs.toInt < 0
  · rw [if_pos hneg, publishRequest_of_negative b now hv hneg]
  rw [if_neg hneg, publishRequest_of_checked b now hv hneg]
  by_cases hpos : 0 < r.ttlMs.toInt
  · -- the span always fits a clock offset, so the second check never fails
    have hfit : ¬ (0 < r.ttlMs.toInt ∧ (Span.limit.total : Int) < r.ttlMs.toInt * 1000000) :=
      fun h => absurd h.2 (Int.not_lt.mpr r.ttl_fits)
    rw [if_pos hpos, publish_some, r.expiryAfter_ttl now hpos, if_neg hfit]
    by_cases hover : Instant.last.nanos < now.nanos + r.ttlMs.toInt * 1000000
    · rw [if_pos hover, if_pos (And.intro hpos hover)]
    · have hover' : ¬ (0 < r.ttlMs.toInt ∧
          Instant.last.nanos < now.nanos + r.ttlMs.toInt * 1000000) := fun h => hover h.2
      rw [if_neg hover, if_neg hover']
  · rw [if_neg hpos, publish_none]
    simp [PublishRequest.expiry, hpos]

/-- **A request fails exactly when it is rejected.** -/
theorem publishRequest_eq_error_iff :
    (∃ e, b.publishRequest now r = .error e) ↔ r.Rejected now := by
  cases hv : nameProblem? r.topic with
  | some p =>
    -- a broken name fails before anything else is looked at
    exact iff_of_true ⟨_, publishRequest_of_problem b now hv⟩ (Or.inl (by simp [hv]))
  | none =>
    have hname : ¬ nameProblem? r.topic ≠ none := by simp [hv]
    rw [publishRequest_of_valid b now hv]
    split_ifs with h₁ h₂ h₃
    · exact iff_of_true ⟨_, rfl⟩ (Or.inr (Or.inl h₁))
    · exact iff_of_true ⟨_, rfl⟩ (Or.inr (Or.inr ⟨h₂.1, Or.inl h₂.2⟩))
    · exact iff_of_true ⟨_, rfl⟩ (Or.inr (Or.inr ⟨h₃.1, Or.inr h₃.2⟩))
    · refine iff_of_false (by simp) ?_
      -- every check passed, so no disjunct of the rejection holds
      rintro (h | h | ⟨hpos, h | h⟩)
      · exact hname h
      · exact h₁ h
      · exact h₂ ⟨hpos, h⟩
      · exact h₃ ⟨hpos, h⟩

/-- **An accepted request is one save** under the name it gives, of its body, under its key
unless that is empty, with the expiry it asks for. -/
theorem publishRequest_of_accepted (hr : ¬ r.Rejected now) :
    ∃ name : TopicName, name.val = r.topic ∧
      b.publishRequest now r =
        .ok ({ b with storage := (b.storage.save name r.body (r.key.filter (· ≠ ""))
            (r.expiry now)).1 },
          .ofId (b.storage.save name r.body (r.key.filter (· ≠ "")) (r.expiry now)).2) := by
  have hv : nameProblem? r.topic = none := by
    by_contra h
    exact hr (Or.inl h)
  refine ⟨⟨r.topic, hv⟩, rfl, ?_⟩
  rw [publishRequest_of_valid b now hv, if_neg fun h => hr (Or.inr (Or.inl h)),
    if_neg fun h => hr (Or.inr (Or.inr ⟨h.1, Or.inl h.2⟩)),
    if_neg fun h => hr (Or.inr (Or.inr ⟨h.1, Or.inr h.2⟩))]

end Broker

/-! ## A save appends once -/

namespace Storage

variable {s : Storage}

/-- **A save appends once.** It changes the topic of its own name only; that topic, the one
there or a new one with the default partitions, draws one sequence number; the partition under
the answered key, found or new, gets the message appended at its high watermark, and every other
partition stays as it was. -/
theorem Inv.save_appends_once (h : s.Inv) (name : TopicName) (c : List UInt8)
    (key : Option String) (e : Option Instant) :
    (∀ name', name' ≠ name → (s.save name c key e).1.topic? name' = s.topic? name') ∧
    (∃ T', (s.save name c key e).1.topic? name = some T' ∧
      T'.sequence = (s.saveTarget name).sequence + 1 ∧
      T'.find? (s.save name c key e).2.partition =
        some ((((s.saveTarget name).find? (s.save name c key e).2.partition).getD
          (Partition.create name (s.save name c key e).2.partition)).append
            (s.saveTarget name).sequence c e).1 ∧
      ∀ k, k ≠ (s.save name c key e).2.partition →
        T'.find? k = (s.saveTarget name).find? k) ∧
    (s.save name c key e).2.offset =
      (((s.saveTarget name).find? (s.save name c key e).2.partition).getD
        (Partition.create name (s.save name c key e).2.partition)).highWatermark := by
  obtain ⟨hist, hr⟩ := h.saveTarget name
  -- the answer is the key and the offset the route into the target answered
  have hk : (s.save name c key e).2.partition = ((s.saveTarget name).route key c e).2.1 := rfl
  have ho : (s.save name c key e).2.offset = ((s.saveTarget name).route key c e).2.2 := rfl
  refine ⟨fun name' hne => ?_, ⟨_, ?_, hr.sequence_route key c e, ?_, fun k hne => ?_⟩, ?_⟩
  · exact (topic?_save c key e name').trans (if_neg (Ne.symm hne))
  · rw [topic?_save, if_pos rfl]
  · rw [hr.find?_route, if_pos hk, name_saveTarget]
  · rw [hr.find?_route, if_neg (hk ▸ hne)]
  · obtain ⟨hp, -⟩ := hr.refines_find?_getD (s.save name c key e).2.partition
    rw [name_saveTarget] at hp
    rw [ho, hr.route_snd, ← hk, ← hp.next_eq]
    rfl

theorem Inv.save_partition_of_ne (h : s.Inv) {name : TopicName} {k : String} (hk : k ≠ "")
    (c : List UInt8) (e : Option Instant) : (s.save name c (some k) e).2.partition = k := by
  obtain ⟨hist, hr⟩ := h.saveTarget name
  rw [save_eq]
  exact Topic.route_key_of_ne hr.keyed hk c e

end Storage

/-! ## A session's publish -/

namespace Session

theorem handle_publish (s : Session) (now : Instant) (r : PublishRequest) :
    s.handle now (.publish r) = s.answer (s.broker.publishRequest now r) fun p =>
      ({ s with broker := p.1 }, .published p.2) := rfl

/-- **A publish is atomic and appends once.** From a store that keeps the invariant (every
store reached from an empty one does, `Storage.inv_runOps`), a session's publish of `r` at `now`
fails exactly when `r` is rejected, and then leaves the session as it was. Otherwise it answers
`published` and changes only the store, and there only the topic of the request's name. That
topic, the one there or a new one with the default partitions, draws one sequence number; the
partition under the answered key, found or new, gets exactly one append, at its previous high
watermark, and every other partition stays as it was. The answer's id is
`topic/partition@offset`, a non-empty key is the partition written, and the message (the body,
the topic's counter, and as expiry `now` plus the time to live when that is positive) is read
back at that partition and offset after any later run that does not reset the topic. -/
theorem publish_atomic_appends_once (s : Session) (now : Instant) (r : PublishRequest)
    (hs : s.broker.storage.Inv) :
    ((∃ e, s.handle now (.publish r) = (s, .failed e)) ↔ r.Rejected now) ∧
    (¬ r.Rejected now → ∃ (name : TopicName) (resp : PublishResponse) (st : Storage),
      let T := s.broker.storage.saveTarget name
      let P := (T.find? resp.partition).getD (Partition.create name resp.partition)
      name.val = r.topic ∧
      s.handle now (.publish r) =
        ({ s with broker := { s.broker with storage := st } }, .published resp) ∧
      (∀ name', name' ≠ name → st.topic? name' = s.broker.storage.topic? name') ∧
      (∃ T', st.topic? name = some T' ∧ T'.sequence = T.sequence + 1 ∧
        T'.find? resp.partition = some (P.append T.sequence r.body (r.expiry now)).1 ∧
        ∀ k, k ≠ resp.partition → T'.find? k = T.find? k) ∧
      resp.offset = P.highWatermark ∧
      resp.id = r.topic ++ "/" ++ resp.partition ++ "@" ++ toString resp.offset ∧
      (∀ k, r.key = some k → k ≠ "" → resp.partition = k) ∧
      ∀ later : List Storage.Op, (∀ op ∈ later, op ≠ .resetOffset name) →
        (st.runOps later).explorePartition name resp.partition (.exactly resp.offset) =
          .ok ⟨resp.offset, resp.partition, T.sequence, r.body, r.expiry now⟩) := by
  refine ⟨?_, fun hr => ?_⟩
  · -- the session answers `failed` exactly when the broker does
    rw [handle_publish, ← Broker.publishRequest_eq_error_iff s.broker now]
    cases hp : s.broker.publishRequest now r <;> simp [answer]
  obtain ⟨name, hname, hok⟩ := Broker.publishRequest_of_accepted s.broker now hr
  let key := r.key.filter (· ≠ "")
  let w := s.broker.storage.save name r.body key (r.expiry now)
  obtain ⟨hothers, hT', hoff⟩ := hs.save_appends_once name r.body key (r.expiry now)
  refine ⟨name, .ofId w.2, w.1, hname, by rw [handle_publish, hok]; rfl, hothers, hT', hoff,
    by rw [← hname]; rfl, fun k hk hne => ?_, fun later hlater => ?_⟩
  · -- a non-empty key survives the filter and names the partition
    have hkey : key = some k := by simp [key, hk, hne]
    exact (congrArg (fun key => (s.broker.storage.save name r.body key (r.expiry now)).2.partition)
      hkey).trans (hs.save_partition_of_ne hne r.body (r.expiry now))
  · -- the message is read back right after the save, and the rest of the run keeps it
    have hstored := hs.stored_after_save name r.body key (r.expiry now)
    rw [Storage.sequenceOf, ← Storage.sequence_saveTarget] at hstored
    exact (hs.apply (.save name r.body key (r.expiry now))).explorePartition_runOps hstored hlater

/-- A fresh session publishing under a key, with a time to live of a second. -/
theorem publish_on_fresh_session :
    let s := Session.create 1
    let now : Instant := ⟨0⟩
    let r : PublishRequest := ⟨"orders", [7], 1000, some "eu", none⟩
    s.broker.storage.Inv ∧
    ((∃ e, s.handle now (.publish r) = (s, .failed e)) ↔ r.Rejected now) ∧
    (¬ r.Rejected now → ∃ (name : TopicName) (resp : PublishResponse) (st : Storage),
      let T := s.broker.storage.saveTarget name
      let P := (T.find? resp.partition).getD (Partition.create name resp.partition)
      name.val = r.topic ∧
      s.handle now (.publish r) =
        ({ s with broker := { s.broker with storage := st } }, .published resp) ∧
      (∀ name', name' ≠ name → st.topic? name' = s.broker.storage.topic? name') ∧
      (∃ T', st.topic? name = some T' ∧ T'.sequence = T.sequence + 1 ∧
        T'.find? resp.partition = some (P.append T.sequence r.body (r.expiry now)).1 ∧
        ∀ k, k ≠ resp.partition → T'.find? k = T.find? k) ∧
      resp.offset = P.highWatermark ∧
      resp.id = r.topic ++ "/" ++ resp.partition ++ "@" ++ toString resp.offset ∧
      (∀ k, r.key = some k → k ≠ "" → resp.partition = k) ∧
      ∀ later : List Storage.Op, (∀ op ∈ later, op ≠ .resetOffset name) →
        (st.runOps later).explorePartition name resp.partition (.exactly resp.offset) =
          .ok ⟨resp.offset, resp.partition, T.sequence, r.body, r.expiry now⟩) :=
  ⟨Storage.inv_create 1, publish_atomic_appends_once _ _ _ (Storage.inv_create 1)⟩

end Session

end MessageBroker
