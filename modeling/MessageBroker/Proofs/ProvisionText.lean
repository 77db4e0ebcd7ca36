import MessageBroker.Config
import MessageBroker.Proofs.MessageIdText
/-!
# The written form of topic provisions

A topic to create at startup is written `name` or `name:count`. Reading cuts the text at its
first `:`. The part after it must be the decimal literal of a 64-bit unsigned value (an optional
`+`, then ASCII digits), the part before it a name that is not empty, and the count must not be
zero; without a `:` the whole text is the name and the count is one. The checks are made in that
order, count, name, zero, and the first that fails gives the error.

This module states that grammar as a relation between a text and what reading gives
(`TopicProvision.Reads`) and shows that reading is exactly it. Since the name is what comes
before the first `:`, a name that was read never holds one; writing puts the name, a `:` and
the count in decimal, so every provision that was read reads back from its written form, and
one whose name holds a `:` never does.

## Main definitions

* `TopicProvision.Cut`: a text cut at its first `:` into a name part and a count part
* `TopicProvision.Reads`: the grammar of provision texts, with the outcome of each rule

## Main results

* `TopicProvision.parse_eq_iff`: reading gives exactly what the grammar says
* `TopicProvision.exists_parse_eq_ok_iff`: when reading succeeds
* `TopicProvision.parse_render`: a provision with a name and a count in range reads back
* `TopicProvision.wellFormed_of_parse`: what reading gives writes back
* `TopicProvision.provision_text_grammar_and_round_trip`: all of it
-/

namespace MessageBroker

namespace TopicProvision

open Text

variable {s : String} {N C : List Char} {p : TopicProvision}

/-! ## Cutting at the first `:` -/

/-- **A provision text cut at its first `:`**: a name part that holds no `:`, the `:`, and the
count part. -/
def Cut (s : String) (name count : List Char) : Prop :=
  s.toList = name ++ ':' :: count ∧ ':' ∉ name

theorem Cut.colon_mem (h : Cut s N C) : ':' ∈ s.toList := by
  rw [h.1]
  simp

/-- A text has at most one cut. -/
theorem Cut.unique {N' C' : List Char} (h : Cut s N C) (h' : Cut s N' C') : N = N' ∧ C = C' := by
  have hcut : some (N, C) = some (N', C') := by
    rw [← splitFirstChars_append h.2, ← splitFirstChars_append h'.2, ← h.1, ← h'.1]
  simpa using hcut

theorem exists_cut (h : ':' ∈ s.toList) : ∃ N C, Cut s N C := by
  cases hs : splitFirstChars ':' s.toList with
  | none => exact absurd h (splitFirstChars_eq_none.mp hs)
  | some NC => exact ⟨NC.1, NC.2, splitFirstChars_eq_some hs⟩

theorem splitFirst?_of_cut (h : Cut s N C) :
    splitFirst? ':' s = some (String.ofList N, String.ofList C) := by
  rw [splitFirst?, h.1, splitFirstChars_append h.2]
  rfl

/-! ## What reading does with each shape of text -/

/-- Without a `:`, the whole text is the name and the count is one. -/
theorem parse_of_colon_not_mem (h : ':' ∉ s.toList) :
    parse s = if s = "" then .error (.missingName s) else .ok ⟨s, 1⟩ := by
  have hsplit : splitFirst? ':' s = none := by
    rw [splitFirst?, splitFirstChars_eq_none.mpr h]
    rfl
  simp [parse, hsplit]

/-- A count part that is no literal is the error, whatever the name: the count is checked
first. -/
theorem parse_of_not_literal (h : Cut s N C) (hc : ∀ v, ¬ U64Literal C v) :
    parse s = .error (.badCount s) := by
  cases hr : readU64 (String.ofList C) with
  | ok v => exact absurd (by simpa using readU64_eq_ok_iff.mp hr) (hc v)
  | error e => simp only [parse, splitFirst?_of_cut h, hr]

/-- With a literal count, the name is checked, then the count against zero. -/
theorem parse_of_literal {v : Nat} (h : Cut s N C) (hc : U64Literal C v) :
    parse s = if N = [] then .error (.missingName s)
      else if v = 0 then .error (.noPartitions (String.ofList N))
      else .ok ⟨String.ofList N, v⟩ := by
  have hread : readU64 (String.ofList C) = .ok v := readU64_eq_ok_iff.mpr (by simpa using hc)
  have hname : (String.ofList N).isEmpty = true ↔ N = [] := by
    rw [String.isEmpty_iff, ← String.toList_inj, String.toList_ofList]
    rfl
  simp only [parse, splitFirst?_of_cut h, hread]
  by_cases hN : N = []
  · rw [if_pos (hname.mpr hN), if_pos hN]
  · rw [if_neg (mt hname.mp hN), if_neg hN]

/-! ## The grammar -/

/-- **The grammar of provision texts**, each rule with what reading gives. The rules follow the
order of the checks: a count part that is no literal fails whatever the name, a literal count
after an empty name fails whatever its value, and only then is a zero count refused. -/
inductive Reads : String → Except ProvisionError TopicProvision → Prop where
  /-- a text without `:` names a topic of one partition -/
  | named {s : String} : ':' ∉ s.toList → s ≠ "" → Reads s (.ok ⟨s, 1⟩)
  /-- the empty text names nothing -/
  | empty : Reads "" (.error (.missingName ""))
  /-- a count part that is no literal -/
  | badCount {s : String} {N C : List Char} :
      Cut s N C → (∀ v, ¬ U64Literal C v) → Reads s (.error (.badCount s))
  /-- a literal count after nothing -/
  | missingName {s : String} {C : List Char} {v : Nat} :
      Cut s [] C → U64Literal C v → Reads s (.error (.missingName s))
  /-- a name with the count zero -/
  | noPartitions {s : String} {N C : List Char} :
      Cut s N C → N ≠ [] → U64Literal C 0 → Reads s (.error (.noPartitions (String.ofList N)))
  /-- a name with a positive count -/
  | counted {s : String} {N C : List Char} {v : Nat} :
      Cut s N C → N ≠ [] → U64Literal C v → 0 < v → Reads s (.ok ⟨String.ofList N, v⟩)

/-- Every text is read by the grammar. -/
theorem reads_parse (s : String) : Reads s (parse s) := by
  by_cases hs : ':' ∈ s.toList
  swap
  · rw [parse_of_colon_not_mem hs]
    split_ifs with he
    · subst he
      exact .empty
    · exact .named hs he
  obtain ⟨N, C, h⟩ := exists_cut hs
  by_cases hc : ∃ v, U64Literal C v
  swap
  · rw [parse_of_not_literal h (fun v hv => hc ⟨v, hv⟩)]
    exact .badCount h fun v hv => hc ⟨v, hv⟩
  obtain ⟨v, hv⟩ := hc
  rw [parse_of_literal h hv]
  split_ifs with hN h0
  · subst hN
    exact .missingName h hv
  · subst h0
    exact .noPartitions h hN hv
  · exact .counted h hN hv (Nat.pos_of_ne_zero h0)

/-- What the grammar gives is what reading gives. -/
theorem Reads.parse_eq {r : Except ProvisionError TopicProvision} (h : Reads s r) :
    parse s = r := by
  cases h with
  | named hc hs => rw [parse_of_colon_not_mem hc, if_neg hs]
  | empty => rfl
  | badCount h hc => exact parse_of_not_literal h hc
  | missingName h hc => rw [parse_of_literal h hc, if_pos rfl]
  | noPartitions h hN hc => rw [parse_of_literal h hc, if_neg hN, if_pos rfl]
  | counted h hN hc hv =>
    rw [parse_of_literal h hc, if_neg hN, if_neg (Nat.pos_iff_ne_zero.mp hv)]

/-- **Reading gives exactly what the grammar says.** -/
theorem parse_eq_iff {r : Except ProvisionError TopicProvision} : parse s = r ↔ Reads s r :=
  ⟨fun h => h ▸ reads_parse s, Reads.parse_eq⟩

example : parse "orders:+007" = .ok ⟨"orders", 7⟩ := by decide
example : parse ":0" = .error (.missingName ":0") := by decide

/-- **When reading succeeds**: a text without `:` that is not empty, or a text whose part
before the first `:` is not empty and whose part after it is the literal of a positive
64-bit value. -/
theorem exists_parse_eq_ok_iff :
    (∃ p, parse s = .ok p) ↔
      (':' ∉ s.toList → s ≠ "") ∧ ∀ N C, Cut s N C → N ≠ [] ∧ ∃ v, U64Literal C v ∧ 0 < v := by
  constructor
  · rintro ⟨p, hp⟩
    cases parse_eq_iff.mp hp with
    | named hc hs => exact ⟨fun _ => hs, fun N C h => absurd h.colon_mem hc⟩
    | counted h hN hc hv =>
      refine ⟨fun hno => absurd h.colon_mem hno, fun N' C' h' => ?_⟩
      obtain ⟨rfl, rfl⟩ := h.unique h'
      exact ⟨hN, _, hc, hv⟩
  · rintro ⟨hplain, hcut⟩
    by_cases hs : ':' ∈ s.toList
    · obtain ⟨N, C, h⟩ := exists_cut hs
      obtain ⟨hN, v, hv, hpos⟩ := hcut N C h
      exact ⟨_, (Reads.counted h hN hv hpos).parse_eq⟩
    · exact ⟨_, (Reads.named hs (hplain hs)).parse_eq⟩

/-! ## Writing and reading back -/

theorem toList_render (p : TopicProvision) :
    p.render.toList = p.name.toList ++ ':' :: Nat.toDigits 10 p.partitions := by
  simp [render]

/-- **A provision with a name without `:` and a count in `[1, 2 ^ 64)` reads back from its
written form.** -/
theorem parse_render (hn : p.name ≠ "") (hc : ':' ∉ p.name.toList) (hp : 0 < p.partitions)
    (hb : p.partitions < 2 ^ 64) : parse p.render = .ok p := by
  have hcut : Cut p.render p.name.toList (Nat.toDigits 10 p.partitions) := ⟨toList_render p, hc⟩
  have hN : p.name.toList ≠ [] := fun h => hn (String.toList_eq_nil_iff.mp h)
  have := Reads.counted hcut hN (MessageId.u64Literal_toDigits hb) hp
  rw [String.ofList_toList] at this
  exact this.parse_eq

/-- **What reading gives writes back**: its name is not empty and holds no `:`, and its count
lies in `[1, 2 ^ 64)`. -/
theorem wellFormed_of_parse (h : parse s = .ok p) :
    p.name ≠ "" ∧ ':' ∉ p.name.toList ∧ 0 < p.partitions ∧ p.partitions < 2 ^ 64 := by
  cases parse_eq_iff.mp h with
  | named hc hs => exact ⟨hs, hc, Nat.one_pos, (by decide : (1 : Nat) < 2 ^ 64)⟩
  | @counted _ N C v hcut hN hc hv =>
    obtain ⟨-, -, -, -, -, hlt⟩ := hc
    exact ⟨fun he => hN (by simpa using congrArg String.toList he), by simpa using hcut.2, hv,
      hlt⟩

/-- **Every provision that was read reads back from its written form.** -/
theorem parse_render_of_parse (h : parse s = .ok p) : parse p.render = .ok p := by
  obtain ⟨hn, hc, hp, hb⟩ := wellFormed_of_parse h
  exact parse_render hn hc hp hb

/-- **A name that holds a `:` never reads back**: reading cuts it at its first `:`. -/
theorem parse_render_ne_of_colon_mem (hc : ':' ∈ p.name.toList) : parse p.render ≠ .ok p :=
  fun h => (wellFormed_of_parse h).2.1 hc

/-- **The written form of topic provisions.** Reading a text cuts it at its first `:` and gives
exactly what the grammar `Reads` says: a count part that is not a 64-bit unsigned literal is
refused first, then an empty name, then a zero count, each with its own error; a text without
`:` is a name with one partition. So reading succeeds exactly when the name part is not empty
and the count part, when there is one, is the literal of a positive value. A provision whose
name is not empty and holds no `:`, with a count in `[1, 2 ^ 64)`, reads back from its written
form `name:count`; so does every provision that was read; and one whose name holds a `:` never
does. -/
theorem provision_text_grammar_and_round_trip :
    (∀ s r, parse s = r ↔ Reads s r) ∧
    (∀ s, (∃ p, parse s = .ok p) ↔
      (':' ∉ s.toList → s ≠ "") ∧ ∀ N C, Cut s N C → N ≠ [] ∧ ∃ v, U64Literal C v ∧ 0 < v) ∧
    (∀ p : TopicProvision, p.name ≠ "" → ':' ∉ p.name.toList → 0 < p.partitions →
      p.partitions < 2 ^ 64 → parse p.render = .ok p) ∧
    (∀ s p, parse s = .ok p → parse p.render = .ok p) ∧
    (∀ p : TopicProvision, ':' ∈ p.name.toList → parse p.render ≠ .ok p) :=
  ⟨fun _ _ => parse_eq_iff, fun _ => exists_parse_eq_ok_iff,
    fun _ hn hc hp hb => parse_render hn hc hp hb, fun _ _ h => parse_render_of_parse h,
    fun _ hc => parse_render_ne_of_colon_mem hc⟩

end TopicProvision

end MessageBroker
