import MessageBroker.MessageId
import MessageBroker.Text.Decimal
import MessageBroker.Proofs.Publish
/-!
# The written form of message ids

A message id is written `topic/partition@offset`. Reading it cuts at the last `@` and then at
the first `/`, so a partition key may hold both separators and a topic name may hold `@`; only
the slash is kept out of topic names. The offset is a 64-bit unsigned decimal literal: an
optional `+`, then one or more ASCII digits, below `2 ^ 64`.

This module states that grammar without reference to the reader (`MessageId.Layout`,
`Text.U64Literal`) and shows that the reader accepts exactly it, with the errors it gives
otherwise; that every id reads back from its written form; and that reading and writing again
gives the text back exactly when its offset is written canonically.

## Main definitions

* `Text.U64Literal`: the decimal literals of 64-bit unsigned values, with their values
* `Text.Canonical`: a decimal with no sign and no leading zero
* `MessageId.Layout`: a text cut into topic, partition and offset at the first `/` and the
  last `@`

## Main results

* `Text.splitFirstChars_eq_some_iff`, `Text.splitLastChars_eq_some_iff`: what cutting finds
* `Text.readU64_eq_ok_iff`: the reader of 64-bit unsigned decimals accepts exactly the literals
* `Text.toDigits_eq_iff_canonical`: a literal is the decimal written for its value exactly when
  it is canonical
* `MessageId.parse_eq_ok_iff`, `MessageId.parse_eq_malformed_iff`: what reading accepts and
  where it reports a malformed id
* `MessageId.parse_matches_grammar_and_round_trips`: all of it, with the round trips
-/

namespace MessageBroker

namespace Text

/-! ## Cutting at a separator -/

section Cut

variable {sep : Char} {l a b : List Char}

theorem splitFirstChars_eq_none : splitFirstChars sep l = none ↔ sep ∉ l := by
  induction l with
  | nil => simp [splitFirstChars]
  | cons c cs ih =>
    by_cases hc : c = sep
    · simp [splitFirstChars, hc]
    · simp [splitFirstChars, hc, ih, Ne.symm hc]

theorem splitFirstChars_append (ha : sep ∉ a) :
    splitFirstChars sep (a ++ sep :: b) = some (a, b) := by
  induction a with
  | nil => simp [splitFirstChars]
  | cons c cs ih =>
    have hc : c ≠ sep := fun h => ha (h ▸ List.mem_cons_self)
    simp [splitFirstChars, hc, ih (fun h => ha (List.mem_cons_of_mem c h))]

/-- Cutting at the first separator finds the one before which there is none. -/
theorem splitFirstChars_eq_some_iff :
    splitFirstChars sep l = some (a, b) ↔ l = a ++ sep :: b ∧ sep ∉ a :=
  ⟨splitFirstChars_eq_some, fun ⟨hl, ha⟩ => hl ▸ splitFirstChars_append ha⟩

theorem splitLastChars_eq_none : splitLastChars sep l = none ↔ sep ∉ l := by
  induction l with
  | nil => simp [splitLastChars]
  | cons c cs ih =>
    cases h : splitLastChars sep cs with
    | none =>
      have hcs : sep ∉ cs := ih.mp h
      by_cases hc : c = sep
      · simp [splitLastChars, h, hc]
      · simp [splitLastChars, h, hc, Ne.symm hc, hcs]
    | some p =>
      have hcs : sep ∈ cs := by simpa [h] using ih
      simp [splitLastChars, h, hcs]

theorem splitLastChars_append (hb : sep ∉ b) :
    splitLastChars sep (a ++ sep :: b) = some (a, b) := by
  induction a with
  | nil => simp [splitLastChars, splitLastChars_eq_none.mpr hb]
  | cons c cs ih => simp [splitLastChars, ih]

theorem splitLastChars_eq_some (h : splitLastChars sep l = some (a, b)) :
    l = a ++ sep :: b ∧ sep ∉ b := by
  induction l generalizing a b with
  | nil => simp [splitLastChars] at h
  | cons c cs ih =>
    cases hcs : splitLastChars sep cs with
    | some p =>
      simp only [splitLastChars, hcs, Option.some.injEq, Prod.mk.injEq] at h
      obtain ⟨rfl, rfl⟩ := h
      obtain ⟨rfl, hb⟩ := ih hcs
      exact ⟨rfl, hb⟩
    | none =>
      by_cases hc : c = sep
      · simp only [splitLastChars, hcs, hc, if_true, Option.some.injEq, Prod.mk.injEq] at h
        obtain ⟨rfl, rfl⟩ := h
        exact ⟨by simp [hc], splitLastChars_eq_none.mp hcs⟩
      · simp [splitLastChars, hcs, hc] at h

/-- Cutting at the last separator finds the one after which there is none. -/
theorem splitLastChars_eq_some_iff :
    splitLastChars sep l = some (a, b) ↔ l = a ++ sep :: b ∧ sep ∉ b :=
  ⟨splitLastChars_eq_some, fun ⟨hl, hb⟩ => hl ▸ splitLastChars_append hb⟩

end Cut

/-! ## Decimal literals of 64-bit unsigned values -/

/-- **The decimal literals of 64-bit unsigned values**: an optional `+`, then one or more ASCII
digits, whose value `v` lies below `2 ^ 64`. -/
def U64Literal (t : List Char) (v : Nat) : Prop :=
  ∃ ds, (t = ds ∨ t = '+' :: ds) ∧ ds ≠ [] ∧ (∀ c ∈ ds, c.isDigit) ∧
    Nat.ofDigitChars 10 ds 0 = v ∧ v < 2 ^ 64

/-- **A decimal in canonical form**: no sign, and no leading zero unless it is `0` itself. -/
def Canonical (t : List Char) : Prop :=
  t.head? ≠ some '+' ∧ (t = ['0'] ∨ t.head? ≠ some '0')

/-- A character has a digit value exactly when it is an ASCII digit. -/
theorem digitValue?_eq (c : Char) :
    digitValue? c = if c.isDigit then some (c.toNat - 48) else none := by
  have h : ('0' ≤ c ∧ c ≤ '9') ↔ c.isDigit := by
    rw [Char.isDigit_iff_toNat]
    simp [Char.le_def, UInt32.le_iff_toNat_le, Char.toNat_val]
  simp only [digitValue?, h]
  rfl

theorem digitValue?_eq_some {c : Char} {d : Nat} :
    digitValue? c = some d ↔ c.isDigit ∧ d = c.toNat - 48 := by
  rw [digitValue?_eq]
  by_cases h : c.isDigit
  · simp only [h, if_true, Option.some.injEq, true_and]
    exact eq_comm
  · simp [h]

theorem digitValue?_eq_none {c : Char} : digitValue? c = none ↔ ¬ c.isDigit := by
  rw [digitValue?_eq]
  split <;> simp_all

/-- Reading one more digit, with its value as the distance from `0`. -/
theorem ofDigitChars_cons_digit (c : Char) (cs : List Char) (n : Nat) :
    Nat.ofDigitChars 10 (c :: cs) n = Nat.ofDigitChars 10 cs (10 * n + (c.toNat - 48)) :=
  Nat.ofDigitChars_cons

/-- More digits never make a smaller value. -/
theorem le_ofDigitChars (l : List Char) (init : Nat) : init ≤ Nat.ofDigitChars 10 l init := by
  rw [Nat.ofDigitChars_eq_ofDigitChars_zero]
  have : 1 ≤ 10 ^ l.length := Nat.one_le_pow _ _ (by decide)
  calc init ≤ 10 ^ l.length * init := Nat.le_mul_of_pos_left init this
    _ ≤ _ := Nat.le_add_right _ _

/-- **Reading unsigned digits into `[0, hi]`.** From a value in range, the digits are read when
they are all ASCII digits and their value stays in range; since a value only grows with more
digits, checking each prefix is checking the whole. -/
theorem readDigits_eq_ok {hi v : Int} {ds : List Char} {n : Nat} (hn : (n : Int) ≤ hi) :
    readDigits 0 hi 1 ds n = .ok v ↔
      (∀ c ∈ ds, c.isDigit) ∧ v = Nat.ofDigitChars 10 ds n ∧
        (Nat.ofDigitChars 10 ds n : Int) ≤ hi := by
  induction ds generalizing n with
  | nil =>
    simp only [readDigits, Except.ok.injEq, List.not_mem_nil, false_implies, implies_true,
      Nat.ofDigitChars_nil, true_and]
    exact ⟨fun h => ⟨h.symm, hn⟩, fun h => h.1.symm⟩
  | cons c cs ih =>
    cases hd : digitValue? c with
    | none =>
      have hc : ¬ c.isDigit := digitValue?_eq_none.mp hd
      simp [readDigits, hd, hc]
    | some d =>
      obtain ⟨hc, rfl⟩ := digitValue?_eq_some.mp hd
      -- the next prefix value, as an integer and as a natural number
      have hacc : (n : Int) * 10 + 1 * ((c.toNat - 48 : Nat) : Int) =
          ((10 * n + (c.toNat - 48) : Nat) : Int) := by
        omega
      simp only [readDigits, hd, hacc, ofDigitChars_cons_digit, List.mem_cons, forall_eq_or_imp,
        hc, true_and]
      -- a prefix past `hi` fails at once, since more digits only make the value larger
      by_cases hhi : hi < ((10 * n + (c.toNat - 48) : Nat) : Int)
      · have hle := le_ofDigitChars cs (10 * n + (c.toNat - 48))
        simp only [hhi, if_true, reduceCtorEq, false_iff, not_and, Int.not_le]
        intro _ _
        omega
      · rw [if_neg hhi, if_neg (by omega)]
        exact ih (by omega)

/-- The digits of a 64-bit unsigned decimal, read into its range, as a natural number. -/
theorem map_readDigits_u64 {ds : List Char} {v : Nat} :
    (readDigits 0 u64Max 1 ds 0).map Int.toNat = .ok v ↔
      (∀ c ∈ ds, c.isDigit) ∧ Nat.ofDigitChars 10 ds 0 = v ∧ v < 2 ^ 64 := by
  have hread : ∀ w : Int, readDigits 0 u64Max 1 ds 0 = .ok w ↔ (∀ c ∈ ds, c.isDigit) ∧
      w = Nat.ofDigitChars 10 ds 0 ∧ (Nat.ofDigitChars 10 ds 0 : Int) ≤ u64Max :=
    fun w => readDigits_eq_ok (n := 0) (by decide)
  cases h : readDigits 0 u64Max 1 ds 0 with
  | error e =>
    simp only [Except.map, reduceCtorEq, false_iff]
    rintro ⟨hd, rfl, hv⟩
    have := (hread (Nat.ofDigitChars 10 ds 0)).mpr ⟨hd, rfl, by simp only [u64Max]; omega⟩
    rw [h] at this
    cases this
  | ok w =>
    obtain ⟨hd, rfl, hle⟩ := (hread w).mp h
    simp only [Except.map, Except.ok.injEq, Int.toNat_natCast, u64Max] at hle ⊢
    constructor
    · rintro rfl
      exact ⟨hd, rfl, by omega⟩
    · exact fun h => h.2.1

theorem not_u64Literal_nil {v : Nat} : ¬ U64Literal [] v := by
  rintro ⟨ds, h | h, hne, -⟩
  · exact hne h.symm
  · cases h

theorem u64Literal_plus {l : List Char} {v : Nat} :
    U64Literal ('+' :: l) v ↔
      l ≠ [] ∧ (∀ c ∈ l, c.isDigit) ∧ Nat.ofDigitChars 10 l 0 = v ∧ v < 2 ^ 64 := by
  constructor
  · rintro ⟨ds, h | h, hne, hd, hv⟩
    · -- a sign is not a digit
      exact absurd (hd '+' (h ▸ List.mem_cons_self)) (by decide)
    · cases h
      exact ⟨hne, hd, hv⟩
  · rintro ⟨hne, hd, hv⟩
    exact ⟨l, .inr rfl, hne, hd, hv⟩

theorem u64Literal_of_ne_plus {c : Char} {l : List Char} {v : Nat} (hc : c ≠ '+') :
    U64Literal (c :: l) v ↔
      (∀ x ∈ c :: l, x.isDigit) ∧ Nat.ofDigitChars 10 (c :: l) 0 = v ∧ v < 2 ^ 64 := by
  constructor
  · rintro ⟨ds, h | h, -, hd, hv⟩
    · subst h
      exact ⟨hd, hv⟩
    · cases h
      exact absurd rfl hc
  · rintro ⟨hd, hv⟩
    exact ⟨c :: l, .inl rfl, List.cons_ne_nil c l, hd, hv⟩

/-- **The reader of 64-bit unsigned decimals accepts exactly the literals**, and reads each as
its value. -/
theorem readU64_eq_ok_iff {s : String} {v : Nat} : readU64 s = .ok v ↔ U64Literal s.toList v := by
  unfold readU64 readInt
  generalize s.toList = l
  split
  · simp [Except.map, not_u64Literal_nil]
  · simp [Except.map, u64Literal_plus]
  · rw [u64Literal_of_ne_plus (by decide)]
    simp [Except.map, show ¬ Char.isDigit '-' by decide]
  · next ds hds =>
    rw [map_readDigits_u64, u64Literal_plus]
    exact ⟨fun h => ⟨fun hn => hds (hn ▸ rfl), h⟩, fun h => h.2⟩
  · next ds =>
    rw [if_neg (by decide), map_readDigits_u64, u64Literal_of_ne_plus (by decide)]
  · next l h₁ h₂ h₃ h₄ h₅ =>
    obtain ⟨c, cs, rfl⟩ := List.exists_cons_of_ne_nil h₁
    have hc : c ≠ '+' := by
      rintro rfl
      exact h₄ cs rfl
    rw [map_readDigits_u64, u64Literal_of_ne_plus hc]

/-! ## Canonical decimals -/

/-- A digit is written back as itself. -/
theorem digitChar_of_isDigit {c : Char} (h : c.isDigit) : Nat.digitChar (c.toNat - 48) = c := by
  rw [Char.isDigit_iff_toNat] at h
  apply Char.toNat_inj.mp
  rw [Nat.toNat_digitChar_of_lt_ten (by simp at h; omega)]
  simp at h
  omega

/-- Reading digits after a positive value writes them after its decimal. -/
theorem toDigits_append_of_pos {cs : List Char} (hd : ∀ c ∈ cs, c.isDigit) {acc : Nat}
    (ha : 0 < acc) : Nat.toDigits 10 acc ++ cs = Nat.toDigits 10 (Nat.ofDigitChars 10 cs acc) := by
  induction cs generalizing acc with
  | nil => simp
  | cons c cs ih =>
    have hc := hd c List.mem_cons_self
    have hlt : c.toNat - 48 < 10 := by
      rw [Char.isDigit_iff_toNat] at hc
      simp at hc
      omega
    rw [ofDigitChars_cons_digit, ← ih (fun x hx => hd x (List.mem_cons_of_mem c hx)) (by omega),
      ← Nat.toDigits_append_toDigits (by decide) ha hlt, Nat.toDigits_of_lt_base hlt,
      digitChar_of_isDigit hc]
    simp

/-- The decimal of a positive number does not start with `0`. -/
theorem head?_toDigits_ne_zero {n : Nat} (h : 0 < n) : (Nat.toDigits 10 n).head? ≠ some '0' := by
  induction n using Nat.base_induction 10 (by decide) with
  | single m hm =>
    rw [Nat.toDigits_of_lt_base hm]
    simp
    omega
  | digit m k hk hm ih =>
    rw [← Nat.toDigits_append_toDigits (by decide) hm hk,
      List.head?_append_of_ne_nil _ Nat.toDigits_ne_nil]
    exact ih hm

/-- Digits that do not start with `0` are the decimal of their value. -/
theorem toDigits_ofDigitChars {c : Char} {cs : List Char} (hd : ∀ x ∈ c :: cs, x.isDigit)
    (h0 : c ≠ '0') : Nat.toDigits 10 (Nat.ofDigitChars 10 (c :: cs) 0) = c :: cs := by
  have hc := hd c List.mem_cons_self
  have hpos : 0 < c.toNat - 48 := by
    have : c.toNat ≠ 48 := fun h => h0 (Char.toNat_inj.mp h)
    rw [Char.isDigit_iff_toNat] at hc
    simp at hc
    omega
  have hlt : c.toNat - 48 < 10 := by
    rw [Char.isDigit_iff_toNat] at hc
    simp at hc
    omega
  rw [ofDigitChars_cons_digit, Nat.mul_zero, Nat.zero_add,
    ← toDigits_append_of_pos (fun x hx => hd x (List.mem_cons_of_mem c hx)) hpos,
    Nat.toDigits_of_lt_base hlt, digitChar_of_isDigit hc]
  rfl

/-- **A literal is the decimal of its value exactly when it is canonical.** -/
theorem toDigits_eq_iff_canonical {t : List Char} {v : Nat} (h : U64Literal t v) :
    Nat.toDigits 10 v = t ↔ Canonical t := by
  obtain ⟨ds, rfl | rfl, hne, hd, rfl, -⟩ := h
  · obtain ⟨c, cs, rfl⟩ := List.exists_cons_of_ne_nil hne
    have hplus : c ≠ '+' := fun h => absurd (h ▸ hd c List.mem_cons_self) (by decide)
    simp only [Canonical, List.head?_cons, ne_eq, Option.some.injEq, hplus, not_false_eq_true,
      true_and]
    constructor
    · intro h
      by_cases hv : Nat.ofDigitChars 10 (c :: cs) 0 = 0
      · rw [hv, Nat.toDigits_zero] at h
        exact .inl h.symm
      · have := head?_toDigits_ne_zero (Nat.pos_of_ne_zero hv)
        rw [h] at this
        exact .inr (by simpa using this)
    · rintro (h | h)
      · rw [h]
        rfl
      · exact toDigits_ofDigitChars hd h
  · -- a decimal is all digits, and a literal with a sign is not canonical
    have : '+' ∉ Nat.toDigits 10 (Nat.ofDigitChars 10 ds 0) := fun h =>
      absurd (Nat.isDigit_of_mem_toDigits (by decide) (by decide) h) (by decide)
    simp only [Canonical, List.head?_cons, ne_eq, not_true_eq_false, false_and, iff_false]
    intro h
    exact this (h ▸ List.mem_cons_self)

/-! ## Cutting texts -/

section CutText

variable {sep : Char} {s a b : String}

theorem splitFirst?_eq_some (h : splitFirst? sep s = some (a, b)) :
    s.toList = a.toList ++ sep :: b.toList ∧ sep ∉ a.toList := by
  obtain ⟨⟨x, y⟩, hxy, he⟩ := Option.map_eq_some_iff.mp h
  simp only [Prod.mk.injEq] at he
  obtain ⟨rfl, rfl⟩ := he
  simpa using splitFirstChars_eq_some hxy

theorem splitLast?_eq_some (h : splitLast? sep s = some (a, b)) :
    s.toList = a.toList ++ sep :: b.toList ∧ sep ∉ b.toList := by
  obtain ⟨⟨x, y⟩, hxy, he⟩ := Option.map_eq_some_iff.mp h
  simp only [Prod.mk.injEq] at he
  obtain ⟨rfl, rfl⟩ := he
  simpa using splitLastChars_eq_some hxy

end CutText

end Text

/-! ## Topic names -/

namespace TopicName

/-- A topic name holds no slash. -/
theorem slash_not_mem (t : TopicName) : '/' ∉ t.val.toList := by
  have h := t.valid
  unfold nameProblem? at h
  split_ifs at h with h₁ h₂ h₃ h₄
  simpa using h₄

/-- Checking the text of a name gives the name back. -/
theorem parse_val (t : TopicName) : parse t.val = .ok t := by
  rw [parse, check_val]
  rfl

/-- A name that checks is the text checked. -/
theorem val_of_parse {s : String} {t : TopicName} (h : parse s = .ok t) : t.val = s := by
  cases hp : nameProblem? s with
  | none =>
    rw [parse_of_valid hp] at h
    cases h
    rfl
  | some p =>
    rw [parse_of_problem hp] at h
    cases h

/-- No broken rule is worded as a malformed message id. -/
theorem message_ne_malformed (p : NameProblem) (s : String) :
    p.message ≠ "Malformed message id '" ++ s ++ "'" := by
  intro h
  -- the wordings start with `T`, a malformed id with `M`
  have := congrArg (fun x => x.toList.head?) h
  cases p <;> simp [NameProblem.message] at this

end TopicName

namespace MessageId

open Text

/-! ## The layout of an id -/

/-- **The layout of a message id**: the text is a topic part, `/`, a partition part, `@` and an
offset part, where the `/` is the first one and the `@` the last one. -/
def Layout (s : String) (topic partition offset : List Char) : Prop :=
  s.toList = topic ++ '/' :: partition ++ '@' :: offset ∧ '/' ∉ topic ∧ '@' ∉ offset

/-- The malformed-id failure of a text. -/
def malformed (s : String) : BrokerError :=
  .invalidArgument ("Malformed message id '" ++ s ++ "'")

variable {s : String} {T P D : List Char} {v : Nat}

/-- A text has at most one layout: the cuts are where the reader makes them. -/
theorem Layout.unique {T' P' D' : List Char} (h : Layout s T P D) (h' : Layout s T' P' D') :
    T = T' ∧ P = P' ∧ D = D' := by
  have hlast : some (T ++ '/' :: P, D) = some (T' ++ '/' :: P', D') := by
    rw [← splitLastChars_append h.2.2, ← splitLastChars_append h'.2.2, ← h.1, ← h'.1]
  simp only [Option.some.injEq, Prod.mk.injEq] at hlast
  obtain ⟨hL, rfl⟩ := hlast
  have hfirst : some (T, P) = some (T', P') := by
    rw [← splitFirstChars_append h.2.1, ← splitFirstChars_append h'.2.1, hL]
  simp only [Option.some.injEq, Prod.mk.injEq] at hfirst
  exact ⟨hfirst.1, hfirst.2, rfl⟩

/-- **Reading a text with a layout and an offset literal**: only the topic name is left to
check. -/
theorem parse_of_layout (hl : Layout s T P D) (hv : U64Literal D v) :
    parse s = (do
      let t ← TopicName.parse (String.ofList T)
      pure ⟨t, String.ofList P, v⟩) := by
  have h₁ : splitLast? '@' s = some (String.ofList (T ++ '/' :: P), String.ofList D) := by
    rw [splitLast?, hl.1, splitLastChars_append hl.2.2]
    rfl
  have h₂ : splitFirst? '/' (String.ofList (T ++ '/' :: P)) =
      some (String.ofList T, String.ofList P) := by
    rw [splitFirst?, String.toList_ofList, splitFirstChars_append hl.2.1]
    rfl
  have h₃ : readU64 (String.ofList D) = .ok v := readU64_eq_ok_iff.mpr (by simpa using hv)
  simp only [parse, h₁, h₂, h₃]

/-- **A text without a layout and an offset literal is a malformed id.** -/
theorem parse_of_not_layout (h : ¬ ∃ T P D v, Layout s T P D ∧ U64Literal D v) :
    parse s = .error (malformed s) := by
  cases h₁ : splitLast? '@' s with
  | none => simp only [parse, malformed, h₁]
  | some LD =>
    obtain ⟨L, D⟩ := LD
    obtain ⟨hs, hD⟩ := splitLast?_eq_some h₁
    cases h₂ : splitFirst? '/' L with
    | none => simp only [parse, malformed, h₁, h₂]
    | some TP =>
      obtain ⟨T, P⟩ := TP
      obtain ⟨hL, hT⟩ := splitFirst?_eq_some h₂
      cases h₃ : readU64 D with
      | error => simp only [parse, malformed, h₁, h₂, h₃]
      | ok v =>
        refine absurd ⟨T.toList, P.toList, D.toList, v, ⟨?_, hT, hD⟩, readU64_eq_ok_iff.mp h₃⟩ h
        rw [hs, hL]

/-- **What reading accepts**: a text with a layout whose offset part is a literal and whose
topic part is a topic name, read as that name, the partition part and the literal's value. -/
theorem parse_eq_ok_iff {m : MessageId} :
    parse s = .ok m ↔ ∃ T P D, Layout s T P D ∧ U64Literal D m.offset ∧
      TopicName.parse (String.ofList T) = .ok m.topic ∧ m.partition = String.ofList P := by
  constructor
  · intro h
    by_cases hl : ∃ T P D v, Layout s T P D ∧ U64Literal D v
    · obtain ⟨T, P, D, v, hl, hv⟩ := hl
      rw [parse_of_layout hl hv] at h
      cases ht : TopicName.parse (String.ofList T) with
      | error e =>
        rw [ht] at h
        cases h
      | ok t =>
        rw [ht] at h
        cases h
        exact ⟨T, P, D, hl, hv, ht, rfl⟩
    · rw [parse_of_not_layout hl] at h
      cases h
  · rintro ⟨T, P, D, hl, hv, ht, hp⟩
    rw [parse_of_layout hl hv, ht, ← hp]
    rfl

/-- **Where reading reports a malformed id**: exactly where there is no layout with an offset
literal; a bad topic name is reported with its own wording. -/
theorem parse_eq_malformed_iff :
    parse s = .error (malformed s) ↔ ¬ ∃ T P D v, Layout s T P D ∧ U64Literal D v := by
  refine ⟨?_, parse_of_not_layout⟩
  rintro h ⟨T, P, D, v, hl, hv⟩
  rw [parse_of_layout hl hv] at h
  cases hp : nameProblem? (String.ofList T) with
  | none =>
    rw [TopicName.parse_of_valid hp] at h
    cases h
  | some p =>
    rw [TopicName.parse_of_problem hp] at h
    simp only [bind, Except.bind, Except.error.injEq, BrokerError.invalidArgument.injEq,
      malformed] at h
    exact TopicName.message_ne_malformed p s h

/-- A text with a layout and an offset literal but a bad topic name fails with the rule the
name breaks. -/
theorem parse_of_problem {p : NameProblem} (hl : Layout s T P D) (hv : U64Literal D v)
    (hp : nameProblem? (String.ofList T) = some p) :
    parse s = .error (.invalidArgument p.message) := by
  rw [parse_of_layout hl hv, TopicName.parse_of_problem hp]
  rfl

/-! ## Writing and reading back -/

theorem toList_render (m : MessageId) :
    (render m).toList = m.topic.val.toList ++ '/' :: m.partition.toList ++ '@' ::
      Nat.toDigits 10 m.offset := by
  simp [render, TopicPartition.render]

/-- The written form of an id has the layout of its parts. -/
theorem layout_render (m : MessageId) :
    Layout (render m) m.topic.val.toList m.partition.toList (Nat.toDigits 10 m.offset) := by
  refine ⟨toList_render m, m.topic.slash_not_mem, fun h => ?_⟩
  -- an offset is written in digits only
  exact absurd (Nat.isDigit_of_mem_toDigits (by decide) (by decide) h) (by decide)

/-- The decimal of a 64-bit value is one of its literals. -/
theorem u64Literal_toDigits {o : Nat} (ho : o < 2 ^ 64) : U64Literal (Nat.toDigits 10 o) o :=
  ⟨_, .inl rfl, Nat.toDigits_ne_nil,
    fun _ h => Nat.isDigit_of_mem_toDigits (by decide) (by decide) h,
    Nat.ofDigitChars_ten_toDigits, ho⟩

/-- **Every id with a 64-bit offset reads back from its written form.** -/
theorem parse_render {m : MessageId} (ho : m.offset < 2 ^ 64) : parse (render m) = .ok m :=
  parse_eq_ok_iff.mpr ⟨_, _, _, layout_render m, u64Literal_toDigits ho,
    by simpa using TopicName.parse_val m.topic, by simp⟩

/-- **Reading and writing again gives the text back exactly when its offset is canonical.** -/
theorem render_parse_eq_iff {m : MessageId} (h : parse s = .ok m) (hl : Layout s T P D) :
    render m = s ↔ Canonical D := by
  obtain ⟨T', P', D', hl', hv, ht, hp⟩ := parse_eq_ok_iff.mp h
  obtain ⟨rfl, rfl, rfl⟩ := hl.unique hl'
  have htopic : m.topic.val.toList = T := by rw [TopicName.val_of_parse ht, String.toList_ofList]
  have hpart : m.partition.toList = P := by rw [hp, String.toList_ofList]
  rw [← toDigits_eq_iff_canonical hv, ← String.toList_inj, toList_render, hl.1, htopic, hpart]
  simp

/-- **The written form of message ids.** Reading a text succeeds exactly when it has a layout (an
`@`, and a `/` before the last one) whose offset part is a 64-bit unsigned literal and whose
topic part, up to the first `/`, is a topic name; it then reads that name, the rest up to the
last `@`, and the literal's value. Without such a layout and literal it reports the text as a
malformed id; a bad topic name is reported by the rule it breaks. Every id with a 64-bit offset
reads back from its written form, whatever its partition key holds, and writing what was read
gives the text back exactly when its offset is canonical. -/
theorem parse_matches_grammar_and_round_trips :
    (∀ s m, parse s = .ok m ↔ ∃ T P D, Layout s T P D ∧ U64Literal D m.offset ∧
        TopicName.parse (String.ofList T) = .ok m.topic ∧ m.partition = String.ofList P) ∧
    (∀ s, parse s = .error (.invalidArgument ("Malformed message id '" ++ s ++ "'")) ↔
        ¬ ∃ T P D v, Layout s T P D ∧ U64Literal D v) ∧
    (∀ s T P D v p, Layout s T P D → U64Literal D v → nameProblem? (String.ofList T) = some p →
        parse s = .error (.invalidArgument p.message)) ∧
    (∀ (t : TopicName) (k : String) (o : Nat), o < 2 ^ 64 →
        parse (render ⟨t, k, o⟩) = .ok ⟨t, k, o⟩) ∧
    (∀ s m T P D, parse s = .ok m → Layout s T P D → (render m = s ↔ Canonical D)) :=
  ⟨fun _ _ => parse_eq_ok_iff, fun _ => parse_eq_malformed_iff,
    fun _ _ _ _ _ _ hl hv hp => parse_of_problem hl hv hp, fun _ _ _ ho => parse_render ho,
    fun _ _ _ _ _ h hl => render_parse_eq_iff h hl⟩

/-- The id of offset `42` of the partition `eu@west` of `orders` reads back from its written
form `orders/eu@west@42`. -/
theorem parse_render_orders_eu_west :
    (42 : Nat) < 2 ^ 64 ∧ parse (render ⟨⟨"orders", by decide⟩, "eu@west", 42⟩) =
      .ok ⟨⟨"orders", by decide⟩, "eu@west", 42⟩ :=
  ⟨by decide, parse_matches_grammar_and_round_trips.2.2.2.1 _ _ _ (by decide)⟩

end MessageId

end MessageBroker
