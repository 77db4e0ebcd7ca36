import MessageBroker.Proofs.RequestCodec
import MessageBroker.Proofs.ReplyCodec
/-!
# Truncated input is reported as truncation

Every reader of the wire checks that enough bytes are left before it takes any, and a string or
a blob has its length read and checked against what is left before its bytes are taken, let
alone checked as UTF-8. Two things follow, and this module proves both for every codec.

A proper prefix of anything a writer produced is refused by the matching reader with the error
for a lack of bytes, `UnexpectedEof` "Not enough bytes": it is never read as a value, and never
refused as invalid data, wherever the cut falls (inside a length, inside a string's UTF-8 bytes,
between two fields). The argument is one induction over the fields of a message: the fields
before the cut read back as written, and the field the cut falls in lacks bytes.

On any input at all, a reader stays inside it. What it reads it takes from a prefix of the
input, and it would read the same whatever followed; it fails at a position inside the input;
and it fails only with the errors of its own fields, each of which, a lack of bytes apart, it
would meet whatever followed the input.

Both properties are stated for readers in general (`Decoder.Confined`, `Decoder.Cuts`), shown
for the primitive reads and kept by sequencing, and then read off for each codec.

## Main definitions

* `Decoder.Confined d errs`: `d` reads within its input and fails only with `errs`
* `Decoder.Cuts d bs`: `d` refuses every proper prefix of `bs` for a lack of bytes
* `Written d a e`: a field written as `e` for `a`, whose reader refuses its cuts and reads it back

## Main results

* `Decoder.Confined.bind`, `Decoder.Cuts.bind`: sequencing keeps both properties
* `decodeString_of_lt_length`, `decodeBytes_of_lt_length`: a length beyond the bytes left
  fails for a lack of bytes, whatever the bytes
* `cuts_encodePublish`, `cuts_encodePublishReply`, `cuts_encodeStreamFrame`: every prefix of
  a written message is refused as short
* `truncated_input_is_reported_short`: all of it, for every codec of the wire
-/

namespace MessageBroker.Wire

namespace Decoder

variable {α β : Type}

/-! ## Reads in sequence that fail -/

@[simp] theorem fail_apply (e : WireError) (bs : List UInt8) :
    (Decoder.fail e : Decoder α) bs = .fail e bs := rfl

theorem bind_of_fail {d : Decoder α} {f : α → Decoder β} {bs rest : List UInt8} {e : WireError}
    (h : d bs = .fail e rest) : (d >>= f) bs = .fail e rest := by
  rw [bind_apply, h]

/-- A sequence of reads fails when its first read fails, or when the first read succeeds and
the rest fails after it. -/
theorem bind_eq_fail {d : Decoder α} {f : α → Decoder β} {bs rest : List UInt8} {e : WireError} :
    (d >>= f) bs = .fail e rest ↔
      d bs = .fail e rest ∨ ∃ a mid, d bs = .ok a mid ∧ f a mid = .fail e rest := by
  rw [bind_apply]
  cases d bs with
  | ok a mid => simp
  | fail e' mid => simp

theorem take_of_lt {n : Nat} {bs : List UInt8} (h : bs.length < n) :
    Decoder.take n bs = .fail .short bs := by
  simp [Decoder.take, Nat.not_le.mpr h]

/-! ## Reading within the input -/

/-- **A reader that stays inside its input and fails only with `errs`.** A read that succeeds
took a prefix of the input and reads the same value from that prefix whatever follows it; a
read that fails stops inside the input with one of `errs`; and a failure other than a lack of
bytes is met the same whatever follows the input. So nothing past the end of the input decides
what a read gives, except that there were not enough bytes. -/
structure Confined (d : Decoder α) (errs : List WireError) : Prop where
  ok_used : ∀ {bs a rest}, d bs = .ok a rest →
    ∃ used, bs = used ++ rest ∧ ∀ more, d (used ++ more) = .ok a more
  fail_mem : ∀ {bs e rest}, d bs = .fail e rest → e ∈ errs
  fail_suffix : ∀ {bs e rest}, d bs = .fail e rest → rest <:+ bs
  fail_append : ∀ {bs e rest}, d bs = .fail e rest → e ≠ .short →
    ∀ more, d (bs ++ more) = .fail e (rest ++ more)

variable {errs : List WireError}

theorem confined_pure (a : α) : Confined (pure a : Decoder α) errs where
  ok_used {bs a' rest} h := by
    obtain ⟨rfl, rfl⟩ : a = a' ∧ bs = rest := by simpa using h
    exact ⟨[], rfl, fun _ => rfl⟩
  fail_mem h := by simp at h
  fail_suffix h := by simp at h
  fail_append h := by simp at h

theorem confined_fail {e : WireError} (he : e ∈ errs) : Confined (Decoder.fail e : Decoder α) errs where
  ok_used h := by simp at h
  fail_mem h := by
    obtain ⟨rfl, -⟩ := by simpa using h
    exact he
  fail_suffix h := by
    obtain ⟨-, rfl⟩ := by simpa using h
    exact List.suffix_refl _
  fail_append h _ more := by
    obtain ⟨rfl, rfl⟩ := by simpa using h
    rfl

/-- Taking bytes reads a prefix, and fails only for a lack of bytes, taking none. -/
theorem confined_take (n : Nat) (h : .short ∈ errs) : Confined (Decoder.take n) errs where
  ok_used {bs a rest} hd := by
    obtain ⟨hn, rfl⟩ := take_eq_ok.mp hd
    exact ⟨a, rfl, fun more => take_append hn more⟩
  fail_mem hd := by
    unfold Decoder.take at hd
    split_ifs at hd
    cases hd
    exact h
  fail_suffix hd := by
    unfold Decoder.take at hd
    split_ifs at hd
    cases hd
    exact List.suffix_refl _
  fail_append hd hne := by
    unfold Decoder.take at hd
    split_ifs at hd
    cases hd
    exact absurd rfl hne

/-- **Sequencing keeps a reader inside its input**: what the first read took and what the rest
took after it together form the prefix the whole read took. -/
theorem Confined.bind {d : Decoder α} {f : α → Decoder β} (hd : Confined d errs)
    (hf : ∀ a, Confined (f a) errs) : Confined (d >>= f) errs where
  ok_used h := by
    obtain ⟨a, mid, h₁, h₂⟩ := bind_eq_ok.mp h
    obtain ⟨u₁, rfl, hu₁⟩ := hd.ok_used h₁
    obtain ⟨u₂, rfl, hu₂⟩ := (hf a).ok_used h₂
    refine ⟨u₁ ++ u₂, (List.append_assoc _ _ _).symm, fun more => ?_⟩
    rw [List.append_assoc, bind_of_ok (hu₁ _), hu₂]
  fail_mem h := by
    rcases bind_eq_fail.mp h with h₁ | ⟨a, mid, -, h₂⟩
    · exact hd.fail_mem h₁
    · exact (hf a).fail_mem h₂
  fail_suffix h := by
    rcases bind_eq_fail.mp h with h₁ | ⟨a, mid, h₁, h₂⟩
    · exact hd.fail_suffix h₁
    · -- the rest failed inside what the first read left
      obtain ⟨u₁, rfl, -⟩ := hd.ok_used h₁
      exact ((hf a).fail_suffix h₂).trans (List.suffix_append u₁ mid)
  fail_append h hne more := by
    rcases bind_eq_fail.mp h with h₁ | ⟨a, mid, h₁, h₂⟩
    · exact bind_of_fail (hd.fail_append h₁ hne more)
    · obtain ⟨u₁, rfl, hu₁⟩ := hd.ok_used h₁
      rw [List.append_assoc, bind_of_ok (hu₁ _)]
      exact (hf a).fail_append h₂ hne more

/-! ## Refusing what is cut short -/

/-- **`d` refuses every proper prefix of `bs` for a lack of bytes**: cut `bs` anywhere before
its end, and reading the part before the cut fails with `short`. -/
def Cuts (d : Decoder α) (bs : List UInt8) : Prop :=
  ∀ q s, q ++ s = bs → s ≠ [] → ∃ rest, d q = .fail .short rest

/-- Taking `n` bytes refuses every list shorter than `n`. -/
theorem cuts_take {n : Nat} {bs : List UInt8} (h : bs.length = n) : Cuts (Decoder.take n) bs := by
  rintro q s rfl hs
  have hlt : q.length < n := by
    rw [← h, List.length_append]
    have := List.length_pos_iff.mpr hs
    omega
  exact ⟨q, take_of_lt hlt⟩

/-- A cut inside what the first read takes is a cut of the whole sequence. -/
theorem Cuts.bind_left {d : Decoder α} {bs : List UInt8} (h : Cuts d bs) (f : α → Decoder β) :
    Cuts (d >>= f) bs := by
  intro q s hq hs
  obtain ⟨rest, hd⟩ := h q s hq hs
  exact ⟨rest, bind_of_fail hd⟩

/-- **Sequencing keeps cuts refused.** If the first read refuses every cut of `u` and reads `a`
from `u` whatever follows, and the rest refuses every cut of `v` after `a`, then the sequence
refuses every cut of `u ++ v`: a cut falls inside `u`, or after it and inside `v`. -/
theorem Cuts.bind {d : Decoder α} {f : α → Decoder β} {u v : List UInt8} {a : α}
    (hu : Cuts d u) (hd : ∀ more, d (u ++ more) = .ok a more) (hv : Cuts (f a) v) :
    Cuts (d >>= f) (u ++ v) := by
  intro q s hq hs
  rcases List.append_eq_append_iff.mp hq with ⟨w, hqw, hsw⟩ | ⟨w, hqw, hvw⟩
  · -- the cut falls inside `u`, or exactly at its end
    cases w with
    | nil =>
      have h₀ : d q = .ok a [] := by simpa [hqw] using hd []
      obtain ⟨rest, hf⟩ := hv [] s (by simpa using hsw) hs
      exact ⟨rest, by rw [bind_of_ok h₀, hf]⟩
    | cons b w =>
      obtain ⟨rest, hf⟩ := hu q (b :: w) hqw.symm (List.cons_ne_nil b w)
      exact ⟨rest, bind_of_fail hf⟩
  · -- the cut falls after `u`, inside `v`
    obtain ⟨rest, hf⟩ := hv w s hvw.symm hs
    exact ⟨rest, by rw [hqw, bind_of_ok (hd w), hf]⟩

end Decoder

open Decoder

/-! ## Fixed-width integers -/

section Word

variable {γ : Type} {n : Nat}

theorem cuts_word (f : List UInt8 → Decoder γ) (v : Nat) :
    Cuts (Decoder.take n >>= f) (word n v) :=
  (cuts_take (length_word n v)).bind_left f

theorem confined_word {errs : List WireError} (F : List UInt8 → γ) (h : .short ∈ errs) :
    Confined (Decoder.take n >>= fun t => pure (F t)) errs :=
  (confined_take n h).bind fun _ => confined_pure _

end Word

theorem cuts_decodeI8 (x : Int8) : Cuts decodeI8 (encodeI8 x) := cuts_word _ _
theorem cuts_decodeI16 (x : Int16) : Cuts decodeI16 (encodeI16 x) := cuts_word _ _
theorem cuts_decodeI32 (x : Int32) : Cuts decodeI32 (encodeI32 x) := cuts_word _ _
theorem cuts_decodeI64 (x : Int64) : Cuts decodeI64 (encodeI64 x) := cuts_word _ _

/-- **A field written as `e` for the value `a`**: the reader refuses every cut of `e`, and reads
`a` from `e` whatever follows. -/
structure Written (d : Decoder α) (a : α) (e : List UInt8) : Prop where
  cuts : Cuts d e
  reads : ∀ more, d (e ++ more) = .ok a more

/-- A field followed by what the rest reads refuses every cut of the two. -/
theorem Written.bind {d : Decoder α} {a : α} {u v : List UInt8} (h : Written d a u)
    {f : α → Decoder β} (hv : Cuts (f a) v) : Cuts (d >>= f) (u ++ v) :=
  Cuts.bind h.cuts h.reads hv

theorem written_decodeI8 (x : Int8) : Written decodeI8 x (encodeI8 x) :=
  ⟨cuts_decodeI8 x, fun _ => decodeI8_eq_ok.mpr rfl⟩
theorem written_decodeI16 (x : Int16) : Written decodeI16 x (encodeI16 x) :=
  ⟨cuts_decodeI16 x, fun _ => decodeI16_eq_ok.mpr rfl⟩
theorem written_decodeI32 (x : Int32) : Written decodeI32 x (encodeI32 x) :=
  ⟨cuts_decodeI32 x, fun _ => decodeI32_eq_ok.mpr rfl⟩
theorem written_decodeI64 (x : Int64) : Written decodeI64 x (encodeI64 x) :=
  ⟨cuts_decodeI64 x, fun _ => decodeI64_eq_ok.mpr rfl⟩

/-! ## Strings and blobs -/

/-- A string whose length lies beyond the bytes left fails for a lack of bytes, before any of
its bytes is taken or checked as UTF-8. -/
theorem decodeString_of_lt_length {len : Int16} {rest : List UInt8} (h₀ : 0 ≤ len.toInt)
    (h : rest.length < len.toInt.toNat) :
    decodeString (encodeI16 len ++ rest) = .fail .short rest := by
  rw [decodeString, bind_of_ok (decodeI16_eq_ok.mpr rfl), if_neg (by omega), if_neg (by omega)]
  exact bind_of_fail (take_of_lt h)

/-- A blob whose length lies beyond the bytes left fails for a lack of bytes. -/
theorem decodeBytes_of_lt_length {len : Int32} {rest : List UInt8} (h₀ : 0 ≤ len.toInt)
    (h : rest.length < len.toInt.toNat) :
    decodeBytes (encodeI32 len ++ rest) = .fail .short rest := by
  rw [decodeBytes, bind_of_ok (decodeI32_eq_ok.mpr rfl), if_neg (by omega), if_neg (by omega),
    map_eq_bind]
  exact bind_of_fail (take_of_lt h)

section Fields

variable {errs : List WireError} (hshort : .short ∈ errs)
include hshort

theorem confined_decodeString (hlen : .badStringLength ∈ errs) (hutf : .badUtf8 ∈ errs) :
    Confined decodeString errs := by
  rw [decodeString]
  refine (confined_word _ hshort).bind fun len => ?_
  split_ifs
  · exact confined_pure _
  · exact confined_fail hlen
  · refine (confined_take _ hshort).bind fun bs => ?_
    split
    · exact confined_pure _
    · exact confined_fail hutf

theorem confined_decodeRequiredString {field : String} (hlen : .badStringLength ∈ errs)
    (hutf : .badUtf8 ∈ errs) (hnull : .nullField field ∈ errs) :
    Confined (decodeRequiredString field) errs := by
  rw [decodeRequiredString]
  refine (confined_decodeString hshort hlen hutf).bind fun v => ?_
  cases v with
  | some s => exact confined_pure _
  | none => exact confined_fail hnull

theorem confined_decodeBytes (hlen : .badBytesLength ∈ errs) : Confined decodeBytes errs := by
  rw [decodeBytes]
  refine (confined_word _ hshort).bind fun len => ?_
  split_ifs
  · exact confined_pure _
  · exact confined_fail hlen
  · rw [map_eq_bind]
    exact (confined_take _ hshort).bind fun _ => confined_pure _

end Fields

/-- Every cut of a written string is refused: inside its length, or inside its bytes, which
are then never taken. -/
theorem cuts_decodeString {v : Option String} {e : List UInt8} (he : encodeString v = .ok e) :
    Cuts decodeString e := by
  rw [decodeString]
  cases v with
  | none =>
    cases he
    exact (cuts_decodeI16 _).bind_left _
  | some s =>
    by_cases hle : (Text.Utf8.encode s).length ≤ maxStringBytes
    · rw [encodeString_of_le hle, Except.ok.injEq] at he
      subst he
      have hlen : (Int16.ofNat (Text.Utf8.encode s).length).toInt = (Text.Utf8.encode s).length :=
        Int16.toInt_ofNat_of_lt (by rw [maxStringBytes] at hle; omega)
      refine (written_decodeI16 _).bind ?_
      -- after the length, the bytes are taken only when all of them are there
      rw [hlen, if_neg (by omega), if_neg (by omega), Int.toNat_natCast]
      exact (cuts_take rfl).bind_left _
    · rw [encodeString_of_lt (Nat.lt_of_not_le hle)] at he
      cases he

theorem cuts_decodeRequiredString {field s : String} {e : List UInt8}
    (he : encodeString (some s) = .ok e) : Cuts (decodeRequiredString field) e :=
  (cuts_decodeString he).bind_left _

theorem cuts_decodeBytes {v : Option (List UInt8)} {e : List UInt8} (he : encodeBytes v = .ok e) :
    Cuts decodeBytes e := by
  rw [decodeBytes]
  cases v with
  | none =>
    cases he
    exact (cuts_decodeI32 _).bind_left _
  | some b =>
    by_cases hle : b.length ≤ maxBlobBytes
    · rw [encodeBytes_of_le hle, Except.ok.injEq] at he
      subst he
      have hlen : (Int32.ofNat b.length).toInt = b.length :=
        Int32.toInt_ofNat_of_lt (by rw [maxBlobBytes] at hle; omega)
      refine (written_decodeI32 _).bind ?_
      rw [hlen, if_neg (by omega), if_neg (by omega), Int.toNat_natCast, map_eq_bind]
      exact (cuts_take rfl).bind_left _
    · rw [encodeBytes, if_pos (Nat.lt_of_not_le hle)] at he
      cases he

theorem written_decodeString {v : Option String} {e : List UInt8} (he : encodeString v = .ok e) :
    Written decodeString v e :=
  ⟨cuts_decodeString he, fun _ => decodeString_eq_ok.mpr ⟨e, he, rfl⟩⟩

theorem written_decodeRequiredString {field s : String} {e : List UInt8}
    (he : encodeString (some s) = .ok e) : Written (decodeRequiredString field) s e :=
  ⟨cuts_decodeRequiredString he, fun _ =>
    decodeRequiredString_eq_ok.mpr ((written_decodeString he).reads _)⟩

theorem written_decodeBytes {v : Option (List UInt8)} {e : List UInt8} (he : encodeBytes v = .ok e) :
    Written decodeBytes v e :=
  ⟨cuts_decodeBytes he, fun _ => decodeBytes_eq_ok.mpr ⟨e, he, rfl⟩⟩

/-! ## Requests -/

/-- A header reads the api number, and the correlation id only after it names an api. -/
theorem confined_requestHeader : Confined RequestHeader.decode [.short, .unknownApiKey] := by
  rw [RequestHeader.decode]
  refine (confined_word _ (by simp)).bind fun raw => ?_
  split
  · exact confined_fail (by simp)
  · exact (confined_word _ (by simp)).bind fun _ => confined_pure _

theorem cuts_requestHeader (h : RequestHeader) : Cuts RequestHeader.decode h.encode := by
  rw [RequestHeader.decode, RequestHeader.encode]
  refine (written_decodeI16 _).bind ?_
  rw [ApiKey.ofCode?_code]
  exact (cuts_decodeI32 _).bind_left _

/-- A publish request is written exactly when its topic, key and content are, as those fields
with the time to live and the producer id between and after them. -/
theorem encodePublish_eq_ok {v : PublishRequest} {bs : List UInt8} :
    encodePublish v = .ok bs ↔ ∃ t k b, encodeString (some v.topic) = .ok t ∧
      encodeString v.key = .ok k ∧ encodeBytes (some v.body) = .ok b ∧
      bs = t ++ k ++ encodeI64 v.ttlMs ++ b ++ encodeI64 (v.producerId.getD (-1)) := by
  constructor
  · intro h
    cases ht : encodeString (some v.topic) with
    | error e => simp [encodePublish, ht, bind, Except.bind] at h
    | ok t =>
      cases hk : encodeString v.key with
      | error e => simp [encodePublish, ht, hk, bind, Except.bind] at h
      | ok k =>
        cases hb : encodeBytes (some v.body) with
        | error e => simp [encodePublish, ht, hk, hb, bind, Except.bind] at h
        | ok b =>
          rw [encodePublish_of_ok ht hk hb, Except.ok.injEq] at h
          exact ⟨t, k, b, rfl, rfl, rfl, h.symm⟩
  · rintro ⟨t, k, b, ht, hk, hb, rfl⟩
    exact encodePublish_of_ok ht hk hb

theorem confined_decodePublish :
    Confined decodePublish [.short, .nullField "Topic", .badStringLength, .badUtf8,
      .badBytesLength] := by
  have hs : WireError.short ∈ [.short, .nullField "Topic", .badStringLength, .badUtf8,
      .badBytesLength] := by simp
  rw [decodePublish]
  refine (confined_decodeRequiredString hs (by simp) (by simp) (by simp)).bind fun _ => ?_
  refine (confined_decodeString hs (by simp) (by simp)).bind fun _ => ?_
  refine (confined_word _ hs).bind fun _ => ?_
  refine (confined_decodeBytes hs (by simp)).bind fun _ => ?_
  exact (confined_word _ hs).bind fun _ => confined_pure _

/-- Every cut of a written publish request is refused: the fields before the cut read back,
and the one the cut falls in lacks bytes. -/
theorem cuts_encodePublish {v : PublishRequest} {bs : List UInt8} (h : encodePublish v = .ok bs) :
    Cuts decodePublish bs := by
  obtain ⟨t, k, b, ht, hk, hb, rfl⟩ := encodePublish_eq_ok.mp h
  simp only [List.append_assoc]
  rw [decodePublish]
  refine (written_decodeRequiredString ht).bind ?_
  refine (written_decodeString hk).bind ?_
  refine (written_decodeI64 _).bind ?_
  refine (written_decodeBytes hb).bind ?_
  exact (cuts_decodeI64 _).bind_left _

theorem confined_decodeSubscribe :
    Confined decodeSubscribe [.short, .nullField "Topic", .badStringLength, .badUtf8] :=
  confined_decodeRequiredString (by simp) (by simp) (by simp) (by simp)

theorem cuts_encodeSubscribe {topic : String} {bs : List UInt8}
    (h : encodeSubscribe topic = .ok bs) : Cuts decodeSubscribe bs :=
  cuts_decodeRequiredString h

/-! ## Replies -/

theorem confined_decodePublishReply :
    Confined decodePublishReply [.short, .nullField "Message id", .nullField "Partition",
      .badStringLength, .badUtf8] := by
  have hs : WireError.short ∈ [.short, .nullField "Message id", .nullField "Partition",
      .badStringLength, .badUtf8] := by simp
  rw [decodePublishReply]
  refine (confined_word _ hs).bind fun _ => ?_
  dsimp only
  split_ifs
  · exact confined_pure _
  · refine (confined_decodeRequiredString hs (by simp) (by simp) (by simp)).bind fun _ => ?_
    refine (confined_decodeRequiredString hs (by simp) (by simp) (by simp)).bind fun _ => ?_
    exact (confined_word _ hs).bind fun _ => confined_pure _

/-- An accepted reply is written exactly when its id and partition are. -/
theorem encodePublishReply_accepted_eq_ok {r : PublishResponse} {bs : List UInt8} :
    encodePublishReply (.accepted r) = .ok bs ↔ ∃ i p, encodeString (some r.id) = .ok i ∧
      encodeString (some r.partition) = .ok p ∧
      bs = encodeI16 ErrorCode.none.toInt16 ++ i ++ p ++ encodeI64 (Int64.ofNat r.offset) := by
  constructor
  · intro h
    cases hi : encodeString (some r.id) with
    | error e => simp [encodePublishReply, hi, bind, Except.bind] at h
    | ok i =>
      cases hp : encodeString (some r.partition) with
      | error e => simp [encodePublishReply, hi, hp, bind, Except.bind] at h
      | ok p =>
        rw [encodePublishReply_accepted hi hp, Except.ok.injEq] at h
        exact ⟨i, p, rfl, rfl, h.symm⟩
  · rintro ⟨i, p, hi, hp, rfl⟩
    exact encodePublishReply_accepted hi hp

/-- Every cut of a written publish reply is refused: a rejection is its status alone, and an
accepted reply reads its status, then its fields up to the one the cut falls in. -/
theorem cuts_encodePublishReply {r : PublishReply} {bs : List UInt8}
    (h : encodePublishReply r = .ok bs) : Cuts decodePublishReply bs := by
  rw [decodePublishReply]
  cases r with
  | rejected code =>
    cases h
    exact (cuts_decodeI16 _).bind_left _
  | accepted r =>
    obtain ⟨i, p, hi, hp, rfl⟩ := encodePublishReply_accepted_eq_ok.mp h
    simp only [List.append_assoc]
    refine (written_decodeI16 _).bind ?_
    simp only [ErrorCode.ofInt16_toInt16, ne_eq, not_true_eq_false, if_false]
    refine (written_decodeRequiredString hi).bind ?_
    refine (written_decodeRequiredString hp).bind ?_
    exact (cuts_decodeI64 _).bind_left _

theorem confined_decodeStreamFrame :
    Confined decodeStreamFrame [.short, .unknownFrameKind, .nullField "Partition",
      .badStringLength, .badUtf8, .badBytesLength] := by
  have hs : WireError.short ∈ [.short, .unknownFrameKind, .nullField "Partition",
      .badStringLength, .badUtf8, .badBytesLength] := by simp
  rw [decodeStreamFrame]
  refine (confined_word _ hs).bind fun _ => ?_
  -- one reader per tag; any other tag fails once read
  split_ifs
  · exact (confined_word _ hs).bind fun _ => confined_pure _
  · refine (confined_decodeRequiredString hs (by simp) (by simp) (by simp)).bind fun _ => ?_
    refine (confined_word _ hs).bind fun _ => ?_
    exact (confined_decodeBytes hs (by simp)).bind fun _ => confined_pure _
  · exact (confined_word _ hs).bind fun _ => confined_pure _
  · exact confined_fail (by simp)

/-- A message frame is written exactly when its partition and content are. -/
theorem encodeStreamFrame_message_eq_ok {part : String} {offset : Nat} {body bs : List UInt8} :
    encodeStreamFrame (.message part offset body) = .ok bs ↔ ∃ p b,
      encodeString (some part) = .ok p ∧ encodeBytes (some body) = .ok b ∧
      bs = encodeI8 1 ++ p ++ encodeI64 (Int64.ofNat offset) ++ b := by
  constructor
  · intro h
    cases hp : encodeString (some part) with
    | error e => simp [encodeStreamFrame, hp, bind, Except.bind] at h
    | ok p =>
      cases hb : encodeBytes (some body) with
      | error e => simp [encodeStreamFrame, hp, hb, bind, Except.bind] at h
      | ok b =>
        rw [encodeStreamFrame_message hp hb, Except.ok.injEq] at h
        exact ⟨p, b, rfl, rfl, h.symm⟩
  · rintro ⟨p, b, hp, hb, rfl⟩
    exact encodeStreamFrame_message hp hb

/-- Every cut of a written stream frame is refused: the tag reads back, and the frame's fields
up to the one the cut falls in. -/
theorem cuts_encodeStreamFrame {f : StreamFrame} {bs : List UInt8}
    (h : encodeStreamFrame f = .ok bs) : Cuts decodeStreamFrame bs := by
  rw [decodeStreamFrame]
  cases f with
  | opened id =>
    cases h
    refine (written_decodeI8 _).bind ?_
    rw [if_pos rfl]
    exact (cuts_decodeI64 _).bind_left _
  | message part offset body =>
    obtain ⟨p, b, hp, hb, rfl⟩ := encodeStreamFrame_message_eq_ok.mp h
    simp only [List.append_assoc]
    refine (written_decodeI8 _).bind ?_
    rw [if_neg (by decide), if_pos rfl]
    refine (written_decodeRequiredString hp).bind ?_
    refine (written_decodeI64 _).bind ?_
    exact (cuts_decodeBytes hb).bind_left _
  | ended code =>
    cases h
    refine (written_decodeI8 _).bind ?_
    rw [if_neg (by decide), if_neg (by decide), if_pos rfl]
    exact (cuts_decodeI16 _).bind_left _

/-! ## Every codec -/

/-- **Truncated input is reported as truncation.** For every codec of the wire (request and
response headers, publish and subscribe requests, publish replies and stream frames), every
proper prefix of what the writer produced for a value it accepts is refused by the reader with
the lack of bytes, `UnexpectedEof` "Not enough bytes": never read, never refused as invalid
data. On any input, each reader takes what it reads from a prefix of the input and would read
the same whatever followed, fails inside the input, and fails only with the errors listed for
it, each of which but the lack of bytes it would meet whatever followed the input. A string or
blob length beyond the bytes left is a lack of bytes, whatever those bytes are. -/
theorem truncated_input_is_reported_short :
    WireError.short.toIoError = ⟨.unexpectedEof, "Not enough bytes"⟩ ∧
    (∀ h : RequestHeader, Cuts RequestHeader.decode h.encode) ∧
    (∀ c : Int32, Cuts decodeResponseHeader (encodeResponseHeader c)) ∧
    (∀ v bs, encodePublish v = .ok bs → Cuts decodePublish bs) ∧
    (∀ topic bs, encodeSubscribe topic = .ok bs → Cuts decodeSubscribe bs) ∧
    (∀ r bs, encodePublishReply r = .ok bs → Cuts decodePublishReply bs) ∧
    (∀ f bs, encodeStreamFrame f = .ok bs → Cuts decodeStreamFrame bs) ∧
    Confined RequestHeader.decode [.short, .unknownApiKey] ∧
    Confined decodeResponseHeader [.short] ∧
    Confined decodePublish [.short, .nullField "Topic", .badStringLength, .badUtf8,
      .badBytesLength] ∧
    Confined decodeSubscribe [.short, .nullField "Topic", .badStringLength, .badUtf8] ∧
    Confined decodePublishReply [.short, .nullField "Message id", .nullField "Partition",
      .badStringLength, .badUtf8] ∧
    Confined decodeStreamFrame [.short, .unknownFrameKind, .nullField "Partition",
      .badStringLength, .badUtf8, .badBytesLength] ∧
    (∀ (len : Int16) rest, 0 ≤ len.toInt → rest.length < len.toInt.toNat →
      decodeString (encodeI16 len ++ rest) = .fail .short rest) ∧
    (∀ (len : Int32) rest, 0 ≤ len.toInt → rest.length < len.toInt.toNat →
      decodeBytes (encodeI32 len ++ rest) = .fail .short rest) :=
  ⟨rfl, cuts_requestHeader, cuts_decodeI32, fun _ _ => cuts_encodePublish,
    fun _ _ => cuts_encodeSubscribe, fun _ _ => cuts_encodePublishReply,
    fun _ _ => cuts_encodeStreamFrame, confined_requestHeader, confined_word _ (by simp),
    confined_decodePublish, confined_decodeSubscribe, confined_decodePublishReply,
    confined_decodeStreamFrame, fun _ _ => decodeString_of_lt_length,
    fun _ _ => decodeBytes_of_lt_length⟩

/-- A subscribe request for the topic "é", cut inside the two UTF-8 bytes of its name, is
refused for a lack of bytes, not as invalid UTF-8. -/
theorem subscribe_cut_inside_character_is_short :
    encodeSubscribe "é" = .ok [0, 2, 0xC3, 0xA9] ∧
      ∃ rest, decodeSubscribe [0, 2, 0xC3] = .fail .short rest :=
  ⟨by decide, truncated_input_is_reported_short.2.2.2.2.1 "é" _ (by decide) [0, 2, 0xC3] [0xA9]
    rfl (by simp)⟩

end MessageBroker.Wire
