import Mathlib
import MessageBroker.Proofs.Utf8
import MessageBroker.Wire.Field

/-!
# Fields on the wire are read exactly as written

Integers, strings and blobs each have one written form, and the readers accept exactly those
forms: a read from the front of a byte list succeeds with `v` and leaves `rest` if and only if
the list is the bytes written for `v` followed by `rest` (`decodeI16_eq_ok`, `decodeString_eq_ok`,
`decodeBytes_eq_ok`). Messages are sequences of fields, so their codecs are built on these.

## Main definitions

* `ReadsBack enc dec v w`: `enc` writes `v`, and `dec` reads `w` from it, whatever follows
* `RoundTrip enc dec v`: `dec` reads back `v` itself
* `Stable enc dec`: every value `dec` reads round-trips

## Main results

* `ofWord_word`: reading back the digits of a number gives it modulo the width
* `readWord_eq_ok`: the fixed-width integers, one statement for the four widths
* `decodeString_eq_ok`: strings, null as `-1`, with the UTF-8 round trip underneath
* `decodeBytes_eq_ok`: blobs
* `Exact.roundTrip`, `Exact.stable`: an exact reader round-trips and is stable
-/

namespace MessageBroker.Wire

/-! ## Reading in sequence -/

namespace Decoder

variable {α β : Type}

@[simp] theorem pure_apply (a : α) (bs : List UInt8) : (pure a : Decoder α) bs = .ok a bs := rfl

theorem bind_apply (d : Decoder α) (f : α → Decoder β) (bs : List UInt8) :
    (d >>= f) bs = match d bs with
      | .ok a rest => f a rest
      | .fail e rest => .fail e rest := rfl

theorem bind_of_ok {d : Decoder α} {f : α → Decoder β} {bs rest : List UInt8} {a : α}
    (h : d bs = .ok a rest) : (d >>= f) bs = f a rest := by
  rw [bind_apply, h]

/-- A sequence of reads succeeds when its first read does and the rest succeeds after it. -/
theorem bind_eq_ok {d : Decoder α} {f : α → Decoder β} {bs rest : List UInt8} {b : β} :
    (d >>= f) bs = .ok b rest ↔ ∃ a mid, d bs = .ok a mid ∧ f a mid = .ok b rest := by
  rw [bind_apply]
  cases d bs with
  | ok a mid => simp
  | fail e mid => simp

@[simp] theorem fail_ne_ok {e : WireError} {bs rest : List UInt8} {a : α} :
    (Decoder.fail e : Decoder α) bs ≠ .ok a rest := by
  simp [Decoder.fail]

theorem map_eq_bind (f : α → β) (d : Decoder α) : f <$> d = d >>= fun a => pure (f a) := rfl

theorem take_append {n : Nat} {bs : List UInt8} (h : bs.length = n) (rest : List UInt8) :
    Decoder.take n (bs ++ rest) = .ok bs rest := by
  subst h
  simp [Decoder.take]

theorem take_eq_ok {n : Nat} {bs t rest : List UInt8} :
    Decoder.take n bs = .ok t rest ↔ t.length = n ∧ bs = t ++ rest := by
  constructor
  · intro h
    unfold Decoder.take at h
    split_ifs at h with hn
    cases h
    exact ⟨by simp [hn], (List.take_append_drop n bs).symm⟩
  · rintro ⟨hn, rfl⟩
    exact take_append hn rest

end Decoder

/-! ## Big-endian integers -/

/-- Reading back the digits of a number gives it modulo the width. -/
theorem ofWord_word (n v : Nat) : ofWord (word n v) = v % 256 ^ n := by
  induction n generalizing v with
  | zero => simp [word, ofWord, Nat.mod_one]
  | succ n ih =>
    rw [word, ofWord_append, ih]
    simp only [List.foldl_cons, List.foldl_nil, UInt8.toNat_ofNat', Nat.reducePow, Nat.pow_succ]
    rw [Nat.mod_mod_of_dvd _ (by decide : 256 ∣ 256), Nat.mul_comm (256 ^ n) 256, Nat.mod_mul]
    omega

theorem ofWord_lt (bs : List UInt8) : ofWord bs < 256 ^ bs.length := by
  induction bs using List.reverseRecOn with
  | nil => simp [ofWord]
  | append_singleton bs b ih =>
    rw [ofWord_append, List.length_append, List.length_singleton, Nat.pow_succ]
    simp only [List.foldl_cons, List.foldl_nil]
    have hb : b.toNat < 256 := b.toNat_lt
    calc ofWord bs * 256 + b.toNat
        < ofWord bs * 256 + 256 := by omega
      _ = (ofWord bs + 1) * 256 := by ring
      _ ≤ 256 ^ bs.length * 256 := Nat.mul_le_mul_right _ ih

/-- Writing back the number that bytes stand for, at their width, gives the bytes. -/
theorem word_ofWord (bs : List UInt8) : word bs.length (ofWord bs) = bs := by
  induction bs using List.reverseRecOn with
  | nil => rfl
  | append_singleton bs b ih =>
    rw [ofWord_append, List.length_append, List.length_singleton, word]
    simp only [List.foldl_cons, List.foldl_nil]
    have hb := b.toNat_lt
    rw [show (ofWord bs * 256 + b.toNat) / 256 = ofWord bs by omega,
      show (ofWord bs * 256 + b.toNat) % 256 = b.toNat by omega, ih, UInt8.ofNat_toNat]

section Word

variable {γ : Type} {n : Nat} {F : Nat → γ} {G : γ → Nat}

/-- A fixed-width integer read through `F` from `n` big-endian bytes, where `G` gives the number
it is written as: the read succeeds exactly on the written bytes followed by anything. -/
theorem readWord_eq_ok (hFG : ∀ x, F (G x) = x) (hG : ∀ x, G x < 256 ^ n)
    (hGF : ∀ v < 256 ^ n, G (F v) = v) {bs rest : List UInt8} {x : γ} :
    (Decoder.take n >>= fun t => pure (F (ofWord t))) bs = .ok x rest ↔
      bs = word n (G x) ++ rest := by
  constructor
  · intro h
    obtain ⟨t, mid, ht, hx⟩ := Decoder.bind_eq_ok.mp h
    obtain ⟨hn, rfl⟩ := Decoder.take_eq_ok.mp ht
    cases hx
    have hw : G (F (ofWord t)) = ofWord t := hGF _ (hn ▸ ofWord_lt t)
    rw [hw, ← hn, word_ofWord]
  · rintro rfl
    rw [Decoder.bind_of_ok (Decoder.take_append (length_word n _) rest), Decoder.pure_apply,
      ofWord_word, Nat.mod_eq_of_lt (hG x), hFG]

end Word

/-! Each width is the word lemma at its own conversions. -/

theorem decodeI8_eq_ok {bs rest : List UInt8} {x : Int8} :
    decodeI8 bs = .ok x rest ↔ bs = encodeI8 x ++ rest :=
  readWord_eq_ok (F := fun v => (UInt8.ofNat v).toInt8) (G := fun x => x.toUInt8.toNat)
    (fun x => by simp) (fun x => x.toUInt8.toNat_lt)
    (fun v hv => by simp [UInt8.toNat_ofNat_of_lt' (show v < 256 from hv)])

theorem decodeI16_eq_ok {bs rest : List UInt8} {x : Int16} :
    decodeI16 bs = .ok x rest ↔ bs = encodeI16 x ++ rest :=
  readWord_eq_ok (F := fun v => (UInt16.ofNat v).toInt16) (G := fun x => x.toUInt16.toNat)
    (fun x => by simp) (fun x => x.toUInt16.toNat_lt)
    (fun v hv => by simp [UInt16.toNat_ofNat_of_lt' (show v < 65536 from hv)])

theorem decodeI32_eq_ok {bs rest : List UInt8} {x : Int32} :
    decodeI32 bs = .ok x rest ↔ bs = encodeI32 x ++ rest :=
  readWord_eq_ok (F := fun v => (UInt32.ofNat v).toInt32) (G := fun x => x.toUInt32.toNat)
    (fun x => by simp) (fun x => x.toUInt32.toNat_lt)
    (fun v hv => by simp [UInt32.toNat_ofNat_of_lt' (show v < 4294967296 from hv)])

theorem decodeI64_eq_ok {bs rest : List UInt8} {x : Int64} :
    decodeI64 bs = .ok x rest ↔ bs = encodeI64 x ++ rest :=
  readWord_eq_ok (F := fun v => (UInt64.ofNat v).toInt64) (G := fun x => x.toUInt64.toNat)
    (fun x => by simp) (fun x => x.toUInt64.toNat_lt)
    (fun v hv => by simp [UInt64.toNat_ofNat_of_lt' (show v < 18446744073709551616 from hv)])

/-- Four bytes read as a signed word, with nothing left. -/
theorem decodeI32_of_length {t : List UInt8} (h : t.length = 4) :
    decodeI32 t = .ok (UInt32.ofNat (ofWord t)).toInt32 [] := by
  rw [decodeI32, Decoder.bind_of_ok (Decoder.take_eq_ok.mpr ⟨h, (List.append_nil t).symm⟩)]
  rfl

/-! ## Codecs

A codec is a writer, which may refuse a value, and a reader of the front of a byte list. -/

section Codec

variable {α : Type} (enc : α → Except WireError (List UInt8)) (dec : Decoder α)

/-- `enc` writes `v`, and `dec` reads `w` from what it wrote, leaving whatever follows. -/
def ReadsBack (v w : α) : Prop :=
  ∃ bs, enc v = .ok bs ∧ ∀ rest, dec (bs ++ rest) = .ok w rest

/-- `enc` writes `v`, and `dec` reads `v` itself back, leaving whatever follows. -/
def RoundTrip (v : α) : Prop :=
  ReadsBack enc dec v v

/-- Whatever `dec` reads, `enc` writes and `dec` reads back: the codec is stable on its image. -/
def Stable : Prop :=
  ∀ bs v rest, dec bs = .ok v rest → RoundTrip enc dec v

/-- `dec` accepts exactly what `enc` writes, followed by anything. -/
def Exact : Prop :=
  ∀ bs v rest, dec bs = .ok v rest ↔ ∃ e, enc v = .ok e ∧ bs = e ++ rest

variable {enc dec}

/-- What a written value reads back as is determined by the value. -/
theorem ReadsBack.eq {v w w' : α} (h : ReadsBack enc dec v w) (h' : ReadsBack enc dec v w') :
    w = w' := by
  obtain ⟨bs, he, hd⟩ := h
  obtain ⟨bs', he', hd'⟩ := h'
  rw [he, Except.ok.injEq] at he'
  subst he'
  have hs := (hd []).symm.trans (hd' [])
  simp only [Step.ok.injEq] at hs
  exact hs.1

theorem Exact.roundTrip (h : Exact enc dec) {v : α} {e : List UInt8} (he : enc v = .ok e) :
    RoundTrip enc dec v :=
  ⟨e, he, fun _ => (h _ _ _).mpr ⟨e, he, rfl⟩⟩

theorem Exact.stable (h : Exact enc dec) : Stable enc dec := by
  intro bs v _ hd
  obtain ⟨e, he, -⟩ := (h _ _ _).mp hd
  exact h.roundTrip he

end Codec

/-! ## Strings -/

theorem encodeString_of_le {s : String} (h : (Text.Utf8.encode s).length ≤ maxStringBytes) :
    encodeString (some s) =
      .ok (encodeI16 (Int16.ofNat (Text.Utf8.encode s).length) ++ Text.Utf8.encode s) := by
  rw [encodeString, if_neg (Nat.not_lt.mpr h)]

/-- A string of more than 32767 bytes cannot be written. -/
theorem encodeString_of_lt {s : String} (h : maxStringBytes < (Text.Utf8.encode s).length) :
    encodeString (some s) = .error .stringTooLong := by
  rw [encodeString, if_pos h]

/-- **Strings are read exactly as written**: a string read from the front of a byte list was
written there, null as `-1` and any other string with its length, and nothing else is read. -/
theorem decodeString_eq_ok {bs rest : List UInt8} {v : Option String} :
    decodeString bs = .ok v rest ↔ ∃ e, encodeString v = .ok e ∧ bs = e ++ rest := by
  rw [decodeString]
  constructor
  · intro hd
    obtain ⟨len, mid, hlen, h⟩ := Decoder.bind_eq_ok.mp hd
    obtain rfl := decodeI16_eq_ok.mp hlen
    have hlt : len.toInt < 2 ^ 15 := len.toInt_lt
    split_ifs at h with h₁ h₂
    · -- null is written as `-1`
      simp only [Decoder.pure_apply, Step.ok.injEq] at h
      obtain ⟨rfl, rfl⟩ := h
      have hlen : len = -1 := Int16.toInt_inj.mp (by rw [h₁]; rfl)
      exact ⟨_, rfl, by rw [hlen]⟩
    · exact absurd h Decoder.fail_ne_ok
    · obtain ⟨t, r, ht, hm⟩ := Decoder.bind_eq_ok.mp h
      obtain ⟨htl, rfl⟩ := Decoder.take_eq_ok.mp ht
      cases hs : Text.Utf8.decode? t with
      | some s =>
        rw [hs] at hm
        simp only [Decoder.pure_apply, Step.ok.injEq] at hm
        obtain ⟨rfl, rfl⟩ := hm
        -- the bytes read are the string's own, and the length read is theirs
        have he : Text.Utf8.encode s = t := Text.Utf8.encode_of_decode? hs
        have hle : (Text.Utf8.encode s).length ≤ maxStringBytes := by
          rw [he, htl, maxStringBytes]; omega
        have hlen : Int16.ofNat (Text.Utf8.encode s).length = len := by
          apply Int16.toInt_inj.mp
          rw [Int16.toInt_ofNat_of_lt (by rw [maxStringBytes] at hle; omega), he, htl]
          omega
        exact ⟨_, encodeString_of_le hle, by rw [hlen, he, List.append_assoc]⟩
      | none =>
        rw [hs] at hm
        exact absurd hm Decoder.fail_ne_ok
  · rintro ⟨e, he, rfl⟩
    cases v with
    | none =>
      cases he
      rw [Decoder.bind_of_ok (decodeI16_eq_ok.mpr rfl)]
      rfl
    | some s =>
      by_cases hle : (Text.Utf8.encode s).length ≤ maxStringBytes
      · rw [encodeString_of_le hle, Except.ok.injEq] at he
        subst he
        have hlen : (Int16.ofNat (Text.Utf8.encode s).length).toInt = (Text.Utf8.encode s).length :=
          Int16.toInt_ofNat_of_lt (by rw [maxStringBytes] at hle; omega)
        rw [List.append_assoc, Decoder.bind_of_ok (decodeI16_eq_ok.mpr rfl), hlen,
          if_neg (by omega), if_neg (by omega), Int.toNat_natCast,
          Decoder.bind_of_ok (Decoder.take_append rfl rest), Text.Utf8.decode?_encode]
        rfl
      · rw [encodeString_of_lt (Nat.lt_of_not_le hle)] at he
        cases he

theorem decodeRequiredString_eq_ok {field : String} {bs rest : List UInt8} {s : String} :
    decodeRequiredString field bs = .ok s rest ↔ decodeString bs = .ok (some s) rest := by
  rw [decodeRequiredString, Decoder.bind_eq_ok]
  constructor
  · rintro ⟨v, mid, hv, h⟩
    cases v with
    | some s' =>
      simp only [Decoder.pure_apply, Step.ok.injEq] at h
      obtain ⟨rfl, rfl⟩ := h
      exact hv
    | none => exact absurd h Decoder.fail_ne_ok
  · intro h
    exact ⟨_, _, h, rfl⟩

/-! ## Blobs -/

theorem encodeBytes_of_le {b : List UInt8} (h : b.length ≤ maxBlobBytes) :
    encodeBytes (some b) = .ok (encodeI32 (Int32.ofNat b.length) ++ b) := by
  rw [encodeBytes, if_neg (Nat.not_lt.mpr h)]

/-- **Blobs are read exactly as written**, null as `-1` and any other blob with its length. -/
theorem decodeBytes_eq_ok {bs rest : List UInt8} {v : Option (List UInt8)} :
    decodeBytes bs = .ok v rest ↔ ∃ e, encodeBytes v = .ok e ∧ bs = e ++ rest := by
  rw [decodeBytes]
  constructor
  · intro hd
    obtain ⟨len, mid, hlen, h⟩ := Decoder.bind_eq_ok.mp hd
    obtain rfl := decodeI32_eq_ok.mp hlen
    have hlt : len.toInt < 2 ^ 31 := len.toInt_lt
    split_ifs at h with h₁ h₂
    · -- null is written as `-1`
      simp only [Decoder.pure_apply, Step.ok.injEq] at h
      obtain ⟨rfl, rfl⟩ := h
      have hlen : len = -1 := Int32.toInt_inj.mp (by rw [h₁]; rfl)
      exact ⟨_, rfl, by rw [hlen]⟩
    · exact absurd h Decoder.fail_ne_ok
    · rw [Decoder.map_eq_bind] at h
      obtain ⟨t, r, ht, hm⟩ := Decoder.bind_eq_ok.mp h
      obtain ⟨htl, rfl⟩ := Decoder.take_eq_ok.mp ht
      simp only [Decoder.pure_apply, Step.ok.injEq] at hm
      obtain ⟨rfl, rfl⟩ := hm
      have hle : t.length ≤ maxBlobBytes := by rw [htl, maxBlobBytes]; omega
      have hlen : Int32.ofNat t.length = len := by
        apply Int32.toInt_inj.mp
        rw [Int32.toInt_ofNat_of_lt (by rw [maxBlobBytes] at hle; omega), htl]
        omega
      exact ⟨_, encodeBytes_of_le hle, by rw [hlen, List.append_assoc]⟩
  · rintro ⟨e, he, rfl⟩
    cases v with
    | none =>
      cases he
      rw [Decoder.bind_of_ok (decodeI32_eq_ok.mpr rfl)]
      rfl
    | some b =>
      by_cases hle : b.length ≤ maxBlobBytes
      · rw [encodeBytes_of_le hle, Except.ok.injEq] at he
        subst he
        have hlen : (Int32.ofNat b.length).toInt = b.length :=
          Int32.toInt_ofNat_of_lt (by rw [maxBlobBytes] at hle; omega)
        rw [List.append_assoc, Decoder.bind_of_ok (decodeI32_eq_ok.mpr rfl), hlen,
          if_neg (by omega), if_neg (by omega), Int.toNat_natCast, Decoder.map_eq_bind,
          Decoder.bind_of_ok (Decoder.take_append rfl rest)]
        rfl
      · rw [encodeBytes, if_pos (Nat.lt_of_not_le hle)] at he
        cases he

theorem exact_string : Exact encodeString decodeString :=
  fun _ _ _ => decodeString_eq_ok

theorem exact_bytes : Exact encodeBytes decodeBytes :=
  fun _ _ _ => decodeBytes_eq_ok

/-- Every string of at most 32767 bytes round-trips. -/
theorem roundTrip_string {s : String} (h : (Text.Utf8.encode s).length ≤ maxStringBytes) :
    RoundTrip encodeString decodeString (some s) :=
  exact_string.roundTrip (encodeString_of_le h)

/-- Every blob of at most `2 ^ 31 - 1` bytes round-trips. -/
theorem roundTrip_bytes {b : List UInt8} (h : b.length ≤ maxBlobBytes) :
    RoundTrip encodeBytes decodeBytes (some b) :=
  exact_bytes.roundTrip (encodeBytes_of_le h)

end MessageBroker.Wire