import Mathlib
import MessageBroker.Text.Utf8

/-!
# UTF-8 round trips

The strict reader and core's writer are inverse to each other. Every string is read back from
its bytes, whatever follows them (`decode?_encode`), and a byte list the reader accepts is exactly
the bytes of the string it reads (`encode_of_decode?`): well-formed UTF-8 has one reading and
each string one writing.

Both directions go one character at a time, by the length of its sequence. The bounds a lead
byte puts on the byte after it (`E0`, `ED`, `F0`, `F4`) are the ones that rule out overlong
forms, surrogates and code points above U+10FFFF, so they are exactly what makes a decoded
code point a valid character.

## Main results

* `decodeChars_utf8EncodeChar_append`: one character is read back from its own bytes
* `decode?_encode`: reading the bytes of a string gives it back
* `flatMap_of_decodeChars`, `encode_of_decode?`: what is read writes exactly the bytes read
-/

namespace MessageBroker.Text.Utf8


/-! Reading one character back, by the length of its sequence. -/

theorem decodeChars_one {x : Nat} (hx : x < 0x80) (bs : List UInt8) :
    decodeChars (UInt8.ofNat x :: bs) = (decodeChars bs).map (Char.ofNat x :: ·) := by
  have hx' := UInt8.toNat_ofNat_of_lt' (show x < 256 by omega)
  rw [decodeChars.eq_def]
  dsimp only
  rw [if_pos (by rw [UInt8.lt_iff_toNat_lt, hx']; simpa using hx), hx']

theorem decodeChars_two {x y : Nat} (hx₁ : 0xC2 ≤ x) (hx₂ : x < 0xE0) (hy₁ : 0x80 ≤ y)
    (hy₂ : y < 0xC0) (bs : List UInt8) :
    decodeChars (UInt8.ofNat x :: UInt8.ofNat y :: bs) =
      (decodeChars bs).map (Char.ofNat ((x % 32) * 64 + y % 64) :: ·) := by
  have hx := UInt8.toNat_ofNat_of_lt' (show x < 256 by omega)
  have hy := UInt8.toNat_ofNat_of_lt' (show y < 256 by omega)
  rw [decodeChars.eq_def]
  dsimp only
  rw [if_neg (by rw [UInt8.lt_iff_toNat_lt, hx]; simp; omega)]
  simp (disch := omega) only [leadShape, UInt8.lt_iff_toNat_lt, UInt8.le_iff_toNat_le, hx, hy,
    UInt8.reduceToNat, if_pos, if_neg, payload]

theorem decodeChars_three {x y z : Nat} (hx₁ : 0xE0 ≤ x) (hx₂ : x < 0xF0)
    (hy₁ : 0x80 ≤ y) (hy₂ : y < 0xC0) (hlo : x = 0xE0 → 0xA0 ≤ y) (hhi : x = 0xED → y < 0xA0)
    (hz₁ : 0x80 ≤ z) (hz₂ : z < 0xC0) (bs : List UInt8) :
    decodeChars (UInt8.ofNat x :: UInt8.ofNat y :: UInt8.ofNat z :: bs) =
      (decodeChars bs).map (Char.ofNat ((x % 16) * 4096 + (y % 64) * 64 + z % 64) :: ·) := by
  have hx := UInt8.toNat_ofNat_of_lt' (show x < 256 by omega)
  have hy := UInt8.toNat_ofNat_of_lt' (show y < 256 by omega)
  have hz := UInt8.toNat_ofNat_of_lt' (show z < 256 by omega)
  rw [decodeChars.eq_def]
  dsimp only
  rw [if_neg (by rw [UInt8.lt_iff_toNat_lt, hx]; simp; omega)]
  simp (disch := omega) only [leadShape, UInt8.lt_iff_toNat_lt, ← UInt8.toNat_inj, hx,
    UInt8.reduceToNat, if_pos, if_neg]
  -- the lead byte sets the range of the second: narrower after `E0` and `ED`
  split_ifs <;> simp (disch := omega) only [UInt8.le_iff_toNat_le, isContinuation, payload, hy, hz,
    UInt8.reduceToNat, if_pos, Bool.and_eq_true, decide_eq_true_eq]

theorem decodeChars_four {w x y z : Nat} (hw₁ : 0xF0 ≤ w) (hw₂ : w ≤ 0xF4)
    (hx₁ : 0x80 ≤ x) (hx₂ : x < 0xC0) (hlo : w = 0xF0 → 0x90 ≤ x) (hhi : w = 0xF4 → x < 0x90)
    (hy₁ : 0x80 ≤ y) (hy₂ : y < 0xC0) (hz₁ : 0x80 ≤ z) (hz₂ : z < 0xC0) (bs : List UInt8) :
    decodeChars (UInt8.ofNat w :: UInt8.ofNat x :: UInt8.ofNat y :: UInt8.ofNat z :: bs) =
      (decodeChars bs).map
        (Char.ofNat ((w % 8) * 262144 + (x % 64) * 4096 + (y % 64) * 64 + z % 64) :: ·) := by
  have hw := UInt8.toNat_ofNat_of_lt' (show w < 256 by omega)
  have hx := UInt8.toNat_ofNat_of_lt' (show x < 256 by omega)
  have hy := UInt8.toNat_ofNat_of_lt' (show y < 256 by omega)
  have hz := UInt8.toNat_ofNat_of_lt' (show z < 256 by omega)
  rw [decodeChars.eq_def]
  dsimp only
  rw [if_neg (by rw [UInt8.lt_iff_toNat_lt, hw]; simp; omega)]
  simp (disch := omega) only [leadShape, UInt8.lt_iff_toNat_lt, ← UInt8.toNat_inj, hw,
    UInt8.reduceToNat, if_pos, if_neg]
  -- the lead byte sets the range of the second: narrower after `F0` and `F4`
  split_ifs <;> simp (disch := omega) only [UInt8.le_iff_toNat_le, isContinuation, payload, hx, hy,
    hz, UInt8.reduceToNat, if_pos, Bool.and_eq_true, decide_eq_true_eq]

/-- Each character is read back from its own sequence, whatever follows. -/
theorem decodeChars_utf8EncodeChar_append (c : Char) (bs : List UInt8) :
    decodeChars (String.utf8EncodeChar c ++ bs) = (decodeChars bs).map (c :: ·) := by
  obtain ⟨n, hn⟩ : ∃ n, c.val.toNat = n := ⟨_, rfl⟩
  have hc : Char.ofNat n = c := hn ▸ Char.ofNat_toNat c
  have hv : n < 0xD800 ∨ (0xDFFF < n ∧ n < 0x110000) := hn ▸ c.valid
  unfold String.utf8EncodeChar
  simp only [hn]
  rw [← hc]
  -- one case per sequence length; each ends in the payload bits putting `n` back together
  split_ifs <;> simp only [List.cons_append, List.nil_append]
  · rw [decodeChars_one (by omega)]
  · rw [decodeChars_two (by omega) (by omega) (by omega) (by omega),
      show (n / 64 % 32 + 192) % 32 * 64 + (n % 64 + 128) % 64 = n by omega]
  · rw [decodeChars_three (by omega) (by omega) (by omega) (by omega) (by omega) (by omega)
      (by omega) (by omega),
      show (n / 4096 % 16 + 224) % 16 * 4096 + (n / 64 % 64 + 128) % 64 * 64 +
        (n % 64 + 128) % 64 = n by omega]
  · rw [decodeChars_four (by omega) (by omega) (by omega) (by omega) (by omega) (by omega)
      (by omega) (by omega) (by omega) (by omega),
      show (n / 262144 % 8 + 240) % 8 * 262144 + (n / 4096 % 64 + 128) % 64 * 4096 +
        (n / 64 % 64 + 128) % 64 * 64 + (n % 64 + 128) % 64 = n by omega]

theorem decodeChars_flatMap_append (cs : List Char) (bs : List UInt8) :
    decodeChars (cs.flatMap String.utf8EncodeChar ++ bs) = (decodeChars bs).map (cs ++ ·) := by
  induction cs with
  | nil => simp
  | cons c cs ih =>
    rw [List.flatMap_cons, List.append_assoc, decodeChars_utf8EncodeChar_append, ih,
      Option.map_map]
    rfl

/-- **Reading the bytes of a string gives it back.** -/
theorem decode?_encode (s : String) : decode? (encode s) = some s := by
  have h := decodeChars_flatMap_append s.toList []
  rw [List.append_nil] at h
  simp [decode?, encode, h, decodeChars]

/-! Writing a character read from a well-formed sequence gives the sequence back. -/

theorem val_toNat_ofNat {v : Nat} (hv : v.isValidChar) : (Char.ofNat v).val.toNat = v := by
  rw [Char.toNat_val, Char.toNat_ofNat, if_pos hv]

theorem utf8EncodeChar_one {x : Nat} (hx : x < 0x80) :
    String.utf8EncodeChar (Char.ofNat x) = [UInt8.ofNat x] := by
  unfold String.utf8EncodeChar
  rw [val_toNat_ofNat (Or.inl (by omega)), if_pos (by omega)]

theorem utf8EncodeChar_two {x y : Nat} (hx₁ : 0xC2 ≤ x) (hx₂ : x < 0xE0) (hy₁ : 0x80 ≤ y)
    (hy₂ : y < 0xC0) :
    String.utf8EncodeChar (Char.ofNat ((x % 32) * 64 + y % 64)) =
      [UInt8.ofNat x, UInt8.ofNat y] := by
  unfold String.utf8EncodeChar
  rw [val_toNat_ofNat (Or.inl (by omega)), if_neg (by omega), if_pos (by omega)]
  congr <;> omega

theorem utf8EncodeChar_three {x y z : Nat} (hx₁ : 0xE0 ≤ x) (hx₂ : x < 0xF0)
    (hy₁ : 0x80 ≤ y) (hy₂ : y < 0xC0) (hlo : x = 0xE0 → 0xA0 ≤ y) (hhi : x = 0xED → y < 0xA0)
    (hz₁ : 0x80 ≤ z) (hz₂ : z < 0xC0) :
    String.utf8EncodeChar (Char.ofNat ((x % 16) * 4096 + (y % 64) * 64 + z % 64)) =
      [UInt8.ofNat x, UInt8.ofNat y, UInt8.ofNat z] := by
  unfold String.utf8EncodeChar
  rw [val_toNat_ofNat (by unfold Nat.isValidChar; omega), if_neg (by omega), if_neg (by omega),
    if_pos (by omega)]
  congr <;> omega

theorem utf8EncodeChar_four {w x y z : Nat} (hw₁ : 0xF0 ≤ w) (hw₂ : w ≤ 0xF4)
    (hx₁ : 0x80 ≤ x) (hx₂ : x < 0xC0) (hlo : w = 0xF0 → 0x90 ≤ x) (hhi : w = 0xF4 → x < 0x90)
    (hy₁ : 0x80 ≤ y) (hy₂ : y < 0xC0) (hz₁ : 0x80 ≤ z) (hz₂ : z < 0xC0) :
    String.utf8EncodeChar
        (Char.ofNat ((w % 8) * 262144 + (x % 64) * 4096 + (y % 64) * 64 + z % 64)) =
      [UInt8.ofNat w, UInt8.ofNat x, UInt8.ofNat y, UInt8.ofNat z] := by
  unfold String.utf8EncodeChar
  rw [val_toNat_ofNat (Or.inr (by omega)), if_neg (by omega), if_neg (by omega),
    if_neg (by omega)]
  congr <;> omega

/-! What a lead byte's shape says, as bounds on the bytes. -/

theorem leadShape_eq_one {b lo hi : UInt8} (h : leadShape b = some (1, lo, hi)) :
    0xC2 ≤ b.toNat ∧ b.toNat < 0xE0 ∧ 0x80 ≤ lo.toNat ∧ hi.toNat ≤ 0xBF := by
  unfold leadShape at h
  split_ifs at h <;> simp_all [UInt8.lt_iff_toNat_lt, ← UInt8.toNat_inj]

theorem leadShape_eq_two {b lo hi : UInt8} (h : leadShape b = some (2, lo, hi)) :
    0xE0 ≤ b.toNat ∧ b.toNat < 0xF0 ∧ 0x80 ≤ lo.toNat ∧ hi.toNat ≤ 0xBF ∧
      (b.toNat = 0xE0 → 0xA0 ≤ lo.toNat) ∧ (b.toNat = 0xED → hi.toNat < 0xA0) := by
  unfold leadShape at h
  split_ifs at h <;> simp_all [UInt8.lt_iff_toNat_lt, ← UInt8.toNat_inj]
  all_goals omega

theorem leadShape_eq_three {b lo hi : UInt8} (h : leadShape b = some (3, lo, hi)) :
    0xF0 ≤ b.toNat ∧ b.toNat ≤ 0xF4 ∧ 0x80 ≤ lo.toNat ∧ hi.toNat ≤ 0xBF ∧
      (b.toNat = 0xF0 → 0x90 ≤ lo.toNat) ∧ (b.toNat = 0xF4 → hi.toNat < 0x90) := by
  unfold leadShape at h
  split_ifs at h <;> simp_all [UInt8.lt_iff_toNat_lt, ← UInt8.toNat_inj]
  all_goals omega

theorem isContinuation_iff {b : UInt8} :
    isContinuation b = true ↔ 0x80 ≤ b.toNat ∧ b.toNat ≤ 0xBF := by
  simp [isContinuation, UInt8.le_iff_toNat_le]

/-- One step of the converse: the character read first writes the bytes it was read from. -/
theorem flatMap_of_map_cons {c : Char} {B bs : List UInt8} {cs : List Char}
    (hc : String.utf8EncodeChar c = B)
    (ih : ∀ {cs : List Char}, decodeChars bs = some cs → cs.flatMap String.utf8EncodeChar = bs)
    (h : (decodeChars bs).map (c :: ·) = some cs) :
    cs.flatMap String.utf8EncodeChar = B ++ bs := by
  obtain ⟨cs', h', rfl⟩ := Option.map_eq_some_iff.mp h
  rw [List.flatMap_cons, hc, ih h']

/-- **Reading is exact**: characters read from a byte list write exactly that list. -/
theorem flatMap_of_decodeChars {bs : List UInt8} {cs : List Char} (h : decodeChars bs = some cs) :
    cs.flatMap String.utf8EncodeChar = bs := by
  revert h
  -- one case per branch of the reader; the failing branches have nothing to show
  fun_induction decodeChars bs generalizing cs with
  | case1 => rintro ⟨⟩; rfl
  | case2 b0 bs hb ih =>
    have e := utf8EncodeChar_one (x := b0.toNat) (by simpa [UInt8.lt_iff_toNat_lt] using hb)
    rw [UInt8.ofNat_toNat] at e
    exact flatMap_of_map_cons e ih
  | case3 b0 _ lo hi b1 bs hs hb ih =>
    obtain ⟨h₁, h₂, h₃, h₄⟩ := leadShape_eq_one hs
    simp only [UInt8.le_iff_toNat_le] at hb
    have e := utf8EncodeChar_two h₁ h₂ (y := b1.toNat) (by omega) (by omega)
    rw [UInt8.ofNat_toNat, UInt8.ofNat_toNat] at e
    exact flatMap_of_map_cons e ih
  | case5 b0 _ lo hi b1 b2 bs hs hb ih =>
    obtain ⟨h₁, h₂, h₃, h₄, h₅, h₆⟩ := leadShape_eq_two hs
    simp only [UInt8.le_iff_toNat_le, isContinuation_iff] at hb
    have e := utf8EncodeChar_three h₁ h₂ (y := b1.toNat) (z := b2.toNat) (by omega) (by omega)
      (by omega) (by omega) (by omega) (by omega)
    rw [UInt8.ofNat_toNat, UInt8.ofNat_toNat, UInt8.ofNat_toNat] at e
    exact flatMap_of_map_cons e ih
  | case7 b0 _ lo hi b1 b2 b3 bs hs hb ih =>
    obtain ⟨h₁, h₂, h₃, h₄, h₅, h₆⟩ := leadShape_eq_three hs
    simp only [UInt8.le_iff_toNat_le, isContinuation_iff] at hb
    have e := utf8EncodeChar_four h₁ h₂ (x := b1.toNat) (y := b2.toNat) (z := b3.toNat)
      (by omega) (by omega) (by omega) (by omega) (by omega) (by omega) (by omega) (by omega)
    rw [UInt8.ofNat_toNat, UInt8.ofNat_toNat, UInt8.ofNat_toNat, UInt8.ofNat_toNat] at e
    exact flatMap_of_map_cons e ih
  | case4 | case6 | case8 | case9 => rintro ⟨⟩

/-- The string read from a byte list writes exactly that list. -/
theorem encode_of_decode? {bs : List UInt8} {s : String} (h : decode? bs = some s) :
    encode s = bs := by
  obtain ⟨cs, hcs, rfl⟩ := Option.map_eq_some_iff.mp h
  rw [encode, String.toList_ofList, flatMap_of_decodeChars hcs]

end MessageBroker.Text.Utf8
