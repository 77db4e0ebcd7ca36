/-!
# UTF-8

Text travels as UTF-8 bytes. Writing is core's encoder, one character at a time; reading accepts
exactly the well-formed sequences of the Unicode standard (table 3-7): no overlong form, no
surrogate code point, nothing above U+10FFFF, and no cut-off sequence.

## Main definitions

* `Utf8.encode`: the UTF-8 bytes of a string
* `Utf8.leadShape`: what a lead byte announces
* `Utf8.decodeChars`, `Utf8.decode?`: strict reading of a byte list
-/

namespace MessageBroker.Text.Utf8

/-- The UTF-8 bytes of a string, one character after the other. -/
def encode (s : String) : List UInt8 :=
  s.toList.flatMap String.utf8EncodeChar

/-- What a lead byte of a multi-byte sequence announces: the number of continuation bytes and
the range the first continuation byte must fall in. Bytes that cannot lead give `none`: the
continuation bytes, the lead bytes of overlong forms (`C0`, `C1`) and those above `F4`. -/
def leadShape (b : UInt8) : Option (Nat × UInt8 × UInt8) :=
  if b < 0xC2 then none
  else if b < 0xE0 then some (1, 0x80, 0xBF)
  else if b = 0xE0 then some (2, 0xA0, 0xBF)
  else if b = 0xED then some (2, 0x80, 0x9F)
  else if b < 0xF0 then some (2, 0x80, 0xBF)
  else if b = 0xF0 then some (3, 0x90, 0xBF)
  else if b < 0xF4 then some (3, 0x80, 0xBF)
  else if b = 0xF4 then some (3, 0x80, 0x8F)
  else none

/-- A continuation byte: `10xxxxxx`. -/
def isContinuation (b : UInt8) : Bool :=
  0x80 ≤ b && b ≤ 0xBF

/-- The six payload bits of a continuation byte. -/
def payload (b : UInt8) : Nat :=
  b.toNat % 64

/-- Reads the characters of a byte list, or `none` when it is not well-formed UTF-8. -/
def decodeChars : List UInt8 → Option (List Char)
  | [] => some []
  | b0 :: bs =>
    if b0 < 0x80 then (decodeChars bs).map (Char.ofNat b0.toNat :: ·)
    else match leadShape b0, bs with
      | some (1, lo, hi), b1 :: bs =>
        if lo ≤ b1 ∧ b1 ≤ hi then
          (decodeChars bs).map (Char.ofNat ((b0.toNat % 32) * 64 + payload b1) :: ·)
        else none
      | some (2, lo, hi), b1 :: b2 :: bs =>
        if lo ≤ b1 ∧ b1 ≤ hi ∧ isContinuation b2 then
          (decodeChars bs).map
            (Char.ofNat ((b0.toNat % 16) * 4096 + payload b1 * 64 + payload b2) :: ·)
        else none
      | some (3, lo, hi), b1 :: b2 :: b3 :: bs =>
        if lo ≤ b1 ∧ b1 ≤ hi ∧ isContinuation b2 ∧ isContinuation b3 then
          (decodeChars bs).map (Char.ofNat ((b0.toNat % 8) * 262144 + payload b1 * 4096 +
            payload b2 * 64 + payload b3) :: ·)
        else none
      | _, _ => none

/-- Reads a string from its UTF-8 bytes, or `none` when they are not well-formed. -/
def decode? (bs : List UInt8) : Option String :=
  (decodeChars bs).map String.ofList

example : decode? [0xC3, 0xA9] = some "é" := by decide
example : decode? [0xED, 0xA0, 0x80] = none ∧ decode? [0xC0, 0xAF] = none ∧
    decode? [0xF4, 0x90, 0x80, 0x80] = none ∧ decode? [0xE6, 0x97] = none := by decide

end MessageBroker.Text.Utf8
