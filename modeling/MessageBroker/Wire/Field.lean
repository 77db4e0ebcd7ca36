import MessageBroker.Wire.Bytes
import MessageBroker.Text.Utf8
/-!
# Strings and blobs on the wire

A string is a two-byte length and that many UTF-8 bytes; a blob is a four-byte length and
that many bytes. A length of `-1` stands for null, and a smaller one is an error. Lengths are
read first, then checked, then the bytes are taken; a string's bytes are checked as UTF-8 only
after they are taken.

## Main definitions

* `encodeString`, `decodeString`, `decodeRequiredString`
* `encodeBytes`, `decodeBytes`
-/

namespace MessageBroker.Wire

/-- The most bytes a string may have: `2 ^ 15 - 1`. -/
def maxStringBytes : Nat := 32767

/-- The most bytes a blob may have: `2 ^ 31 - 1`. -/
def maxBlobBytes : Nat := 2147483647

/-- Writes a string, or null; a string of more than 32767 UTF-8 bytes cannot be written. -/
def encodeString : Option String → Except WireError (List UInt8)
  | none => .ok (encodeI16 (-1))
  | some s =>
    let bs := Text.Utf8.encode s
    if maxStringBytes < bs.length then .error .stringTooLong
    else .ok (encodeI16 (Int16.ofNat bs.length) ++ bs)

/-- Reads a string, or null. -/
def decodeString : Decoder (Option String) := do
  let len ← decodeI16
  if len.toInt = -1 then pure none
  else if len.toInt < 0 then Decoder.fail .badStringLength
  else
    let bs ← Decoder.take len.toInt.toNat
    match Text.Utf8.decode? bs with
    | some s => pure (some s)
    | none => Decoder.fail .badUtf8

/-- Reads a string that must not be null; `field` names it in the error. -/
def decodeRequiredString (field : String) : Decoder String := do
  match ← decodeString with
  | some s => pure s
  | none => Decoder.fail (.nullField field)

/-- Writes a blob, or null. -/
def encodeBytes : Option (List UInt8) → Except WireError (List UInt8)
  | none => .ok (encodeI32 (-1))
  | some bs =>
    if maxBlobBytes < bs.length then .error .bytesTooLong
    else .ok (encodeI32 (Int32.ofNat bs.length) ++ bs)

/-- Reads a blob, or null. -/
def decodeBytes : Decoder (Option (List UInt8)) := do
  let len ← decodeI32
  if len.toInt = -1 then pure none
  else if len.toInt < 0 then Decoder.fail .badBytesLength
  else some <$> Decoder.take len.toInt.toNat

end MessageBroker.Wire
