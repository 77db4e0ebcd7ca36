/-!
# Bytes on the wire

Integers travel big-endian in two's complement, one to eight bytes wide. Reading consumes the
front of a byte list and either gives a value with the bytes left, or fails with the bytes
left at the failure; a read that lacks bytes fails before it consumes any.

## Main definitions

* `IoKind`, `IoError`: kinds and texts of input/output failures
* `WireError`: why a value cannot be read or written, with `WireError.toIoError`
* `word`, `ofWord`: big-endian digits of a number
* `Decoder`: readers of a byte list, a monad
* `encodeI8` … `encodeI64`, `decodeI8` … `decodeI64`
-/

namespace MessageBroker.Wire

/-- The kinds of input/output failure. -/
inductive IoKind where
  | unexpectedEof
  | invalidData
  | invalidInput
  | other
  deriving DecidableEq, Repr

/-- An input/output failure: its kind and its text. -/
structure IoError where
  kind : IoKind
  message : String
  deriving DecidableEq, Repr

/-- Why a value cannot be read from, or written to, the wire. -/
inductive WireError where
  /-- fewer bytes left than the value needs -/
  | short
  /-- a request header with an api key that names no api -/
  | unknownApiKey
  /-- a string length below `-1` -/
  | badStringLength
  /-- a blob length below `-1` -/
  | badBytesLength
  /-- string bytes that are not UTF-8 -/
  | badUtf8
  /-- a required string written as null; the field's name is given -/
  | nullField (field : String)
  /-- a stream frame tag that names no frame -/
  | unknownFrameKind
  /-- a string of more than 32767 bytes to write -/
  | stringTooLong
  /-- a blob of more than `2 ^ 31 - 1` bytes to write -/
  | bytesTooLong
  /-- a frame size out of range -/
  | badFrameSize (size : Int)
  /-- a frame payload that the stream cuts off -/
  | cutOff
  /-- a frame of more than `2 ^ 31 - 1` bytes to write -/
  | frameTooLarge
  deriving DecidableEq, Repr

/-- The kind and text of each wire failure. -/
def WireError.toIoError : WireError → IoError
  | .short => ⟨.unexpectedEof, "Not enough bytes"⟩
  | .unknownApiKey => ⟨.invalidData, "Unknown API key"⟩
  | .badStringLength => ⟨.invalidData, "Invalid string length"⟩
  | .badBytesLength => ⟨.invalidData, "Invalid bytes length"⟩
  | .badUtf8 => ⟨.invalidData, "Invalid UTF-8"⟩
  | .nullField field => ⟨.invalidData, field ++ " cannot be null"⟩
  | .unknownFrameKind => ⟨.invalidData, "Unknown stream frame kind"⟩
  | .stringTooLong => ⟨.invalidInput, "String too long"⟩
  | .bytesTooLong => ⟨.invalidInput, "Bytes too long"⟩
  | .badFrameSize size => ⟨.invalidData, "Invalid frame size: " ++ toString size⟩
  | .cutOff => ⟨.unexpectedEof, "early eof"⟩
  | .frameTooLarge => ⟨.invalidInput, "Frame too large"⟩

/-- The `n` big-endian base-256 digits of `v`, that is of `v` modulo `256 ^ n`. -/
def word : Nat → Nat → List UInt8
  | 0, _ => []
  | n + 1, v => word n (v / 256) ++ [UInt8.ofNat (v % 256)]

/-- The number whose big-endian base-256 digits are the bytes. -/
def ofWord (bs : List UInt8) : Nat :=
  bs.foldl (fun acc b => acc * 256 + b.toNat) 0

@[simp] theorem length_word (n v : Nat) : (word n v).length = n := by
  induction n generalizing v with
  | zero => rfl
  | succ n ih => simp [word, ih]

theorem ofWord_append (bs cs : List UInt8) :
    ofWord (bs ++ cs) = cs.foldl (fun acc b => acc * 256 + b.toNat) (ofWord bs) := by
  simp [ofWord, List.foldl_append]

/-- The outcome of a read: a value with the bytes left, or a failure with the bytes left. -/
inductive Step (α : Type) where
  | ok (a : α) (rest : List UInt8)
  | fail (e : WireError) (rest : List UInt8)

/-- A reader of the front of a byte list. -/
def Decoder (α : Type) : Type := List UInt8 → Step α

namespace Decoder

/-- Reads nothing and gives `a`. -/
protected def pure {α : Type} (a : α) : Decoder α := fun bs => .ok a bs

/-- Reads with `d`, then with what `f` makes of its value; a failure stops. -/
protected def bind {α β : Type} (d : Decoder α) (f : α → Decoder β) : Decoder β := fun bs =>
  match d bs with
  | .ok a rest => f a rest
  | .fail e rest => .fail e rest

instance : Monad Decoder where
  pure := Decoder.pure
  bind := Decoder.bind

/-- Fails without reading. -/
def fail {α : Type} (e : WireError) : Decoder α := fun bs => .fail e bs

/-- Takes `n` bytes, or fails without taking any when fewer are left. -/
def take (n : Nat) : Decoder (List UInt8) := fun bs =>
  if n ≤ bs.length then .ok (bs.take n) (bs.drop n) else .fail .short bs

end Decoder

/-- Writes a one-byte signed integer. -/
def encodeI8 (x : Int8) : List UInt8 := word 1 x.toUInt8.toNat
/-- Writes a two-byte signed integer. -/
def encodeI16 (x : Int16) : List UInt8 := word 2 x.toUInt16.toNat
/-- Writes a four-byte signed integer. -/
def encodeI32 (x : Int32) : List UInt8 := word 4 x.toUInt32.toNat
/-- Writes an eight-byte signed integer. -/
def encodeI64 (x : Int64) : List UInt8 := word 8 x.toUInt64.toNat

/-- Reads a one-byte signed integer. -/
def decodeI8 : Decoder Int8 := do
  let bs ← Decoder.take 1
  pure (UInt8.ofNat (ofWord bs)).toInt8
/-- Reads a two-byte signed integer. -/
def decodeI16 : Decoder Int16 := do
  let bs ← Decoder.take 2
  pure (UInt16.ofNat (ofWord bs)).toInt16
/-- Reads a four-byte signed integer. -/
def decodeI32 : Decoder Int32 := do
  let bs ← Decoder.take 4
  pure (UInt32.ofNat (ofWord bs)).toInt32
/-- Reads an eight-byte signed integer. -/
def decodeI64 : Decoder Int64 := do
  let bs ← Decoder.take 8
  pure (UInt64.ofNat (ofWord bs)).toInt64

end MessageBroker.Wire
