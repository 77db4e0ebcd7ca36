import MessageBroker.Text.Quote
/-!
# Hexadecimal byte text

Bytes written as text, two hexadecimal digits a byte. The text is cut into pieces of two UTF-8
bytes from the left, and each piece is read as an unsigned number in base sixteen, which also
takes a leading `+` before a single digit. A text of odd byte length is refused before anything
is read; a piece that is not a number refuses the text; and a cut that would fall inside a
character stops the reading with the place of the cut and the character it would split, since
a piece of text has to end between characters.

Reading goes from the left, so the first bad piece decides: `"zzé"` is refused for its digits
before the cut inside `é` is reached.

## Main definitions

* `HexError`, with its wording `HexError.message`
* `hexValue?`, `pairValue?`: the value of a digit and of a two-character piece
* `readHex`: the bytes of a text

## Main results

* `readHex_nil`: the empty text is no bytes
* `readHexFrom_digits`: two hexadecimal digits read as their byte
-/

namespace MessageBroker.Text

/-- Why a text is not hexadecimal bytes. -/
inductive HexError where
  /-- the text has an odd number of UTF-8 bytes -/
  | oddLength
  /-- a two-byte piece that is not a number in base sixteen -/
  | badPair
  /-- a cut at byte `index` falls inside the character `c`, which starts at byte `start` -/
  | splitChar (index : Nat) (c : Char) (start : Nat)
  deriving DecidableEq, Repr

/-- The wording of each reading error. -/
def HexError.message : HexError → String
  | .oddLength => "odd hex length"
  | .badPair => "bad hex"
  | .splitChar i c s =>
    "end byte index " ++ toString i ++ " is not a char boundary; it is inside " ++
      quoteChar c ++ " (bytes " ++ toString s ++ ".." ++ toString (s + c.utf8Size) ++
      " of string)"

/-- The value of a hexadecimal digit, in either case. -/
def hexValue? (c : Char) : Option Nat :=
  if '0' ≤ c ∧ c ≤ '9' then some (c.toNat - 48)
  else if 'a' ≤ c ∧ c ≤ 'f' then some (c.toNat - 87)
  else if 'A' ≤ c ∧ c ≤ 'F' then some (c.toNat - 55)
  else none

/-- The value of a two-character piece: two digits, or `+` and one digit. -/
def pairValue? (a b : Char) : Option UInt8 :=
  match hexValue? a, hexValue? b with
  | some x, some y => some (UInt8.ofNat (x * 16 + y))
  | none, some y => if a = '+' then some (UInt8.ofNat y) else none
  | _, _ => none

/-- Reads the characters of a text of even byte length, the first of them at byte `pos`. A
one-byte character pairs with the next; if that one is longer, the cut falls inside it. A
two-byte character is a piece of its own, and no number; a longer one is cut inside. -/
def readHexFrom (pos : Nat) : List Char → Except HexError (List UInt8)
  | [] => .ok []
  | a :: rest =>
    if a.utf8Size = 1 then
      match rest with
      | [] => .error .oddLength
      | b :: rest' =>
        if b.utf8Size = 1 then
          match pairValue? a b with
          | some v => (v :: ·) <$> readHexFrom (pos + 2) rest'
          | none => .error .badPair
        else .error (.splitChar (pos + 2) b (pos + 1))
    else if a.utf8Size = 2 then .error .badPair
    else .error (.splitChar (pos + 2) a pos)

/-- The bytes written by a text: odd length first, then the pieces from the left. -/
def readHex (s : String) : Except HexError (List UInt8) :=
  if s.utf8ByteSize % 2 = 1 then .error .oddLength else readHexFrom 0 s.toList

/-- The empty text is no bytes. -/
theorem readHex_nil : readHex "" = .ok [] := rfl

/-- Two hexadecimal digits read as their byte, followed by what the rest reads as. -/
theorem readHexFrom_digits {a b : Char} {x y : Nat} (pos : Nat) (rest : List Char)
    (ha : hexValue? a = some x) (hb : hexValue? b = some y) (sa : a.utf8Size = 1)
    (sb : b.utf8Size = 1) :
    readHexFrom pos (a :: b :: rest) =
      (UInt8.ofNat (x * 16 + y) :: ·) <$> readHexFrom (pos + 2) rest := by
  simp [readHexFrom, sa, sb, pairValue?, ha, hb]

example : readHex "0aFf" = .ok [0x0A, 0xFF] ∧ readHex "+f" = .ok [0x0F] ∧
    readHex "abc" = .error .oddLength ∧ readHex "zz" = .error .badPair :=
  ⟨rfl, rfl, rfl, rfl⟩

example : readHex "aéb" = .error (.splitChar 2 'é' 1) ∧
    readHex "日日" = .error (.splitChar 2 '日' 0) ∧ readHex "é" = .error .badPair :=
  ⟨rfl, rfl, rfl⟩

end MessageBroker.Text
