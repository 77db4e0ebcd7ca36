import MessageBroker.Text.Utf8
/-!
# Text on a stream that is not a terminal

Log lines go to a stream that is not a terminal with their terminal controls taken out: escape
sequences, and control characters other than the ASCII blanks (tab, line feed, form feed and
carriage return), are dropped, and so is `DEL`. What counts as an escape sequence is decided
by the reader of the DEC terminals, byte by byte: `ESC` opens a sequence, and the bytes up to
the one that ends it, by the rules of its kind (control sequence, device control string,
operating system command, ...), belong to it.

The bytes are read in two alternating modes. *Skipping*, each byte moves the reader's state,
and the first byte that can be written (a printable ASCII byte, the first byte of a multi-byte
character, or an ASCII blank in a state that executes controls) starts *copying*. *Copying*,
each byte is judged as if the reader stood in its ground state, though only a change of state
that the byte calls for is made; the first byte that cannot be written goes back to skipping,
judged from the state it left. A multi-byte character is copied whole once its first byte is.
So a blank inside an escape sequence is written, and the printable bytes after it too, while
the reader still stands in the sequence.

## Main definitions

* `State`, `Action`, `change`: the reader of escape sequences
* `skipByte`, `copyByte`, `plainFrom`: the two modes
* `plain`: a text as the stream receives it

## Main results

* `copyByte_printable`: a printable ASCII byte is written from the ground state
-/

namespace MessageBroker.Text.Terminal

/-- Where the reader of escape sequences stands. -/
inductive State where
  /-- between sequences -/
  | ground
  /-- after `ESC` -/
  | escape
  /-- after `ESC` and intermediate bytes -/
  | escapeIntermediate
  /-- at the start of a control sequence, after `ESC [` -/
  | csiEntry
  /-- in the parameters of a control sequence -/
  | csiParam
  /-- in the intermediate bytes of a control sequence -/
  | csiIntermediate
  /-- in a malformed control sequence, up to its final byte -/
  | csiIgnore
  /-- at the start of a device control string, after `ESC P` -/
  | dcsEntry
  /-- in the parameters of a device control string -/
  | dcsParam
  /-- in the intermediate bytes of a device control string -/
  | dcsIntermediate
  /-- in the data of a device control string -/
  | dcsPassthrough
  /-- in a malformed device control string -/
  | dcsIgnore
  /-- in an operating system command, after `ESC ]` -/
  | oscString
  /-- in a start-of-string, privacy or application string -/
  | sosPmApcString
  /-- inside a multi-byte character, with this many of its bytes still to come -/
  | utf8 (remaining : Nat)
  deriving DecidableEq, Repr

/-- What a byte does, as far as writing goes: it is printed, it is a control that is
executed, it starts a multi-byte character, or something else (it is collected, ignored, or
ends a sequence). -/
inductive Action where
  | print
  | execute
  | beginUtf8
  | other
  deriving DecidableEq, Repr

/-- The C0 controls that a state handles itself: all but `CAN`, `SUB` and `ESC`, which act
from every state. -/
def isC0 (n : Nat) : Bool :=
  n ≤ 0x17 || n = 0x19 || (0x1C ≤ n && n ≤ 0x1F)

/-- Whether `n` lies in `[lo, hi]`. -/
def within (lo hi n : Nat) : Bool :=
  lo ≤ n && n ≤ hi

/-- The state a byte leads to, `none` to stay, and what it does. `CAN` and `SUB` end any
sequence, `ESC` opens one; the rest depends on the state. -/
def change (s : State) (b : UInt8) : Option State × Action :=
  let n := b.toNat
  if n = 0x18 ∨ n = 0x1A then (some .ground, .execute)
  else if n = 0x1B then (some .escape, .other)
  else
    match s with
    | .ground =>
      if isC0 n then (none, .execute)
      else if n ≤ 0x7F then (none, .print)
      else if n ≤ 0x8F || within 0x91 0x9A n || n = 0x9C then (none, .execute)
      else if within 0xC2 0xDF n then (some (.utf8 2), .beginUtf8)
      else if within 0xE0 0xEF n then (some (.utf8 3), .beginUtf8)
      else if within 0xF0 0xF4 n then (some (.utf8 4), .beginUtf8)
      else (none, .other)
    | .escape =>
      if isC0 n then (none, .execute)
      else if within 0x20 0x2F n then (some .escapeIntermediate, .other)
      else if n = 0x5B then (some .csiEntry, .other)
      else if n = 0x5D then (some .oscString, .other)
      else if n = 0x50 then (some .dcsEntry, .other)
      else if n = 0x58 || n = 0x5E || n = 0x5F then (some .sosPmApcString, .other)
      else if within 0x30 0x7E n then (some .ground, .other)
      else (none, .other)
    | .escapeIntermediate =>
      if isC0 n then (none, .execute)
      else if within 0x30 0x7E n then (some .ground, .other)
      else (none, .other)
    | .csiEntry =>
      if isC0 n then (none, .execute)
      else if within 0x20 0x2F n then (some .csiIntermediate, .other)
      else if within 0x30 0x3F n then (some .csiParam, .other)
      else if within 0x40 0x7E n then (some .ground, .other)
      else (none, .other)
    | .csiParam =>
      if isC0 n then (none, .execute)
      else if within 0x3C 0x3F n then (some .csiIgnore, .other)
      else if within 0x20 0x2F n then (some .csiIntermediate, .other)
      else if within 0x40 0x7E n then (some .ground, .other)
      else (none, .other)
    | .csiIntermediate =>
      if isC0 n then (none, .execute)
      else if within 0x30 0x3F n then (some .csiIgnore, .other)
      else if within 0x40 0x7E n then (some .ground, .other)
      else (none, .other)
    | .csiIgnore =>
      if isC0 n then (none, .execute)
      else if within 0x40 0x7E n then (some .ground, .other)
      else (none, .other)
    | .dcsEntry =>
      if within 0x20 0x2F n then (some .dcsIntermediate, .other)
      else if within 0x30 0x3F n then (some .dcsParam, .other)
      else if within 0x40 0x7E n then (some .dcsPassthrough, .other)
      else (none, .other)
    | .dcsParam =>
      if within 0x3C 0x3F n then (some .dcsIgnore, .other)
      else if within 0x20 0x2F n then (some .dcsIntermediate, .other)
      else if within 0x40 0x7E n then (some .dcsPassthrough, .other)
      else (none, .other)
    | .dcsIntermediate =>
      if within 0x30 0x3F n then (some .dcsIgnore, .other)
      else if within 0x40 0x7E n then (some .dcsPassthrough, .other)
      else (none, .other)
    | .dcsPassthrough | .dcsIgnore | .sosPmApcString =>
      if n = 0x9C then (some .ground, .other) else (none, .other)
    | .oscString =>
      if n = 0x07 then (some .ground, .other) else (none, .other)
    | .utf8 _ => (none, .other)

/-- Whether a byte with this action can be written: a printed byte other than `DEL`, the
start of a character, or an executed ASCII blank. -/
def writable (a : Action) (b : UInt8) : Bool :=
  (a == .print && b != 0x7F) || a == .beginUtf8 ||
    (a == .execute && (b == 0x09 || b == 0x0A || b == 0x0C || b == 0x0D))

/-- The state after one more byte of a multi-byte character. -/
def State.fed (remaining : Nat) : State :=
  if remaining ≤ 1 then .ground else .utf8 (remaining - 1)

/-- A byte met while skipping: whether it starts copying (and is written), and the state
after it. -/
def skipByte (s : State) (b : UInt8) : Bool × State :=
  match s with
  | .utf8 k => (true, State.fed k)
  | _ =>
    let (next, a) := change s b
    let s' := next.getD s
    if writable a b then
      match s' with
      | .utf8 k => (true, State.fed k)
      | _ => (true, s')
    else (false, s')

/-- A byte met while copying: whether it is written, and the state after it. A byte that
cannot be written is judged again as skipping, from the state it leads to. -/
def copyByte (s : State) (b : UInt8) : Bool × State :=
  match s with
  | .utf8 k => (true, State.fed k)
  | _ =>
    let (next, a) := change .ground b
    let s' := next.getD s
    match s' with
    | .utf8 k => (true, State.fed k)
    | _ => if writable a b then (true, s') else skipByte s' b

/-- The written bytes of a byte list, from a mode (copying or skipping) and a state. The mode
after a byte is copying exactly when the byte was written. -/
def plainFrom (copying : Bool) (s : State) : List UInt8 → List UInt8
  | [] => []
  | b :: bs =>
    let (written, s') := if copying then copyByte s b else skipByte s b
    if written then b :: plainFrom true s' bs else plainFrom false s' bs

/-- A text as the stream receives it. Only whole characters are written, so the bytes are
UTF-8 again; the decoding falls back to the empty text, which it never needs. -/
def plain (s : String) : String :=
  (Utf8.decode? (plainFrom false .ground (Utf8.encode s))).getD ""

/-- A printable ASCII byte is written from the ground state, in either mode. -/
theorem copyByte_printable {b : UInt8} (lo : 0x20 ≤ b.toNat) (hi : b.toNat < 0x7F) :
    copyByte .ground b = (true, .ground) := by
  have h18 : b.toNat ≠ 0x18 := by omega
  have h1a : b.toNat ≠ 0x1A := by omega
  have h1b : b.toNat ≠ 0x1B := by omega
  have hc : isC0 b.toNat = false := by simp [isC0]; omega
  have hp : b.toNat ≤ 0x7F := by omega
  have hd : b ≠ 0x7F := by
    intro e; subst e; simp at hi
  simp [copyByte, change, h18, h1a, h1b, hc, hp, writable, hd]

end MessageBroker.Text.Terminal
