import MessageBroker.Text.Decimal
/-!
# Instants and spans of time

An instant is a count of nanoseconds since 1970-01-01T00:00:00Z, inside the range of the
calendar the broker stamps messages with: from -262143-01-02T00:00:00 to
+262142-12-31T23:59:59.999999999. A span is an unsigned length of time in whole seconds and
nanoseconds. A time to live is a span; it is added to the clock to give an expiry, and it must
first fit a signed clock offset, which holds at most `2 ^ 63 - 1` milliseconds.

## Main definitions

* `Instant`, `Instant.ofMillis?`: instants and the milliseconds that name one
* `Span`, `Span.ofMillis`, `Span.render`, `Span.renderIso`
* `ExpiryError`, `expiryAfter`: the expiry a time to live gives at an instant
-/

namespace MessageBroker

/-- A point in time: nanoseconds since 1970-01-01T00:00:00Z. -/
structure Instant where
  nanos : Int
  deriving DecidableEq, Repr

namespace Instant

/-- Milliseconds from the epoch to the first instant of the calendar, -262143-01-02T00:00:00. -/
def minMillis : Int := -8334601228800000

/-- Milliseconds from the epoch to the last millisecond of the calendar,
+262142-12-31T23:59:59.999. -/
def maxMillis : Int := 8210266876799999

/-- The last instant of the calendar, +262142-12-31T23:59:59.999999999. -/
def last : Instant := ⟨maxMillis * 1000000 + 999999⟩

/-- The instant a count of milliseconds names, when it is inside the calendar. -/
def ofMillis? (ms : Int) : Option Instant :=
  if minMillis ≤ ms ∧ ms ≤ maxMillis then some ⟨ms * 1000000⟩ else none

instance : LE Instant := ⟨fun a b => a.nanos ≤ b.nanos⟩

instance (a b : Instant) : Decidable (a ≤ b) := inferInstanceAs (Decidable (a.nanos ≤ b.nanos))

end Instant

/-- An unsigned length of time: whole seconds and the nanoseconds below one second. -/
structure Span where
  secs : Nat
  nanos : Nat
  deriving DecidableEq, Repr

namespace Span

/-- Nanoseconds in a second. -/
def nanosPerSec : Nat := 1000000000

/-- The whole length in nanoseconds. -/
def total (d : Span) : Nat := d.secs * nanosPerSec + d.nanos

/-- A length given in milliseconds. -/
def ofMillis (ms : Nat) : Span := ⟨ms / 1000, ms % 1000 * 1000000⟩

/-- Whether the span is no time at all. -/
def isZero (d : Span) : Bool := d.secs == 0 && d.nanos == 0

/-- The longest span a signed clock offset holds: `2 ^ 63 - 1` milliseconds. -/
def limit : Span := ⟨9223372036854775, 807000000⟩

/-- The digits of a fraction written with `width` places, trailing zeros dropped. -/
def fractionDigits (frac width : Nat) : String :=
  let padded := String.ofList (List.replicate (width - (toString frac).length) '0') ++ toString frac
  String.ofList (padded.toList.reverse.dropWhile (· = '0')).reverse

/-- A whole number and a fraction of `width` places: the fraction, trailing zeros dropped,
follows a point, and is left out when it is zero. -/
def decimalText (whole frac width : Nat) : String :=
  if frac = 0 then toString whole else toString whole ++ "." ++ fractionDigits frac width

/-- The short form of a span: seconds with `s` when there is a whole second, else milliseconds
with `ms`, microseconds with `µs` or nanoseconds with `ns`, in the largest unit that is at least
one; the rest is a fraction without trailing zeros. -/
def render (d : Span) : String :=
  if 0 < d.secs then decimalText d.secs d.nanos 9 ++ "s"
  else if 1000000 ≤ d.nanos then decimalText (d.nanos / 1000000) (d.nanos % 1000000) 6 ++ "ms"
  else if 1000 ≤ d.nanos then decimalText (d.nanos / 1000) (d.nanos % 1000) 3 ++ "µs"
  else toString d.nanos ++ "ns"

/-- The ISO 8601 form of a span as a clock offset: `PT` and the seconds with their fraction,
then `S`; no time at all is `P0D`. -/
def renderIso (d : Span) : String :=
  if d.isZero then "P0D" else "PT" ++ decimalText d.secs d.nanos 9 ++ "S"

example : render ⟨18446744073709551615, 999999999⟩ = "18446744073709551615.999999999s" := by
  decide
example : renderIso (ofMillis 8300000000000050) = "PT8300000000000.05S" := by decide

end Span

/-- Why a time to live gives no expiry. -/
inductive ExpiryError where
  /-- the span does not fit a clock offset -/
  | tooLarge (ttl : Span)
  /-- the expiry falls after the last instant of the calendar -/
  | overflows (ttl : Span)
  deriving DecidableEq

/-- The wording of each expiry failure. -/
def ExpiryError.message : ExpiryError → String
  | .tooLarge d => "TTL " ++ d.render ++ " is too large"
  | .overflows d => "TTL " ++ d.renderIso ++ " overflows the clock"

/-- The expiry of a message published at `now` with a time to live: none for a zero span;
otherwise the span must fit a clock offset, and `now` plus the span must be an instant of the
calendar. -/
def expiryAfter (now : Instant) (ttl : Span) : Except ExpiryError (Option Instant) :=
  if ttl.isZero then .ok none
  else if Span.limit.total < ttl.total then .error (.tooLarge ttl)
  else
    let expiry : Int := now.nanos + ttl.total
    if Instant.last.nanos < expiry then .error (.overflows ttl) else .ok (some ⟨expiry⟩)

end MessageBroker
