/-!
# JSON strings

The quoted form of a string in JSON output: a quote and a backslash are escaped, the control
characters below U+0020 are written as `\b`, `\t`, `\n`, `\f`, `\r` or as `\u00xx` with
lowercase hex digits, and every other character stands as it is.

## Main definitions

* `Json.escapeChar`, `Json.quote`
-/

namespace MessageBroker.Text.Json

/-- A lowercase hex digit. -/
def hexDigit (n : Nat) : Char :=
  if n < 10 then Char.ofNat (48 + n) else Char.ofNat (87 + n)

/-- The characters that stand for one character inside a JSON string. -/
def escapeChar (c : Char) : List Char :=
  if c = '"' then ['\\', '"']
  else if c = '\\' then ['\\', '\\']
  else if c = '\n' then ['\\', 'n']
  else if c = '\r' then ['\\', 'r']
  else if c = '\t' then ['\\', 't']
  else if c.toNat = 8 then ['\\', 'b']
  else if c.toNat = 12 then ['\\', 'f']
  else if c.toNat < 32 then ['\\', 'u', '0', '0', hexDigit (c.toNat / 16), hexDigit (c.toNat % 16)]
  else [c]

/-- A string as a JSON string literal. -/
def quote (s : String) : String :=
  String.ofList ('"' :: s.toList.flatMap escapeChar ++ ['"'])

example : quote "a\"b\\\x01" = "\"a\\\"b\\\\\\u0001\"" := by decide

end MessageBroker.Text.Json
