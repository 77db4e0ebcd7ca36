/-!
# Marks in terminal text

Error and help texts mark some of their words: the `error:` label bold and red, a refused word
yellow, a suggestion green, option names bold, headings bold and underlined. A mark is an ANSI
escape sequence per effect, and a reset after the word. Marks are written when the environment
forces colour (`CLICOLOR_FORCE` set to any text but the empty one) and does not forbid it
(`NO_COLOR` likewise, which wins); output that is not a terminal is otherwise left plain.

## Main definitions

* `Mark`, `Mark.code`, `paint`
* `colorWanted`: whether the environment asks for marks

## Main results

* `paint_false`: without marks a word is written as it is
-/

namespace MessageBroker.Cli

/-- The kinds of marked words. -/
inductive Mark where
  /-- the `error:` label -/
  | error
  /-- a word that was refused -/
  | invalid
  /-- a suggestion -/
  | valid
  /-- an option or program name -/
  | literal
  /-- a heading -/
  | header
  deriving DecidableEq, Repr

/-- The escape sequences that start a mark. -/
def Mark.code : Mark → String
  | .error => "\x1b[1m\x1b[31m"
  | .invalid => "\x1b[33m"
  | .valid => "\x1b[32m"
  | .literal => "\x1b[1m"
  | .header => "\x1b[1m\x1b[4m"

/-- The escape sequence that ends every mark. -/
def resetCode : String := "\x1b[0m"

/-- A word with its mark when marks are wanted, and as it is otherwise. -/
def paint (color : Bool) (m : Mark) (s : String) : String :=
  if color then m.code ++ s ++ resetCode else s

/-- Whether the environment asks for marks: `CLICOLOR_FORCE` is set and not empty, and
`NO_COLOR` is not. -/
def colorWanted (env : String → Option String) : Bool :=
  let given (name : String) : Bool := match env name with
    | some v => !v.isEmpty
    | none => false
  !given "NO_COLOR" && given "CLICOLOR_FORCE"

@[simp] theorem paint_false (m : Mark) (s : String) : paint false m s = s := rfl

end MessageBroker.Cli
