import MessageBroker.Cli.Options
import MessageBroker.Cli.Similarity
/-!
# Reading the command line

The words are read left to right. `--` makes every later word a stray one. `--name` names an
option, its value either attached as `--name=value` or the next word; `-x` names one by its
letter, its value attached (`-p5`, `-p=5`) or the next word. A value is checked only when the
next option is read or the words end, so a stray or unknown word is reported before a bad value
that came earlier. An option that takes one value may be given once; `--topic` may be given
again and again, each value split at commas. After the words, the options not given take the
value of their environment variable, if it is set.

## Main definitions

* `Matches`, `Stop`, `Stop.report`
* `Reader`, `Reader.word`, `readArgs`
-/

namespace MessageBroker.Cli

/-- The values read so far, and the options given, in the order each was first given. -/
structure Matches where
  given : List Flag
  host : Option String
  port : Option Nat
  maxFrameSize : Option Nat
  defaultPartitions : Option Nat
  topics : List TopicProvision

/-- Nothing read yet. -/
def Matches.empty : Matches := ⟨[], none, none, none, none, []⟩

/-- Where a value comes from: a value named on the command line must be there. -/
inductive Source where
  | commandLine
  | environment
  deriving DecidableEq

/-- Why reading stops before a configuration. -/
inductive Stop where
  | help
  | version
  /-- a word that names no option, an option with a similar name, and the options given, which
  the usage line lists -/
  | unknown (word : String) (similar : Option Flag) (given : List Flag)
  /-- a value attached to a flag, and whether a setting was given, which the usage line shows
  as the group of the settings -/
  | unexpectedValue (value : String) (flag : Flag) (grouped : Bool)
  | repeated (flag : Flag)
  | missingValue (flag : Flag)
  /-- a value as shown, its option, and why it is no value of it -/
  | invalidValue (value : String) (flag : Flag) (reason : String)

/-- The error text of a stop that is an error: the message, then a suggestion, then a usage
line, then where to look for help; marked when `color` holds. -/
def Stop.report (color : Bool) (stop : Stop) : String :=
  let p := paint color
  let usage (parts : List String) : String := "\n\n" ++ usageLine color parts
  let body : String × String :=
    match stop with
    | .help => ("", "")
    | .version => ("", "")
    | .unknown word similar given =>
      let tip :=
        match similar with
        | some f => "\n\n  " ++ p .valid "tip:" ++ " a similar argument exists: '" ++
            p .valid ("--" ++ f.long) ++ "'"
        | none => ""
      ("unexpected argument '" ++ p .invalid word ++ "' found" ++ tip,
        usage (given.map (Flag.usageSpec color)))
    | .unexpectedValue value f grouped =>
      ("unexpected value '" ++ p .invalid value ++ "' for '" ++ p .literal f.spec ++
          "' found; no more were expected",
        usage (f.usageSpec color :: if grouped then [settingsGroup] else []))
    | .repeated f =>
      ("the argument '" ++ p .invalid f.spec ++ "' cannot be used multiple times", usage [])
    | .missingValue f =>
      ("a value is required for '" ++ p .invalid f.spec ++ "' but none was supplied", "")
    | .invalidValue value f reason =>
      ("invalid value '" ++ p .invalid value ++ "' for '" ++ p .literal f.spec ++ "': " ++ reason,
        "")
  p .error "error:" ++ " " ++ body.1 ++ body.2 ++ "\n\nFor more information, try '" ++
    p .literal "--help" ++ "'.\n"

namespace Matches

/-- Marks an option as given, keeping the place of its first mention. -/
def record (m : Matches) (f : Flag) : Matches :=
  if f ∈ m.given then m else { m with given := m.given ++ [f] }

/-- Reads topic provisions; the first that fails is answered with its reason. -/
def readTopics : List String → Except (String × String) (List TopicProvision)
  | [] => .ok []
  | w :: ws =>
    match TopicProvision.parse w with
    | .error e => .error (w, e.message)
    | .ok p => (readTopics ws).map (p :: ·)

/-- Stores the value of an option that takes one value. -/
def store (m : Matches) (f : Flag) (v : String) : Matches × Option Stop :=
  let checked (r : Except String Nat) (put : Nat → Matches) : Matches × Option Stop :=
    match r with
    | .ok n => (put n, none)
    | .error why => (m, some (.invalidValue v f why))
  match f with
  | .host => ({ m with host := some v }, none)
  | .port => checked (readPort v) fun n => { m with port := some n }
  | .maxFrameSize => checked (readSize v) fun n => { m with maxFrameSize := some n }
  | .defaultPartitions => checked (readSize v) fun n => { m with defaultPartitions := some n }
  | _ => (m, none)

/-- Applies one mention of an option with its values. A mention on the command line without a
value is refused first. A second mention of a one-value option is refused, and forgets the
first. Otherwise the option counts as given even when its value is refused. -/
def apply (m : Matches) (src : Source) (f : Flag) (vals : List String) : Matches × Option Stop :=
  if src = .commandLine ∧ f.takesValue ∧ vals = [] then (m, some (.missingValue f))
  else
    match f with
    | .help => (m, some .help)
    | .version => (m, some .version)
    | .topic =>
      let m := m.record .topic
      match readTopics (vals.flatMap (·.splitOn ",")) with
      | .ok ts => ({ m with topics := m.topics ++ ts }, none)
      | .error (w, why) => (m, some (.invalidValue w .topic why))
    | f =>
      if f ∈ m.given then ({ m with given := m.given.erase f }, some (.repeated f))
      else
        match vals with
        | v :: _ => (m.record f).store f v
        | [] => (m.record f, none)

end Matches

/-- The state between two words. -/
structure Reader where
  found : Matches
  /-- an option read without its value applied yet, and the values read for it -/
  pending : Option (Flag × List String)
  /-- the option whose value the next word is -/
  awaiting : Option Flag
  /-- whether `--` has been read -/
  escaped : Bool

namespace Reader

/-- Before the first word. -/
def start : Reader := ⟨Matches.empty, none, none, false⟩

/-- Applies the pending option, if any. -/
def settle (r : Reader) : Reader × Option Stop :=
  match r.pending with
  | none => (r, none)
  | some (f, vals) =>
    let res := r.found.apply .commandLine f vals
    ({ r with found := res.1, pending := none }, res.2)

/-- Applies an option mentioned with its values, after the pending one. -/
def mention (r : Reader) (f : Flag) (vals : List String) : Except Stop Reader :=
  match r.settle with
  | (_, some stop) => .error stop
  | (r, none) =>
    match r.found.apply .commandLine f vals with
    | (_, some stop) => .error stop
    | (m, none) => .ok { r with found := m, awaiting := none }

/-- Starts an option whose value is the next word, after the pending one. -/
def expect (r : Reader) (f : Flag) : Except Stop Reader :=
  match r.settle with
  | (_, some stop) => .error stop
  | (r, none) => .ok { r with pending := some (f, []), awaiting := some f }

/-- A word that is neither an option nor a value is refused, before any failure of the pending
option. -/
def stray (_ : Reader) (w : String) : Except Stop Reader :=
  .error (.unknown w none [])

/-- A word `--name` or `--name=value`. An unknown name is refused, after the pending option is
applied, with the most similar long name, which joins the options shown in the usage line. A
value attached to a flag is refused with whether a setting was applied so far, the pending
one not counted. -/
def long (r : Reader) (name : String) (value : Option String) : Except Stop Reader :=
  match Flag.ofLong? name with
  | none =>
    let settled := r.settle.1
    let similar := (closest name (Flag.all.map Flag.long)).bind Flag.ofLong?
    let shown :=
      match similar with
      | some f => settled.found.record f
      | none => settled.found
    .error (.unknown ("--" ++ name) similar shown.given)
  | some f =>
    match f.takesValue, value with
    | true, some v => r.mention f [v]
    | true, none => r.expect f
    | false, some v => .error (.unexpectedValue v f (r.found.given.any Flag.isSetting))
    | false, none => r.mention f []

/-- The letters of a word `-xyz`, read one by one: a letter that takes a value takes the rest
of the word, after an optional `=`, or else the next word. -/
def short (r : Reader) : List Char → Except Stop Reader
  | [] => .ok r
  | c :: rest =>
    match Flag.ofShort? c with
    | none => .error (.unknown ("-" ++ c.toString) none [])
    | some f =>
      if f.takesValue then
        match rest with
        | [] => r.expect f
        | '=' :: v => r.mention f [String.ofList v]
        | v => r.mention f [String.ofList v]
      else
        match r.mention f [] with
        | .ok r => short r rest
        | .error stop => .error stop

/-- Reads one word. -/
def word (r : Reader) (w : String) : Except Stop Reader :=
  if r.escaped then r.stray w
  else
    match w.toList with
    | ['-', '-'] => .ok { r with escaped := true }
    | '-' :: '-' :: rest =>
      match Text.splitFirst? '=' (String.ofList rest) with
      | some (name, value) => r.long name (some value)
      | none => r.long (String.ofList rest) none
    | '-' :: c :: rest => r.short (c :: rest)
    | _ =>
      match r.awaiting with
      | some f => .ok { r with pending := some (f, [w]), awaiting := none }
      | none => r.stray w

/-- Reads the words in order. -/
def words (r : Reader) : List String → Except Stop Reader
  | [] => .ok r
  | w :: ws =>
    match r.word w with
    | .ok r => words r ws
    | .error stop => .error stop

end Reader

/-- Fills the options not given from their environment variables, in the order of the help. -/
def fromEnvironment (env : String → Option String) (m : Matches) : List Flag → Except Stop Matches
  | [] => .ok m
  | f :: fs =>
    match f.envVar?.bind env with
    | some v =>
      if f ∈ m.given then fromEnvironment env m fs
      else
        match m.apply .environment f [v] with
        | (_, some stop) => .error stop
        | (m, none) => fromEnvironment env m fs
    | none => fromEnvironment env m fs

/-- Reads the command line, then the environment. -/
def readArgs (args : List String) (env : String → Option String) : Except Stop Matches :=
  match Reader.start.words args with
  | .error stop => .error stop
  | .ok r =>
    match r.settle with
    | (_, some stop) => .error stop
    | (r, none) => fromEnvironment env r.found Flag.all

/-- The configuration the options describe: defaults for what is not given, and at least one
partition for topics created by a first publish. -/
def Matches.config (m : Matches) : BrokerConfig :=
  ⟨⟨m.host.getD "127.0.0.1", m.port.getD 9092, m.maxFrameSize.getD 1048576⟩,
    max (m.defaultPartitions.getD 1) 1, m.topics⟩

end MessageBroker.Cli
