import MessageBroker.Config
import MessageBroker.Text.Decimal
import MessageBroker.Cli.Style
/-!
# The options of the command line

The broker is started as `log-broker [OPTIONS]`. Every option but the help and version flags
takes one value and may instead come from an environment variable; all have a default but the
topic list. This module names the options and writes the help, version and usage texts.

## Main definitions

* `Flag`, with its long and short names, placeholder, environment variable and default
* `Flag.spec`: how an option is written in messages, `--port <PORT>`
* `helpText`, `versionText`, `usageLine`
* `readPort`, `readSize`: the readers of numeric values
-/

namespace MessageBroker.Cli

/-- The name the program is called by. -/
def programName : String := "log-broker"

/-- The program's version. -/
def programVersion : String := "0.1.0"

/-- What the program is, first line of its help. -/
def programSummary : String :=
  "An in-memory partitioned-log message broker with publish/subscribe streaming"

/-- The options of the command line, in the order the help lists them. -/
inductive Flag where
  | host
  | port
  | maxFrameSize
  | defaultPartitions
  | topic
  | help
  | version
  deriving DecidableEq, Repr

namespace Flag

/-- Every option, in the order the help lists them. -/
def all : List Flag := [.host, .port, .maxFrameSize, .defaultPartitions, .topic, .help, .version]

/-- The long name, written after `--`. -/
def long : Flag → String
  | .host => "host"
  | .port => "port"
  | .maxFrameSize => "max-frame-size"
  | .defaultPartitions => "default-partitions"
  | .topic => "topic"
  | .help => "help"
  | .version => "version"

/-- The one-letter name, written after `-`, for the options that have one. -/
def short? : Flag → Option Char
  | .host => some 'H'
  | .port => some 'p'
  | .help => some 'h'
  | .version => some 'V'
  | _ => none

/-- The name of the value an option takes; the flags take none. -/
def placeholder? : Flag → Option String
  | .host => some "HOST"
  | .port => some "PORT"
  | .maxFrameSize => some "MAX_FRAME_SIZE"
  | .defaultPartitions => some "DEFAULT_PARTITIONS"
  | .topic => some "TOPICS"
  | _ => none

/-- Whether the option takes a value. -/
def takesValue (f : Flag) : Bool := f.placeholder?.isSome

/-- The options that set the broker up, as against asking for help or the version: they form
one group in usage lines. -/
def settings : List Flag := [.host, .port, .maxFrameSize, .defaultPartitions, .topic]

/-- Whether an option is one of the `settings`. -/
def isSetting (f : Flag) : Bool := f.takesValue

/-- The environment variable an option's value may come from. -/
def envVar? : Flag → Option String
  | .host => some "BROKER_HOST"
  | .port => some "BROKER_PORT"
  | .maxFrameSize => some "BROKER_MAX_FRAME_SIZE"
  | .defaultPartitions => some "BROKER_DEFAULT_PARTITIONS"
  | .topic => some "BROKER_TOPICS"
  | _ => none

/-- The default value, as the help shows it. -/
def defaultText? : Flag → Option String
  | .host => some "127.0.0.1"
  | .port => some "9092"
  | .maxFrameSize => some "1048576"
  | .defaultPartitions => some "1"
  | _ => none

/-- What the option is for, as the help says it. -/
def about : Flag → String
  | .host => "Host to bind the server to"
  | .port => "Port to bind the server to"
  | .maxFrameSize => "Largest request frame accepted, in bytes"
  | .defaultPartitions => "Partitions given to topics created by their first publish"
  | .topic => "Topics to provision at startup, as `name` or `name:partitions`"
  | .help => "Print help"
  | .version => "Print version"

/-- The name of an option's value as it follows the option, ` <PORT>`; nothing for a flag. -/
def valueSuffix (f : Flag) : String :=
  match f.placeholder? with
  | some p => " <" ++ p ++ ">"
  | none => ""

/-- How messages write the option: its long name and the name of its value. -/
def spec (f : Flag) : String :=
  "--" ++ f.long ++ f.valueSuffix

/-- How usage lines write the option: the long name marked as a name, the value's name not. -/
def usageSpec (color : Bool) (f : Flag) : String :=
  paint color .literal ("--" ++ f.long) ++ f.valueSuffix

/-- The option of a long name. -/
def ofLong? (s : String) : Option Flag := all.find? (·.long == s)

/-- The option of a one-letter name. -/
def ofShort? (c : Char) : Option Flag := all.find? (·.short? == some c)

/-- The help's entry for an option: its names on one line, then what it is for, the value of
its environment variable as the environment holds it, and its default. The paragraph is
indented, every line of it, also the lines a value with line breaks makes. -/
def helpEntry (color : Bool) (env : String → Option String) (f : Flag) : String :=
  let names :=
    match f.short? with
    | some c => "  " ++ paint color .literal ("-" ++ c.toString) ++ ", " ++ f.usageSpec color
    | none => "      " ++ f.usageSpec color
  let envNote :=
    match f.envVar? with
    | some v => " [env: " ++ v ++ "=" ++ (env v).getD "" ++ "]"
    | none => ""
  let defaultNote :=
    match f.defaultText? with
    | some d => " [default: " ++ d ++ "]"
    | none => ""
  let indent := "\n          "
  names ++ indent ++ (f.about ++ envNote ++ defaultNote).replace "\n" indent ++ "\n"

end Flag

/-- The help text, which shows the environment's values of the options' variables. -/
def helpText (color : Bool) (env : String → Option String) : String :=
  programSummary ++ "\n\n" ++ paint color .header "Usage:" ++ " " ++
    paint color .literal programName ++ " [OPTIONS]\n\n" ++ paint color .header "Options:" ++ "\n" ++
    String.join (Flag.all.map (Flag.helpEntry color env))

/-- The version text. -/
def versionText : String := programName ++ " " ++ programVersion ++ "\n"

/-- The group of the settings in a usage line: `<--host <HOST>|--port <PORT>|...>`. -/
def settingsGroup : String :=
  "<" ++ "|".intercalate (Flag.settings.map Flag.spec) ++ ">"

/-- The usage line of an error, with the given parts after the program's name, or `[OPTIONS]`
when there are none. -/
def usageLine (color : Bool) (parts : List String) : String :=
  paint color .header "Usage:" ++ " " ++ paint color .literal programName ++ " " ++
    if parts.isEmpty then "[OPTIONS]" else " ".intercalate parts

/-- Reads a port: a 64-bit signed decimal, then within `0..=65535`. A failure answers the
reason; a number out of range is named by its value in it. -/
def readPort (s : String) : Except String Nat :=
  match Text.readInt (-9223372036854775808) 9223372036854775807 s with
  | .error e => .error e.message
  | .ok v => if 0 ≤ v ∧ v ≤ 65535 then .ok v.toNat else .error (toString v ++ " is not in 0..=65535")

/-- Reads a size: a 64-bit unsigned decimal. -/
def readSize (s : String) : Except String Nat :=
  (Text.readU64 s).mapError Text.IntError.message

example : readPort "+80" = .ok 80 := by rfl
example : readPort "+070000" = .error "70000 is not in 0..=65535" := by rfl

end MessageBroker.Cli
