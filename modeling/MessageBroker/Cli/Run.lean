import MessageBroker.Cli.Parse
import MessageBroker.Broker
import MessageBroker.Storage
import MessageBroker.Net.Network
import MessageBroker.Text.Terminal
/-!
# A run of the broker program

The program reads its command line and environment, prints its configuration, creates the
topics it was told to provision, in order, and binds its listener. Help and version end the run
with status `0`, a command-line error with status `2`, a refused topic name or a failed bind with
`Error: ` and the reason, status `1`. A server that listens runs until it is interrupted, which
ends it with status `0`; one that is not interrupted is still running when it is given up on.

The configuration and the provisioned topics are reported in the log, whose lines reach a stream
that is not a terminal: they are shown as that stream receives them (`Text.Terminal.plain`), so
a control character in a topic name is not part of its report line, and `DEL`, which the JSON
form leaves unescaped, is not part of the configuration's JSON text. The help text and the
command-line errors are written with their marks and reach their streams the same way unless
colour is asked for: the marks are taken out, and so are the controls in the words they repeat
from the command line and the environment. A mark that follows such a word can end an escape
sequence the word left open.

## Main definitions

* `Outcome`: what a run shows
* `provision`: creating the configured topics
* `run`
-/

namespace MessageBroker.Cli

/-- What a run shows: its exit status (none when it did not end), whether it was given up on,
its output and error text, the JSON text of the configuration it read and the report lines of
the topics it provisioned, both as the log shows them, and whether it came to listen. -/
structure Outcome where
  exitCode : Option Nat
  timedOut : Bool
  stdout : String
  stderr : String
  config : Option String
  provisioned : List String
  listening : Bool

/-- Creates the topics in order, each with the partitions `""`, `"1"`, ...; answers the report
line of each created topic and the error that stopped the rest, if any. -/
def provision (b : Broker) : List TopicProvision → Broker × List String × Option BrokerError
  | [] => (b, [], none)
  | p :: ps =>
    match b.createTopic p.name (partitionKeys p.partitions) with
    | .error e => (b, [], some e)
    | .ok (b', info) =>
      let rest := provision b' ps
      (rest.1, Text.Terminal.plain ("Provisioned topic " ++ info.name ++ " with " ++
        toString info.partitions.length ++ " partitions") :: rest.2.1, rest.2.2)

/-- A run that ends before reading a configuration. -/
def Outcome.early (code : Nat) (stdout stderr : String) : Outcome :=
  ⟨some code, false, stdout, stderr, none, [], false⟩

/-- Runs the program with its words, its environment and its host's network; `interrupt` says
whether it is interrupted once it listens. -/
def run (args : List String) (env : String → Option String) (network : Net.Network)
    (interrupt : Bool) : Outcome :=
  let shown (t : String) : String := if colorWanted env then t else Text.Terminal.plain t
  match readArgs args env with
  | .error .help => .early 0 (shown (helpText true env)) ""
  | .error .version => .early 0 versionText ""
  | .error stop => .early 2 "" (shown (stop.report true))
  | .ok m =>
    let c := m.config
    let shown := Text.Terminal.plain c.toJson
    let made := provision (Broker.create c.defaultPartitions) c.topics
    let failed (why : String) : Outcome :=
      ⟨some 1, false, "", "Error: " ++ why ++ "\n", some shown, made.2.1, false⟩
    match made.2.2 with
    | some e => failed e.message
    | none =>
      match network.bindHost c.server.host c.server.port with
      | .error e => failed e.message
      | .ok () =>
        if interrupt then ⟨some 0, false, "", "", some shown, made.2.1, true⟩
        else ⟨none, true, "", "", some shown, made.2.1, false⟩

end MessageBroker.Cli
