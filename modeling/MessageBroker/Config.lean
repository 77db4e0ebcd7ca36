import MessageBroker.Text.Decimal
import MessageBroker.Text.Split
import MessageBroker.Text.Json
/-!
# Configuration

What a broker starts with: the address it listens on and the largest frame it accepts, the
partition count of topics created by a first publish, and topics to create at startup, each
written `name` or `name:partitions`.

## Main definitions

* `TopicProvision`, `ProvisionError`, `TopicProvision.parse`, `TopicProvision.render`
* `ServerConfig`, `BrokerConfig`, with their defaults and `BrokerConfig.toJson`
-/

namespace MessageBroker

/-- A topic to create at startup, with its number of partitions. -/
structure TopicProvision where
  name : String
  partitions : Nat
  deriving DecidableEq, Repr

/-- Why a text is not a topic provision. -/
inductive ProvisionError where
  /-- the text after the first `:` is not a 64-bit unsigned count -/
  | badCount (text : String)
  /-- the name before the `:` is empty -/
  | missingName (text : String)
  /-- the count is zero -/
  | noPartitions (name : String)
  deriving DecidableEq, Repr

/-- The wording of each provision error. -/
def ProvisionError.message : ProvisionError → String
  | .badCount s => "invalid partition count in '" ++ s ++ "'"
  | .missingName s => "missing topic name in '" ++ s ++ "'"
  | .noPartitions n => "topic '" ++ n ++ "' needs at least one partition"

namespace TopicProvision

/-- Reads `name` or `name:count`, cut at the first `:`. The count is checked first, then the
name, then that the count is not zero; without a `:` the count is one. -/
def parse (s : String) : Except ProvisionError TopicProvision :=
  let parts : Except ProvisionError (String × Nat) :=
    match Text.splitFirst? ':' s with
    | some (name, count) =>
      match Text.readU64 count with
      | .ok n => .ok (name, n)
      | .error _ => .error (.badCount s)
    | none => .ok (s, 1)
  match parts with
  | .error e => .error e
  | .ok (name, n) =>
    if name.isEmpty then .error (.missingName s)
    else if n = 0 then .error (.noPartitions name)
    else .ok ⟨name, n⟩

/-- The written form `name:count`. -/
def render (p : TopicProvision) : String :=
  p.name ++ ":" ++ toString p.partitions

end TopicProvision

/-- Where the server listens and the largest request frame it accepts. -/
structure ServerConfig where
  host : String
  port : Nat
  maxFrameSize : Nat
  deriving DecidableEq, Repr

/-- The server's defaults: `127.0.0.1`, port 9092, frames of at most one mebibyte. -/
def ServerConfig.default : ServerConfig := ⟨"127.0.0.1", 9092, 1048576⟩

/-- The address `host:port`, the host as written (no brackets around an IPv6 host). -/
def ServerConfig.address (c : ServerConfig) : String :=
  c.host ++ ":" ++ toString c.port

/-- All a broker starts with. -/
structure BrokerConfig where
  server : ServerConfig
  defaultPartitions : Nat
  topics : List TopicProvision
  deriving DecidableEq, Repr

/-- The defaults: the default server, one partition per new topic, no topic to create. -/
def BrokerConfig.default : BrokerConfig := ⟨ServerConfig.default, 1, []⟩

/-- The configuration as compact JSON, fields in the order server (host, port,
max_frame_size), storage (default_partitions), topics (name, partitions). -/
def BrokerConfig.toJson (c : BrokerConfig) : String :=
  let topic (p : TopicProvision) : String :=
    "\x7b\"name\":" ++ Text.Json.quote p.name ++ ",\"partitions\":" ++ toString p.partitions ++
      "\x7d"
  "\x7b\"server\":\x7b\"host\":" ++ Text.Json.quote c.server.host ++
    ",\"port\":" ++ toString c.server.port ++
    ",\"max_frame_size\":" ++ toString c.server.maxFrameSize ++
    "\x7d,\"storage\":\x7b\"default_partitions\":" ++ toString c.defaultPartitions ++
    "\x7d,\"topics\":[" ++ ",".intercalate (c.topics.map topic) ++ "]\x7d"

end MessageBroker
