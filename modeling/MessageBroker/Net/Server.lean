import MessageBroker.Net.Network
import MessageBroker.Net.Connection
import MessageBroker.Wire.Frame
/-!
# The server

The server listens on an address of its network, accepts connections and serves each with its
own handler over one shared broker. Clients connect, send frames or raw bytes, read frames, and
hang up; the server can be shut down, which stops every connection.

## Main definitions

* `Server.start`: binds the listener
* `Server`, `Server.Step`, `Server.Reply`, `Server.perform`
-/

namespace MessageBroker.Net

/-- A running server and the connections its clients opened, numbered from `0`. -/
structure Server where
  network : Network
  maxFrameSize : Nat
  broker : Broker
  /-- The client connections; a hung-up one leaves its number empty. -/
  connections : List (Option Connection)
  running : Bool

namespace Server

/-- Binds the listener on `host:port` and starts serving a fresh broker. -/
def start (network : Network) (host : String) (port maxFrameSize : Nat) :
    Except OsError Server := do
  network.bindHost host port
  pure ⟨network, maxFrameSize, Broker.create 1, [], true⟩

/-- What a client does. -/
inductive Step where
  | connect
  /-- sends one frame with this payload -/
  | send (conn : Nat) (payload : List UInt8)
  /-- sends bytes as they are -/
  | sendRaw (conn : Nat) (bytes : List UInt8)
  | recv (conn : Nat)
  | close (conn : Nat)
  /-- waits until the live subscriptions number `count` -/
  | waitActive (count : Nat)
  | shutdown

/-- What a step gives the client. -/
inductive Reply where
  | connected (conn : Nat)
  | failed (e : OsError)
  | noSuchConnection (conn : Nat)
  | done
  /-- a frame's payload, or none when the connection is closed -/
  | received (payload : Option (List UInt8))
  /-- the live subscriptions, and whether they reached the count waited for -/
  | active (n : Nat) (reached : Bool)

/-- Writes out what every stream has for its client. -/
def pumpAll (s : Server) : Server :=
  let r := s.connections.foldl (fun (acc : Broker × List (Option Connection)) c =>
    match c with
    | some c => let x := Connection.pump acc.1 c; (x.1, acc.2 ++ [some x.2])
    | none => (acc.1, acc.2 ++ [none])) (s.broker, [])
  { s with broker := r.1, connections := r.2 }

/-- Serves a step on a connection that is there. -/
def withConnection (s : Server) (conn : Nat) (f : Connection → Server × Reply) : Server × Reply :=
  match (s.connections[conn]?).bind id with
  | some c => f c
  | none => (s, .noSuchConnection conn)

/-- Hands bytes to a connection's handler, then lets every stream write. -/
def deliver (s : Server) (now : Instant) (conn : Nat) (c : Connection) (bytes : List UInt8) :
    Server × Reply :=
  let r := Connection.receive s.maxFrameSize now s.broker c bytes
  (pumpAll { s with broker := r.1, connections := s.connections.set conn (some r.2) }, .done)

/-- Serves one step at the instant `now`. -/
def perform (s : Server) (now : Instant) : Step → Server × Reply
  | .connect =>
    match s.network.connect with
    | .error e => (s, .failed e)
    | .ok () =>
      if s.running then
        ({ s with connections := s.connections ++ [some Connection.fresh] },
          .connected s.connections.length)
      else (s, .failed .connectionRefused)
  | .send conn payload => s.withConnection conn fun c =>
    match Wire.frame payload with
    | .ok bytes => s.deliver now conn c bytes
    | .error _ => (s, .done)
  | .sendRaw conn bytes => s.withConnection conn fun c => s.deliver now conn c bytes
  | .recv conn => s.withConnection conn fun c =>
    match c.outbound with
    | p :: rest =>
      ({ s with connections := s.connections.set conn (some { c with outbound := rest }) },
        .received (some p))
    | [] => (s, .received none)
  | .close conn => s.withConnection conn fun c =>
    ({ s with broker := Connection.hangUp s.broker c, connections := s.connections.set conn none },
      .done)
  | .waitActive count => (s, .active s.broker.active (s.broker.active == count))
  | .shutdown =>
    let r := s.connections.foldl (fun (acc : Broker × List (Option Connection)) c =>
      match c with
      | some c => let x := Connection.stop acc.1 c; (x.1, acc.2 ++ [some x.2])
      | none => (acc.1, acc.2 ++ [none])) (s.broker, [])
    ({ s with broker := r.1, connections := r.2, running := false }, .done)

end Server

end MessageBroker.Net
