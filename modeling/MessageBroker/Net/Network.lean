import MessageBroker.Net.Address
import MessageBroker.Text.Split
/-!
# The host's network

A server binds `host:port`. The host is read in this order: a bracketed IPv6 address with an
optional decimal zone (`[fe80::1%1]`); an IPv4 address in the classic numbers-and-dots form; an
IPv6 address with an optional zone after `%` (a decimal index, or for the addresses that take
one an interface name); a name in the hosts table, whatever its case; and otherwise a name to
ask the name service for. Each address found is tried in order, and the first bind that
succeeds wins; when none does, the failure of the last one is reported.

Binding follows the kernel's rules: IPv6 multicast is refused to a stream socket first; then
ports below 1024 need a privilege the server lacks; an IPv4 address (also mapped into IPv6) is
accepted, as the host allows binding addresses it does not own; the unspecified IPv6 address is
accepted; a link-local one needs the index of an existing interface; and any other IPv6 address
must be one of the host's own.

## Main definitions

* `OsError`: failures of the operating system, with their kinds and texts
* `Network`, `Network.resolve`, `Network.bindHost`
* `Network.offline`: a host whose loopback interface is down and that has no other
-/

namespace MessageBroker.Net

/-- Failures of the operating system's network calls. -/
inductive OsError where
  | permissionDenied
  | addrNotAvailable
  | invalidArgument
  | noSuchDevice
  | networkUnreachable
  | connectionRefused
  /-- the name service could not be reached -/
  | lookupFailed
  /-- a numeric address with a zone that names no interface -/
  | unknownName
  deriving DecidableEq, Repr

/-- The kind of each failure. -/
def OsError.kind : OsError → String
  | .permissionDenied => "PermissionDenied"
  | .addrNotAvailable => "AddrNotAvailable"
  | .invalidArgument => "InvalidInput"
  | .noSuchDevice => "Uncategorized"
  | .networkUnreachable => "NetworkUnreachable"
  | .connectionRefused => "ConnectionRefused"
  | .lookupFailed => "Uncategorized"
  | .unknownName => "Uncategorized"

/-- The text of each failure. -/
def OsError.message : OsError → String
  | .permissionDenied => "Permission denied (os error 13)"
  | .addrNotAvailable => "Cannot assign requested address (os error 99)"
  | .invalidArgument => "Invalid argument (os error 22)"
  | .noSuchDevice => "No such device (os error 19)"
  | .networkUnreachable => "Network is unreachable (os error 101)"
  | .connectionRefused => "Connection refused (os error 111)"
  | .lookupFailed => "failed to lookup address information: Temporary failure in name resolution"
  | .unknownName => "failed to lookup address information: Name or service not known"

/-- What a host's network is made of. -/
structure Network where
  /-- The hosts table: names and their addresses, in order. -/
  hosts : List (String × List IpAddr)
  /-- The network interfaces, by name and index. -/
  interfaces : List (String × Nat)
  /-- The host's own IPv6 addresses. -/
  ownIpv6 : List (List Nat)
  /-- Whether a port needs a privilege to bind. -/
  privileged : Nat → Bool
  /-- Connecting to a listener of this host. -/
  connect : Except OsError Unit

namespace Network

/-- A bracketed IPv6 address with an optional decimal zone, `[addr]` or `[addr%zone]`. -/
def bracketed? (host : String) : Option IpAddr :=
  match host.toList with
  | '[' :: rest =>
    match rest.getLast? with
    | some ']' =>
      let inner := rest.dropLast
      match inner.splitOn '%' with
      | [a] => (parseIpv6? (String.ofList a)).map (.v6 · 0)
      | [a, z] => do
        let g ← parseIpv6? (String.ofList a)
        let zone ← zoneNumber? (String.ofList z)
        pure (.v6 g zone)
      | _ => none
    | _ => none
  | _ => none

/-- The zone of a numeric IPv6 host: an interface name where the address takes one, else a
decimal index. -/
def zone? (n : Network) (a : IpAddr) (z : String) : Option Nat :=
  match if a.takesZoneName then n.interfaces.lookup z else none with
  | some i => some i
  | none => zoneNumber? z

/-- A host written as an IPv6 address, with an optional zone after the first `%`: none if it
is not one, an error if its zone is no zone. -/
def numericIpv6? (n : Network) (host : String) : Option (Except OsError IpAddr) :=
  match Text.splitFirst? '%' host with
  | none => (parseIpv6? host).map fun g => .ok (.v6 g 0)
  | some (a, z) =>
    (parseIpv6? a).map fun g =>
      match n.zone? (.v6 g 0) z with
      | some i => .ok (.v6 g i)
      | none => .error .unknownName

/-- The addresses a host stands for. -/
def resolve (n : Network) (host : String) : Except OsError (List IpAddr) :=
  match bracketed? host with
  | some a => .ok [a]
  | none =>
    match parseClassicIpv4? host with
    | some o => .ok [.v4 o]
    | none =>
      match n.numericIpv6? host with
      | some r => r.map ([·])
      | none =>
        match n.hosts.find? (fun e => e.1.toLower == host.toLower) with
        | some e => .ok e.2
        | none => .error .lookupFailed

/-- Binds a listener to an address and port. -/
def bind (n : Network) (a : IpAddr) (port : Nat) : Except OsError Unit :=
  match a with
  | .v4 _ => if n.privileged port then .error .permissionDenied else .ok ()
  | .v6 g zone =>
    if a.isMulticast then .error .invalidArgument
    else if n.privileged port then .error .permissionDenied
    else if a.isV4Mapped || a.isUnspecified then .ok ()
    else if a.isLinkLocal && zone == 0 then .error .invalidArgument
    else if a.isLinkLocal && !(n.interfaces.any (·.2 == zone)) then .error .noSuchDevice
    else if n.ownIpv6.contains g then .ok ()
    else .error .addrNotAvailable

/-- Tries the addresses in order: the first bind that succeeds, or the last failure. -/
def bindFirst (n : Network) (port : Nat) : List IpAddr → Except OsError Unit
  | [] => .error .invalidArgument
  | [a] => n.bind a port
  | a :: rest =>
    match n.bind a port with
    | .ok () => .ok ()
    | .error _ => n.bindFirst port rest

/-- Binds a listener to `host:port`. -/
def bindHost (n : Network) (host : String) (port : Nat) : Except OsError Unit := do
  n.bindFirst port (← n.resolve host)

/-- A host whose only interface, the loopback one, is down: it has no address of its own, so
nothing can be reached, not even its own listeners; IPv4 may still bind any address. The hosts
table names the loopback addresses; ports below 1024 are privileged. -/
def offline : Network where
  hosts :=
    [("localhost", [.v4 [127, 0, 0, 1], .v6 [0, 0, 0, 0, 0, 0, 0, 1] 0]),
      ("ip6-localhost", [.v6 [0, 0, 0, 0, 0, 0, 0, 1] 0]),
      ("ip6-loopback", [.v6 [0, 0, 0, 0, 0, 0, 0, 1] 0])]
  interfaces := [("lo", 1)]
  ownIpv6 := []
  privileged port := 0 < port && port < 1024
  connect := .error .networkUnreachable

end Network

end MessageBroker.Net
