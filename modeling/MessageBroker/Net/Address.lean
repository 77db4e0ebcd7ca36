/-!
# IP addresses and their written forms

An address is four octets, or eight 16-bit groups with a zone index (`0` for none). Three
written forms are read here.

* The dotted quad: four decimal octets, none with a leading zero.
* The classic numbers-and-dots form: one to four parts, each decimal, octal (a leading `0`) or
  hex (a leading `0x`); every part but the last is one octet, and the last fills the octets
  left (`127.1` is `127.0.0.1`, `2130706433` is `127.0.0.1`).
* IPv6: eight groups of one to four hex digits, or fewer around one `::` that stands for at
  least one zero group; the last two groups may be written as a dotted quad.

## Main definitions

* `IpAddr`, `parseIpv4?`, `parseClassicIpv4?`, `parseIpv6?`
* `IpAddr.isMulticast`, `IpAddr.isLinkLocal`, `IpAddr.isV4Mapped`, `IpAddr.isUnspecified`,
  `IpAddr.takesZoneName`: the classes of IPv6 addresses that binding tells apart
-/

namespace MessageBroker.Net

/-- An IP address: four octets, or eight groups and a zone index. -/
inductive IpAddr where
  | v4 (octets : List Nat)
  | v6 (groups : List Nat) (zone : Nat)
  deriving DecidableEq, Repr

/-- The value of a decimal octet: one to three digits without a leading zero, at most 255. -/
def octet? (s : List Char) : Option Nat :=
  if s.isEmpty || 3 < s.length || !s.all Char.isDigit then none
  else if s.length > 1 && s.head? == some '0' then none
  else
    let v := s.foldl (fun acc c => acc * 10 + (c.toNat - 48)) 0
    if v ≤ 255 then some v else none

/-- A dotted quad: four decimal octets separated by dots. -/
def parseIpv4? (s : String) : Option (List Nat) :=
  let parts := s.toList.splitOn '.'
  if parts.length = 4 then parts.mapM octet? else none

/-- The value of a digit in a base up to 16. -/
def digitIn? (base : Nat) (c : Char) : Option Nat :=
  let v :=
    if c.isDigit then some (c.toNat - 48)
    else if 'a' ≤ c ∧ c ≤ 'f' then some (c.toNat - 87)
    else if 'A' ≤ c ∧ c ≤ 'F' then some (c.toNat - 55)
    else none
  v.filter (· < base)

/-- The value of a run of digits in a base, most significant first. -/
def digitsValue (base : Nat) (ds : List Char) : Nat :=
  ds.foldl (fun acc c => acc * base + (digitIn? base c).getD 0) 0

/-- The longest run of digits of a base at the front of a text, and what follows it. -/
def digitRun (base : Nat) (cs : List Char) : List Char × List Char :=
  (cs.takeWhile fun c => (digitIn? base c).isSome, cs.dropWhile fun c => (digitIn? base c).isSome)

/-- Reads a number in C notation at the front of a text that starts with a decimal digit: `0x`
and hex digits, or `0` and octal digits, or decimal digits; answers its value and the rest. A
`0x` with no hex digit after it is the number `0` followed by `x`. -/
def cNumber? : List Char → Option (Nat × List Char)
  | '0' :: x :: rest =>
    if (x = 'x' ∨ x = 'X') ∧ (rest.head?.bind (digitIn? 16)).isSome then
      let r := digitRun 16 rest
      some (digitsValue 16 r.1, r.2)
    else
      let r := digitRun 8 (x :: rest)
      some (digitsValue 8 r.1, r.2)
  | ['0'] => some (0, [])
  | c :: rest =>
    if c.isDigit then
      let r := digitRun 10 (c :: rest)
      some (digitsValue 10 r.1, r.2)
    else none
  | [] => none

/-- The octets of a value of `n` bytes, most significant first. -/
def bytesOf (n v : Nat) : List Nat :=
  (List.range n).reverse.map fun i => v / Nat.pow 256 i % 256

/-- The largest value of a last part after `k` one-octet parts. -/
def lastPartLimit (k : Nat) : Nat := Nat.pow 256 (4 - k) - 1

/-- Reads the parts of the classic form, with at most `dots` more dots allowed; `parts` holds
the one-octet parts read so far. -/
def classicParts (dots : Nat) (parts : List Nat) (cs : List Char) : Option (List Nat) :=
  match cNumber? cs with
  | none => none
  | some (v, rest) =>
    if 4294967296 ≤ v then none
    else
      match rest with
      | [] =>
        if v ≤ lastPartLimit parts.length then some (parts ++ bytesOf (4 - parts.length) v)
        else none
      | '.' :: more =>
        match dots with
        | 0 => none
        | d + 1 => if v ≤ 255 then classicParts d (parts ++ [v]) more else none
      | _ => none

/-- An IPv4 address in the classic numbers-and-dots form, the whole text read. -/
def parseClassicIpv4? (s : String) : Option (List Nat) :=
  classicParts 3 [] s.toList

/-- The value of a group of one to four hex digits. -/
def hexGroup? (s : List Char) : Option Nat :=
  if s.isEmpty || 4 < s.length || !s.all (fun c => (digitIn? 16 c).isSome) then none
  else some (digitsValue 16 s)

/-- The groups of one side of `::`, the last of which may be a dotted quad (two groups). -/
def groups? (s : List Char) (lastMayBeV4 : Bool) : Option (List Nat) :=
  if s.isEmpty then some []
  else
    let parts := s.splitOn ':'
    match parts.getLast? with
    | none => some []
    | some last =>
      let init := parts.dropLast
      if lastMayBeV4 && last.contains '.' then do
        let o ← parseIpv4? (String.ofList last)
        let gs ← init.mapM hexGroup?
        match o with
        | [a, b, c, d] => some (gs ++ [a * 256 + b, c * 256 + d])
        | _ => none
      else parts.mapM hexGroup?

/-- Cuts at the first `::`, if there is one. -/
def splitDoubleColon : List Char → Option (List Char × List Char)
  | [] => none
  | ':' :: ':' :: rest => some ([], rest)
  | c :: rest => (splitDoubleColon rest).map fun p => (c :: p.1, p.2)

/-- The groups of an IPv6 address: eight groups, or fewer around one `::` that stands for at
least one zero group, the last two groups possibly written as a dotted quad. -/
def parseIpv6? (s : String) : Option (List Nat) :=
  match splitDoubleColon s.toList with
  | some (l, r) =>
    if (splitDoubleColon r).isSome then none
    else do
      let a ← groups? l false
      let b ← groups? r true
      if a.length + b.length ≤ 7 then some (a ++ List.replicate (8 - a.length - b.length) 0 ++ b)
      else none
  | none => do
    let g ← groups? s.toList true
    if g.length = 8 then some g else none

/-- A zone index written in decimal: digits only, below `2 ^ 32`. -/
def zoneNumber? (s : String) : Option Nat :=
  if !s.isEmpty && s.all Char.isDigit then
    let v := digitsValue 10 s.toList
    if v < 4294967296 then some v else none
  else none

namespace IpAddr

/-- The first group of an IPv6 address, `0` for IPv4. -/
def firstGroup : IpAddr → Nat
  | .v4 _ => 0
  | .v6 g _ => g.head?.getD 0

/-- Whether an address is IPv6 multicast, `ff00::/8`. -/
def isMulticast (a : IpAddr) : Bool :=
  match a with
  | .v4 _ => false
  | .v6 _ _ => a.firstGroup / 256 == 0xff

/-- Whether an address is IPv6 link-local unicast, `fe80::/10`. -/
def isLinkLocal (a : IpAddr) : Bool :=
  match a with
  | .v4 _ => false
  | .v6 _ _ => a.firstGroup / 64 == 0xfe80 / 64

/-- Whether an address is an IPv4 address mapped into IPv6, `::ffff:0:0/96`. -/
def isV4Mapped : IpAddr → Bool
  | .v4 _ => false
  | .v6 g _ => g.take 6 == [0, 0, 0, 0, 0, 0xffff]

/-- Whether an address is the unspecified IPv6 address `::`. -/
def isUnspecified : IpAddr → Bool
  | .v4 _ => false
  | .v6 g _ => g.all (· == 0)

/-- Whether a zone of an address may be named by an interface name: link-local unicast, and
interface-local or link-local multicast. -/
def takesZoneName (a : IpAddr) : Bool :=
  a.isLinkLocal || (a.isMulticast && (a.firstGroup % 16 == 1 || a.firstGroup % 16 == 2))

end IpAddr

example : parseIpv6? "::1" = some [0, 0, 0, 0, 0, 0, 0, 1] := by decide
example : parseIpv6? "0:0:0:0:0:0::1" = some [0, 0, 0, 0, 0, 0, 0, 1] := by decide
example : parseIpv4? "192.0.2.1" = some [192, 0, 2, 1] := by decide

end MessageBroker.Net
