import NtripClient.Address.Basic
import NtripClient.Text.Numeral

/-!
# `NtripClient.Address.Printer`: addresses as text

An IPv4 address is four decimal numbers. An IPv6 address is eight hexadecimal
groups, of which the longest run of zeros, the first one among equals, is
written as a double colon if it has two groups or more. An IPv6 address that
stands for an IPv4 address ends in that address. A zone stands behind the address,
after a percent sign.
-/

set_option autoImplicit false

namespace NtripClient

/-- The characters of an IPv4 address. -/
def Ipv4.chars (address : Ipv4) : List Char :=
  List.intercalate ['.'] <|
    [address.a, address.b, address.c, address.d].map fun byte => Numeral.decimal byte.toNat

namespace Ipv6

/-- Groups in hexadecimal, with colons between them. -/
def groupChars (groups : List UInt16) : List Char :=
  List.intercalate [':'] (groups.map fun group => Numeral.hexadecimal group.toNat)

/-- The longest run of zeros, as start and length; the first one among equals.
`index` is the place of the first group given, `best` the longest run that ended
before it and `run` the length of the one that reaches it. -/
def longestZeros (index run : Nat) (best : Nat × Nat) : List UInt16 → Nat × Nat
  | [] => if best.2 < run then (index - run, run) else best
  | group :: rest =>
    if group = 0 then longestZeros (index + 1) (run + 1) best rest
    else
      longestZeros (index + 1) 0 (if best.2 < run then (index - run, run) else best) rest

/-- The characters of an IPv6 address. -/
def chars (address : Ipv6) : List Char :=
  match address.mapped? with
  | some v4 => "::ffff:".toList ++ v4.chars
  | none =>
    let groups := address.groups.toList
    let (start, length) := longestZeros 0 0 (0, 0) groups
    if 1 < length then
      groupChars (groups.take start) ++ [':', ':'] ++ groupChars (groups.drop (start + length))
    else groupChars groups

end Ipv6

/-- The characters of an internet address. -/
def IpAddress.chars : IpAddress → List Char
  | .v4 address => address.chars
  | .v6 address zone =>
    if zone = 0 then address.chars else address.chars ++ '%' :: Numeral.decimal zone.toNat

/-- An internet address as text. -/
def IpAddress.text (address : IpAddress) : String :=
  String.ofList address.chars

/-- An endpoint as text: address, colon, port number. An IPv6 address stands in
brackets. -/
def Endpoint.text (endpoint : Endpoint) : String :=
  let host := match endpoint.address with
    | .v4 _ => endpoint.address.chars
    | .v6 _ _ => '[' :: endpoint.address.chars ++ [']']
  String.ofList (host ++ ':' :: Numeral.decimal endpoint.port.toNat)

end NtripClient
