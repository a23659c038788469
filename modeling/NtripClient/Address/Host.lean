import NtripClient.Address.Parser

/-!
# `NtripClient.Address.Host`: the addresses that hosts name by themselves

A host may be an address instead of a name. More forms are understood here than
addresses are written in. An IPv4 address has one to four parts, each in decimal, in
octal after a zero, or in hexadecimal after `0x`. All but the last stand for one byte
each, and the last for the bytes that are left. An IPv6 address may name its zone, by
the number of a network interface or, if it belongs to one link or host, by the
interface's name.
-/

set_option autoImplicit false

namespace NtripClient

/-- Reads a number below `bound`, whose first digits tell its base. -/
def Ipv4.part? (bound : Nat) : List Char → Option Nat
  | '0' :: 'x' :: digits => Numeral.below? 16 bound digits
  | '0' :: 'X' :: digits => Numeral.below? 16 bound digits
  | '0' :: digits => Numeral.below? 8 bound ('0' :: digits)
  | digits => Numeral.below? 10 bound digits

/-- The value of up to four parts: one byte for each part but the last, which takes
the bytes that are left. `bytes` is how many bytes the parts stand for. -/
def Ipv4.ofParts? : (bytes : Nat) → List (List Char) → Option Nat
  | 0, _ => none
  | _, [] => none
  | bytes, [last] => Ipv4.part? (Nat.pow 256 bytes) last
  | bytes + 1, part :: rest => do
    let value ← Ipv4.part? 256 part
    let others ← Ipv4.ofParts? bytes rest
    some (value * Nat.pow 256 bytes + others)

/-- The address with this value. -/
def Ipv4.ofValue (value : Nat) : Ipv4 :=
  ⟨UInt8.ofNat (value / Nat.pow 256 3), UInt8.ofNat (value / Nat.pow 256 2),
    UInt8.ofNat (value / 256), UInt8.ofNat value⟩

/-- Reads an IPv4 address of one to four parts. -/
def Ipv4.ofHost? (host : List Char) : Option Ipv4 :=
  (Ipv4.ofParts? 4 (splitAtEach '.' host)).map Ipv4.ofValue

/-- The number of a network interface. The only one that every machine has is the
loopback interface. -/
def interfaceNumber? (name : List Char) : Option UInt32 :=
  if name = ['l', 'o'] then some 1 else none

/-- Reads the zone of an address: a number or, for the addresses of one link or host,
the name of an interface. -/
def Ipv6.zone? (address : Ipv6) (text : List Char) : Option UInt32 :=
  (if address.isLocal then interfaceNumber? text else none) <|> NtripClient.zone? text

/-- Reads the address that a host names by itself. -/
def IpAddress.ofHost? (host : List Char) : Option IpAddress :=
  match Ipv4.ofHost? host with
  | some address => some (.v4 address)
  | none => IpAddress.parseZoned? Ipv6.zone? host

/-- The only candidate of a host that is an address: the host is read without the
brackets at its front and its end, and the port number is 0. -/
def Candidates.ofHost? (host : String) : Option Candidates :=
  let bare := (host.toList.dropWhile (· == '[')).reverse.dropWhile (· == ']')
  (IpAddress.ofHost? bare.reverse).map fun address => [{ address, port := 0 }]

end NtripClient
