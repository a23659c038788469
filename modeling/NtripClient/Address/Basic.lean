/-!
# `NtripClient.Address.Basic`: internet addresses and the candidates to connect to

An endpoint is an internet address and a port number. Resolving a host gives a
list of endpoints, the candidates, which are tried from the front.

An IPv6 address may carry a zone: the number of the network interface through which
it is reached. Addresses of one link mean nothing without it.
-/

set_option autoImplicit false

namespace NtripClient

/-- An IPv4 address. -/
structure Ipv4 where
  /-- First byte. -/
  a : UInt8
  /-- Second byte. -/
  b : UInt8
  /-- Third byte. -/
  c : UInt8
  /-- Fourth byte. -/
  d : UInt8
deriving DecidableEq, Repr

/-- An IPv6 address: eight groups of sixteen bits. -/
structure Ipv6 where
  /-- The groups, first group first. -/
  groups : Vector UInt16 8
deriving DecidableEq, Repr

/-- The IPv4 address that an IPv6 address stands for. -/
def Ipv6.mapped? (address : Ipv6) : Option Ipv4 :=
  match address.groups.toList with
  | [0, 0, 0, 0, 0, 0xFFFF, high, low] =>
    some ⟨(high / 256).toUInt8, (high % 256).toUInt8, (low / 256).toUInt8, (low % 256).toUInt8⟩
  | _ => none

/-- The address of a group of hosts: 224.0.0.0/4. -/
def Ipv4.isMulticast (address : Ipv4) : Bool :=
  address.a &&& 0xF0 == 0xE0

/-- The address of a group of hosts: FF00::/8. -/
def Ipv6.isMulticast (address : Ipv6) : Bool :=
  address.groups[0] &&& 0xFF00 == 0xFF00

/-- The address of one host on one link: FE80::/10. -/
def Ipv6.isLinkLocal (address : Ipv6) : Bool :=
  address.groups[0] &&& 0xFFC0 == 0xFE80

/-- The address means something on one link or one host only. A group of hosts says so in
the last four bits of its second byte. -/
def Ipv6.isLocal (address : Ipv6) : Bool :=
  let scope := address.groups[0] &&& 0x000F
  address.isLinkLocal || address.isMulticast && (scope == 1 || scope == 2)

/-- An internet address. -/
inductive IpAddress where
  /-- An IPv4 address. -/
  | v4 (address : Ipv4)
  /-- An IPv6 address and its zone, 0 for none. -/
  | v6 (address : Ipv6) (zone : UInt32 := 0)
deriving DecidableEq, Repr

/-- An address and a port number. -/
structure Endpoint where
  /-- The address. -/
  address : IpAddress
  /-- The port number. -/
  port : UInt16
deriving DecidableEq, Repr

/-- The endpoints a host resolved to, in the order to try them. -/
abbrev Candidates := List Endpoint

namespace Candidates

/-- Gives every candidate the same port number. -/
def withPort (candidates : Candidates) (port : UInt16) : Candidates :=
  candidates.map fun candidate => { candidate with port }

/-- Takes the next candidate to try. -/
def pop? (candidates : Candidates) : Option (Endpoint × Candidates) :=
  match candidates with
  | [] => none
  | next :: others => some (next, others)

end Candidates

end NtripClient
