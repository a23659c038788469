import NtripClient.Address.Host
import NtripClient.Session.Report

/-!
# `NtripClient.Session.Isolated`: a session on a host without a network

Such a host owns no address but the loopback ones, and every target is out of its
reach. The host that a connection names is an address, so looking it up needs no
network, and every attempt to connect fails as `Isolated.attempt` says.
-/

set_option autoImplicit false

namespace NtripClient

namespace Isolated

/-- Addresses that can be bound without owning them: the unspecified one, which stands
for all of them, and those of more than one host. The loopback addresses are owned. -/
def canBindV4 (address : Ipv4) : Bool :=
  address == ⟨0, 0, 0, 0⟩ || address.a == 127 || address.isMulticast
    || address == ⟨255, 255, 255, 255⟩

/-- Why binding an address fails, if it does. An IPv6 address that stands for an IPv4
address is bound as that one. The address of a group, or of a host on an unknown link,
is no address to bind at all. -/
def bindFault? : IpAddress → Option IoKind
  | .v4 address => if canBindV4 address then none else some .addressNotAvailable
  | .v6 address _ =>
    match address.mapped? with
    | some v4 => if canBindV4 v4 then none else some .addressNotAvailable
    | none =>
      if address.isMulticast || address.isLinkLocal then some .invalidInput
      else if address.groups == #v[0, 0, 0, 0, 0, 0, 0, 0]
        || address.groups == #v[0, 0, 0, 0, 0, 0, 0, 1] then none
      else some .addressNotAvailable

/-- Why an attempt to connect fails: the local address is bound before the target
is looked at. -/
def attempt (config : TcpConfig) (target : Endpoint) : IoKind :=
  ((config.bindAddress? target).bind bindFault?).getD .networkUnreachable

/-- What looking up a host gives where no name can be looked up. -/
def lookup (host : String) : Except IoError Candidates :=
  match Candidates.ofHost? host with
  | some candidates => .ok candidates
  | none => .error { kind := .other }

/-- The plan of a session on an isolated host. -/
def plan (connection : Connection) (before after : List Action) : Plan :=
  let lookup := Isolated.lookup connection.config.host
  let candidates := match lookup with
    | .ok candidates => Candidates.withPort candidates connection.config.port
    | .error _ => []
  { before, after
    lookup := [.result lookup]
    attempts := candidates.map fun candidate =>
      [.result (.error { kind := Isolated.attempt connection.tcp candidate })] }

end Isolated

end NtripClient
