import NtripClient.Address.Basic
import NtripClient.Text.Numeral

/-!
# `NtripClient.Address.Parser`: addresses from text

Reads the canonical forms of addresses, and the forms in which groups or zeros of an
IPv6 address are written out. Nothing is looked up here: text that is no literal
address is no address.
-/

set_option autoImplicit false

namespace NtripClient

/-- Splits at every `separator`. -/
def splitAtEach (separator : Char) : List Char → List (List Char)
  | [] => [[]]
  | c :: rest =>
    let parts := splitAtEach separator rest
    if c = separator then [] :: parts
    else (c :: parts.headD []) :: parts.tail

/-- Reads one byte of an IPv4 address: at most three digits, no leading zero. -/
def Ipv4.byte? (digits : List Char) : Option UInt8 :=
  if digits.length ≤ 3 ∧ (digits.head? ≠ some '0' ∨ digits.length = 1) then
    (Numeral.below? 10 256 digits).map UInt8.ofNat
  else none

/-- Reads an IPv4 address. -/
def Ipv4.parse? (text : List Char) : Option Ipv4 :=
  match (splitAtEach '.' text).mapM Ipv4.byte? with
  | some [a, b, c, d] => some ⟨a, b, c, d⟩
  | _ => none

namespace Ipv6

/-- Reads one group: one to four hexadecimal digits. -/
def group? (digits : List Char) : Option UInt16 := do
  let values ← digits.mapM Numeral.hexDigit?
  if digits.isEmpty ∨ 4 < digits.length then none
  else some (UInt16.ofNat (values.foldl (· * 16 + ·) 0))

/-- Reads groups with colons between them. The last may be an IPv4 address, which
counts for two, if `mayEndInV4`. No text at all is no group. -/
def groups? (mayEndInV4 : Bool) (text : List Char) : Option (List UInt16) :=
  if text.isEmpty then some []
  else
    let parts := splitAtEach ':' text
    match (if mayEndInV4 then Ipv4.parse? (parts.getLastD []) else none) with
    | some v4 => do
      let groups ← parts.dropLast.mapM group?
      some (groups ++ [v4.a.toUInt16 * 256 + v4.b.toUInt16, v4.c.toUInt16 * 256 + v4.d.toUInt16])
    | none => parts.mapM group?

/-- Splits at the first double colon. -/
def splitDouble : List Char → Option (List Char × List Char)
  | [] => none
  | ':' :: ':' :: rest => some ([], rest)
  | c :: rest => (splitDouble rest).map fun (before, after) => (c :: before, after)

/-- An address from its groups, if there are eight. -/
def ofGroups? (groups : List UInt16) : Option Ipv6 :=
  if h : groups.length = 8 then some ⟨⟨groups.toArray, by simpa using h⟩⟩ else none

/-- Reads an IPv6 address. A double colon stands for one group of zeros or more. -/
def parse? (text : List Char) : Option Ipv6 :=
  match splitDouble text with
  | none => (groups? true text).bind ofGroups?
  | some (before, after) => do
    let first ← groups? false before
    let last ← groups? true after
    if first.length + last.length < 8 then
      ofGroups? (first ++ List.replicate (8 - first.length - last.length) 0 ++ last)
    else none

end Ipv6

/-- Reads a zone: a decimal number of 32 bits. -/
def zone? (digits : List Char) : Option UInt32 :=
  (Numeral.below? 10 (Nat.pow 2 32) digits).map UInt32.ofNat

/-- Reads an IPv6 address that may have a zone behind a percent sign. `readZone` reads
the zone of the address it is given. -/
def IpAddress.parseZoned? (readZone : Ipv6 → List Char → Option UInt32) (text : List Char) :
    Option IpAddress := do
  let address ← Ipv6.parse? (text.takeWhile (· != '%'))
  match text.dropWhile (· != '%') with
  | [] => some (.v6 address)
  | _ :: zone => (readZone address zone).map (.v6 address ·)

/-- Reads an internet address without a zone. -/
def IpAddress.parse? (text : String) : Option IpAddress :=
  match Ipv4.parse? text.toList with
  | some address => some (.v4 address)
  | none => (Ipv6.parse? text.toList).map fun address => .v6 address

/-- Reads a port number. -/
def Endpoint.port? (digits : List Char) : Option UInt16 :=
  (Numeral.below? 10 65536 digits).map UInt16.ofNat

/-- Reads an endpoint: an address, in brackets and with its zone if it is IPv6, a colon
and a port number. -/
def Endpoint.parse? (text : String) : Option Endpoint :=
  match text.toList with
  | '[' :: rest =>
    match rest.dropWhile (· != ']') with
    | ']' :: ':' :: digits => do
      let address ← IpAddress.parseZoned? (fun _ => zone?) (rest.takeWhile (· != ']'))
      let port ← Endpoint.port? digits
      some { address, port }
    | _ => none
  | chars =>
    match chars.dropWhile (· != ':') with
    | ':' :: digits => do
      let address ← Ipv4.parse? (chars.takeWhile (· != ':'))
      let port ← Endpoint.port? digits
      some { address := .v4 address, port }
    | _ => none

end NtripClient
