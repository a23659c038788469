import NtripClient.Address.Basic
import NtripClient.Request.Target
import NtripClient.Text.Base64
import NtripClient.Text.Quoted

/-!
# `NtripClient.Config`: what a connection is told before it starts

Where to connect, what to ask for, how long to wait and how much to read. All
parts but the host are valid by their types; the host is checked when the
request is written.

Credentials are sent as the word `Basic` and the base64 form of login, colon and
password. Shown to a reader, they keep the password to themselves.

`TcpConfig` holds the socket options of a connection. Most of them do not change
what a caller sees. The local addresses do: an attempt starts by binding the one
of the target's family, and fails if that address does not belong to the host.
-/

set_option autoImplicit false

namespace NtripClient

/-- A login and its password. -/
structure Credentials where
  /-- The login. -/
  login : String
  /-- The password. -/
  password : String
deriving DecidableEq

namespace Credentials

/-- The characters of the `Authorization` value. -/
def authorization (credentials : Credentials) : List Char :=
  "Basic ".toList ++
    Base64.encode (Utf8.encode credentials.login ++ 58 :: Utf8.encode credentials.password)

/-- The value of the `Authorization` field. -/
def headerValue (credentials : Credentials) : String :=
  String.ofList credentials.authorization

/-- Credentials as text, without the password. -/
def text (credentials : Credentials) : String :=
  "Credentials \x7b login: " ++ Quoted.text credentials.login ++ ", password: <redacted> \x7d"

end Credentials

/-- The name a client gives itself unless it is told another. -/
def defaultUserAgent : FieldValue where
  bytes := Utf8.encode "NTRIP icystream/0.1.0"
  valid := by decide +kernel

/-- The configuration of a connection. Times are in milliseconds. -/
structure Config where
  /-- The server: a name or an address. -/
  host : String
  /-- The port number of the server. -/
  port : UInt16
  /-- What is asked for. -/
  target : Target := .root
  /-- Login and password, if the server wants them. -/
  credentials : Option Credentials := none
  /-- The name the client gives itself. -/
  userAgent : FieldValue := defaultUserAgent
  /-- Further fields of the request, in order. -/
  headers : List (FieldName × FieldValue) := []
  /-- How long the connection may idle, if it is limited. -/
  timeout : Option Nat := none
  /-- The longest status line or chunk size line, line end included. -/
  maxLineLength : Nat := 8192
  /-- The longest header block, blank line included. -/
  maxHeaderSize : Nat := 65536
  /-- How many bytes the receive buffer is made for. -/
  bufferCapacity : Nat := 1024

namespace Config

/-- How long the connection may idle. A limit of zero is none. -/
def idleTimeout (config : Config) : Option Nat :=
  config.timeout.filter (· != 0)

/-- The most bytes that one read asks for: half the receive buffer, which is made
for 64 bytes at least. -/
def readLimit (config : Config) : Nat :=
  max config.bufferCapacity 64 / 2

/-- The characters of the `Host` field. An IPv6 address is put in brackets, and
the port number is left out if it is the one of plain web servers. -/
def hostChars (config : Config) : List Char :=
  let host := config.host.toList
  let bracketed :=
    if host.contains ':' ∧ host.head? ≠ some '[' then '[' :: host ++ [']'] else host
  if config.port = 80 then bracketed
  else bracketed ++ ':' :: Numeral.decimal config.port.toNat

/-- The value of the `Host` field. -/
def hostField (config : Config) : Except RequestFault FieldValue :=
  FieldValue.parse (Utf8.encode (String.ofList config.hostChars))

/-- Sets what is asked for. -/
def setMountpoint (config : Config) (mountpoint : String) : Except RequestFault Config :=
  (Target.ofMountpoint mountpoint).map fun target => { config with target }

end Config

/-- Socket options of a TCP connection. Times are in milliseconds. -/
structure TcpConfig where
  /-- How long one attempt may take. -/
  connectTimeout : Option Nat := none
  /-- The idle time before the first keep-alive probe. -/
  keepAliveTimeout : Option Nat := some 90000
  /-- The address to bind before connecting to an IPv4 target. -/
  localV4 : Option Ipv4 := none
  /-- The address to bind before connecting to an IPv6 target. -/
  localV6 : Option Ipv6 := none
  /-- Send small segments at once. -/
  noDelay : Bool := true
  /-- Allow binding an address that was in use a moment ago. -/
  reuseAddress : Bool := true
  /-- The size of the send buffer, in bytes. -/
  sendBufferSize : Option Nat := none
  /-- The size of the receive buffer, in bytes. -/
  receiveBufferSize : Option Nat := none
deriving DecidableEq, Repr

namespace TcpConfig

/-- The address to bind before connecting to `target`. -/
def bindAddress? (config : TcpConfig) (target : Endpoint) : Option IpAddress :=
  match target.address with
  | .v4 _ => config.localV4.map .v4
  | .v6 _ _ => config.localV6.map fun address => .v6 address

end TcpConfig

end NtripClient
