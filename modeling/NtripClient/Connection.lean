import NtripClient.Config
import NtripClient.Error

/-!
# `NtripClient.Connection`: building a connection and the request that it sends

A request is a request line, one line for each field, and a blank line. The
fields are the host, the user agent, the credentials if there are any, those of
the configuration in order, and last the wish to close the connection.

A builder takes settings one after another. A setting that is refused changes
nothing, and the first fault is kept. Building then fails with that fault, or
with the host's if there is none, and otherwise gives a connection: a
configuration together with the request it is going to send.
-/

set_option autoImplicit false

namespace NtripClient

namespace Request

/-- One field of a request as a line. -/
def fieldLine (name value : Bytes) : Bytes :=
  name ++ [58, 32] ++ value ++ Bytes.crlf

/-- The first line of a request. -/
def requestLine (target : Target) : Bytes :=
  Utf8.encode "GET " ++ Utf8.encode target.text ++ Utf8.encode " HTTP/1.1" ++ Bytes.crlf

/-- The fields of a request with the given `Host` value, in order. -/
def fields (config : Config) (host : FieldValue) : List (Bytes × Bytes) :=
  let authorization := config.credentials.toList.map fun credentials =>
    (Utf8.encode "Authorization", Utf8.encode credentials.headerValue)
  [(Utf8.encode "Host", host.bytes), (Utf8.encode "User-Agent", config.userAgent.bytes)]
    ++ authorization
    ++ config.headers.map (fun field => (field.1.bytes, field.2.bytes))
    ++ [(Utf8.encode "Connection", Utf8.encode "close")]

/-- The bytes of the request. Only the host can be at fault. -/
def encode (config : Config) : Except RequestFault Bytes := do
  let host ← config.hostField
  return requestLine config.target
    ++ (fields config host).flatMap (fun field => fieldLine field.1 field.2) ++ Bytes.crlf

end Request

/-- One step of configuring a connection. -/
inductive Setting where
  /-- What to ask for. -/
  | mountpoint (mountpoint : String)
  /-- Login and password. -/
  | credentials (login password : String)
  /-- The name the client gives itself. -/
  | userAgent (value : Bytes)
  /-- One more field of the request. -/
  | header (name value : Bytes)
  /-- How long the connection may idle. -/
  | timeout (ms : Nat)
  /-- The longest line. -/
  | maxLineLength (length : Nat)
  /-- The longest header block. -/
  | maxHeaderSize (size : Nat)
  /-- The size of the receive buffer. -/
  | bufferCapacity (size : Nat)
  /-- The server. -/
  | host (host : String)
  /-- The port number of the server. -/
  | port (port : UInt16)
  /-- The socket options. -/
  | tcp (config : TcpConfig)

/-- A connection that is ready to start. -/
structure Connection where
  /-- What it was told. -/
  config : Config
  /-- The socket options, for connecting by TCP. -/
  tcp : TcpConfig := {}
  /-- The bytes it is going to send. -/
  request : Bytes
  /-- They are the request of the configuration. -/
  request_eq : Request.encode config = .ok request

/-- Settings taken so far, and the first fault among them. -/
structure Builder where
  /-- The configuration that the valid settings gave. -/
  config : Config
  /-- The socket options. -/
  tcp : TcpConfig := {}
  /-- The first fault. -/
  fault : Option RequestFault := none

namespace Config

/-- A configuration after one setting. For a field, the name is looked at before
the value. -/
def apply (config : Config) : Setting → Except RequestFault Config
  | .mountpoint mountpoint => config.setMountpoint mountpoint
  | .credentials login password =>
    .ok { config with credentials := some { login, password } }
  | .userAgent value => do
    let userAgent ← FieldValue.parse value
    return { config with userAgent }
  | .header name value => do
    let name ← FieldName.parse name
    let value ← FieldValue.parse value
    return { config with headers := config.headers ++ [(name, value)] }
  | .timeout ms => .ok { config with timeout := some ms }
  | .maxLineLength length => .ok { config with maxLineLength := length }
  | .maxHeaderSize size => .ok { config with maxHeaderSize := size }
  | .bufferCapacity size => .ok { config with bufferCapacity := size }
  | .host host => .ok { config with host }
  | .port port => .ok { config with port }
  | .tcp _ => .ok config

end Config

namespace Builder

/-- A builder that has taken no setting yet. -/
def new (host : String) (port : UInt16) : Builder :=
  { config := { host, port } }

/-- Takes one setting. -/
def set (builder : Builder) (setting : Setting) : Builder :=
  let builder := match setting with
    | .tcp tcp => { builder with tcp }
    | _ => builder
  match builder.config.apply setting with
  | .ok config => { builder with config }
  | .error fault => { builder with fault := builder.fault <|> some fault }

/-- Takes settings in order. -/
def setAll (builder : Builder) (settings : List Setting) : Builder :=
  settings.foldl set builder

/-- Makes the connection, unless a setting or the host was at fault. -/
def build (builder : Builder) : Except Error Connection :=
  match builder.fault with
  | some fault => .error (.invalidRequest fault)
  | none =>
    match h : Request.encode builder.config with
    | .error fault => .error (.invalidRequest fault)
    | .ok request =>
      .ok { config := builder.config, tcp := builder.tcp, request, request_eq := h }

end Builder

namespace Connection

/-- A connection with the default configuration. -/
def new (host : String) (port : UInt16) : Except Error Connection :=
  (Builder.new host port).build

/-- Replaces the idle limit, which the request does not depend on. -/
def withTimeout (connection : Connection) (ms : Nat) : Connection :=
  { connection with
    config := { connection.config with timeout := some ms }
    request_eq := connection.request_eq }

end Connection

end NtripClient
