import NtripClient.Request.Field
import NtripClient.StatusLine

/-!
# `NtripClient.Error`: why a connection fails

An `IoError` comes from the system: a kind and a text. An `Error` is what a
caller of this library sees. Each constructor is a cause, and `Error.message` is
its wording.
-/

set_option autoImplicit false

namespace NtripClient

/-- What kind of failure the system reports. -/
inductive IoKind where
  | notFound
  | permissionDenied
  | connectionRefused
  | connectionReset
  | connectionAborted
  | notConnected
  | addressInUse
  | addressNotAvailable
  | brokenPipe
  | alreadyExists
  | invalidInput
  | invalidData
  | timedOut
  | writeZero
  | interrupted
  | unexpectedEof
  | other
  | hostUnreachable
  | networkUnreachable
  | wouldBlock
deriving DecidableEq, Repr

/-- The text of a failure that comes without one of its own. -/
def IoKind.text : IoKind → String
  | .notFound => "entity not found"
  | .permissionDenied => "permission denied"
  | .connectionRefused => "connection refused"
  | .connectionReset => "connection reset"
  | .connectionAborted => "connection aborted"
  | .notConnected => "not connected"
  | .addressInUse => "address in use"
  | .addressNotAvailable => "address not available"
  | .brokenPipe => "broken pipe"
  | .alreadyExists => "entity already exists"
  | .invalidInput => "invalid input parameter"
  | .invalidData => "invalid data"
  | .timedOut => "timed out"
  | .writeZero => "write zero"
  | .interrupted => "operation interrupted"
  | .unexpectedEof => "unexpected end of file"
  | .other => "other error"
  | .hostUnreachable => "host unreachable"
  | .networkUnreachable => "network unreachable"
  | .wouldBlock => "operation would block"

/-- A failure that the system reports. -/
structure IoError where
  /-- What kind of failure it is. -/
  kind : IoKind
  /-- Its text. -/
  text : String := kind.text
deriving DecidableEq, Repr

/-- What is wrong with an answer that cannot be read. -/
inductive MalformedAnswer where
  /-- A status line or chunk size line is longer than the limit. -/
  | lineTooLong
  /-- The header block is longer than the limit. -/
  | headerBlockTooLong
  /-- A chunk size line holds no chunk size. -/
  | chunkSizeLine
deriving DecidableEq, Repr

/-- The defect as text. -/
def MalformedAnswer.message : MalformedAnswer → String
  | .lineTooLong => "line too long"
  | .headerBlockTooLong => "header block too long"
  | .chunkSizeLine => "invalid chunk size line"

/-- Why a connection fails. -/
inductive Error where
  /-- The host could not be resolved. -/
  | resolve (host : String) (cause : IoError)
  /-- The host has no address. -/
  | noAddressFound (host : String)
  /-- A part of the request is not allowed. -/
  | invalidRequest (fault : RequestFault)
  /-- The server refused the request. -/
  | invalidStatus (status : StatusLine)
  /-- Nothing moved for the time the connection may idle. -/
  | connectionTimeout
  /-- The answer cannot be read. -/
  | malformed (defect : MalformedAnswer)
  /-- The transport failed. -/
  | io (cause : IoError)
deriving DecidableEq, Repr

namespace Error

/-- The error as text. -/
def message : Error → String
  | .resolve host cause => "failed to resolve " ++ host ++ ": " ++ cause.text
  | .noAddressFound host => "no address found for " ++ host
  | .invalidRequest fault => "invalid request: " ++ fault.message
  | .invalidStatus status => "invalid status: " ++ status.text
  | .connectionTimeout => "connection timeout"
  | .malformed defect => "malformed response: " ++ defect.message
  | .io cause => "transport: " ++ cause.text

/-- The failure of the system behind the error, if there is one. -/
def cause? : Error → Option IoError
  | .resolve _ cause => some cause
  | .io cause => some cause
  | _ => none

/-- The server closed the connection before the body began. -/
def closedEarly : Error :=
  .io { kind := .unexpectedEof
        text := "connection closed by server before the stream started" }

/-- Data was given to a connection that has ended. -/
def ended : Error :=
  .io { kind := .notConnected, text := "connection has ended" }

end Error

end NtripClient
