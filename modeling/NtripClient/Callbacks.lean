import NtripClient.Error
import NtripClient.Header.Map

/-!
# `NtripClient.Callbacks`: what a connection tells its owner

A notice is one call to the owner of a connection. `Callbacks` answers notices
with one optional function for each kind.
-/

set_option autoImplicit false

namespace NtripClient

/-- One call to the owner of a connection. -/
inductive Notice where
  /-- The header block was read. -/
  | headers (map : HeaderMap)
  /-- A piece of the body arrived. -/
  | data (bytes : Bytes)
  /-- The body is over. -/
  | eof
  /-- The connection failed. -/
  | error (error : Error)
deriving DecidableEq, Repr

/-- The notice is the last one of its connection. -/
def Notice.isTerminal : Notice → Bool
  | .eof => true
  | .error _ => true
  | _ => false

/-- A function for each kind of notice, or none. -/
structure Callbacks (α : Type) where
  /-- Runs when the header block was read. -/
  headers : Option (HeaderMap → α) := none
  /-- Runs for each piece of the body. -/
  data : Option (Bytes → α) := none
  /-- Runs when the body is over. -/
  eof : Option (Unit → α) := none
  /-- Runs when the connection failed. -/
  error : Option (Error → α) := none

namespace Callbacks

/-- Gives a notice to the function for its kind. -/
def deliver {α : Type} (callbacks : Callbacks α) : Notice → Option α
  | .headers map => callbacks.headers.map (· map)
  | .data bytes => callbacks.data.map (· bytes)
  | .eof => callbacks.eof.map (· ())
  | .error error => callbacks.error.map (· error)

/-- Which functions are there, as text. -/
def text {α : Type} (callbacks : Callbacks α) : String :=
  let slot (isSet : Bool) : String := if isSet then "Some(..)" else "None"
  "Callbacks \x7b headers: " ++ slot callbacks.headers.isSome
    ++ ", data: " ++ slot callbacks.data.isSome
    ++ ", eof: " ++ slot callbacks.eof.isSome
    ++ ", error: " ++ slot callbacks.error.isSome ++ " \x7d"

end Callbacks

end NtripClient
