import NtripClient.Text.Numeral

/-!
# `NtripClient.State`: how far a connection has come

A connection passes through its states in one direction. `closed` is the last
one, whatever state it is reached from.
-/

set_option autoImplicit false

namespace NtripClient

/-- How the body of an answer is cut into pieces. -/
inductive Framing where
  /-- All bytes until the server closes. -/
  | plain
  /-- Chunks, each announced by a size line. -/
  | chunked
deriving DecidableEq, Repr

/-- How far a connection has come. -/
inductive State where
  /-- Not started. -/
  | idle
  /-- Looking up the host. -/
  | resolving
  /-- Connecting to the candidate with this number, the first one being 0. -/
  | connecting (candidate : Nat)
  /-- Sending the request. -/
  | writing
  /-- Waiting for the status line. -/
  | readingStatus
  /-- Waiting for the header block. -/
  | readingHeaders
  /-- Handing over the body. -/
  | streaming (framing : Framing)
  /-- Over. -/
  | closed
deriving DecidableEq, Repr

namespace State

/-- The body is being handed over. -/
def isActive : State → Bool
  | .streaming _ => true
  | _ => false

/-- The connection is over. -/
def isClosed : State → Bool
  | .closed => true
  | _ => false

/-- The state after a move to `next`. From `closed` there is none. -/
def moveTo (state next : State) : State :=
  if state.isClosed then state else next

/-- The state as text. -/
def text : State → String
  | .idle => "idle"
  | .resolving => "resolving"
  | .connecting candidate =>
    String.ofList ("connecting (candidate ".toList ++ Numeral.decimal candidate ++ [')'])
  | .writing => "writing request"
  | .readingStatus => "reading status"
  | .readingHeaders => "reading headers"
  | .streaming .plain => "streaming"
  | .streaming .chunked => "streaming (chunked)"
  | .closed => "closed"

/-- Nothing follows `closed`. -/
@[simp] theorem moveTo_closed (next : State) : State.closed.moveTo next = .closed := rfl

end State

end NtripClient
