import NtripClient.Address.Basic
import NtripClient.Callbacks
import NtripClient.Handles

/-!
# `NtripClient.Session.Script`: what the world has in store for a session

A session asks other parties for results: a resolver, a connector, and the two
directions of a stream. What such a party does is a script, a list of cues that
are worked off in order until one of them is a result. A cue may also take time,
last for ever, or let the owner of the connection act.

Instants and times are natural numbers, in milliseconds since the start.
-/

set_option autoImplicit false

namespace NtripClient

/-- What the owner of a connection holds it by. -/
inductive Handle where
  /-- Shows the state. -/
  | status
  /-- Requests a shutdown. -/
  | stopper
  /-- Sends data. -/
  | sender
deriving DecidableEq, Repr

/-- What the owner of a connection can do while it runs. -/
inductive Action where
  /-- Request a shutdown. -/
  | shutdown
  /-- Ask whether a shutdown was requested. -/
  | isShutdown
  /-- Send data. -/
  | send (message : Bytes)
  /-- Ask whether the body is being handed over. -/
  | isActive
  /-- Drop all handles of a kind. -/
  | release (handle : Handle)
deriving DecidableEq, Repr

/-- What comes of an action. -/
inductive Reply where
  /-- An answer to a question. -/
  | flag (value : Bool)
  /-- The data will be sent. -/
  | accepted
  /-- The data will not be sent. -/
  | refused (error : Error)
  /-- There is nothing to answer, or no handle to act by. -/
  | nothing
deriving DecidableEq, Repr

/-- One step of a script whose results have type `α`. -/
inductive Cue (α : Type) where
  /-- Wait for a time, from the instant at which the cue is reached. -/
  | delay (ms : Nat)
  /-- Wait for an instant. -/
  | due (instant : Nat)
  /-- Wait for ever. -/
  | never
  /-- Let the owner act. -/
  | act (actions : List Action)
  /-- Give a result. -/
  | result (value : α)

/-- A list of cues, first cue first. -/
abbrev Script (α : Type) := List (Cue α)

/-- What a script says at an instant. -/
inductive Turn (α : Type) where
  /-- A result, and the script after it. -/
  | result (value : α) (rest : Script α)
  /-- Actions, and the script after them. -/
  | act (actions : List Action) (rest : Script α)
  /-- A wait has begun or is over. -/
  | proceed (script : Script α)
  /-- Wait, until an instant or for ever. -/
  | wait (until? : Option Nat)

/-- What a script says at an instant; `final` is its result once it has run out. -/
def Script.turn {α : Type} (script : Script α) (final : α) (now : Nat) : Turn α :=
  match script with
  | [] => .result final []
  | .delay ms :: rest => .proceed (.due (now + ms) :: rest)
  | .due instant :: rest => if now < instant then .wait (some instant) else .proceed rest
  | .never :: _ => .wait none
  | .act actions :: rest => .act actions rest
  | .result value :: rest => .result value rest

/-- The scripts of a stream. -/
structure Peer where
  /-- Bytes that arrive; no bytes are the end of the stream. -/
  reads : Script (Except IoError Bytes) := []
  /-- The most bytes that a write accepts. -/
  writes : Script (Except IoError Nat) := []
  /-- Whether a flush succeeds. -/
  flushes : Script (Except IoError Unit) := []
  /-- Whether closing succeeds. -/
  closes : Script (Except IoError Unit) := []

/-- What the owner does when it is called. -/
structure Reactions where
  /-- On the headers. -/
  headers : List Action := []
  /-- On the first piece of data, the second, and so on. -/
  data : List (List Action) := []
  /-- On the end of the body. -/
  eof : List Action := []
  /-- On a failure. -/
  error : List Action := []

/-- What the owner does on a notice, and what it does on those that follow. -/
def Reactions.take (reactions : Reactions) : Notice → List Action × Reactions
  | .headers _ => (reactions.headers, { reactions with headers := [] })
  | .data _ => (reactions.data.headD [], { reactions with data := reactions.data.tail })
  | .eof => (reactions.eof, { reactions with eof := [] })
  | .error _ => (reactions.error, { reactions with error := [] })

/-- Who can see and touch a session while it runs. -/
inductive Access where
  /-- The owner holds every handle. -/
  | full
  /-- The owner waits for the session itself and cannot see its state. -/
  | hidden
  /-- Nobody holds a handle. -/
  | detached
deriving DecidableEq, Repr

/-- Everything that happens to a session. -/
structure Plan where
  /-- Who holds which handles. -/
  access : Access := .full
  /-- What the owner does before the start. -/
  before : List Action := []
  /-- The resolver. -/
  lookup : Script (Except IoError Candidates) := []
  /-- The connector, one script for each attempt. -/
  attempts : List (Script (Except IoError Peer)) := []
  /-- What the owner does at given instants. -/
  timed : List (Nat × Action) := []
  /-- What the owner does when it is called. -/
  reactions : Reactions := {}
  /-- What the owner does after the end. -/
  after : List Action := []

/-- Inserts an action behind those that come no later. -/
def insertTimed (entry : Nat × Action) : List (Nat × Action) → List (Nat × Action)
  | [] => [entry]
  | first :: rest =>
    if first.1 ≤ entry.1 then first :: insertTimed entry rest else entry :: first :: rest

/-- The timed actions of a plan, earliest first. -/
def Plan.schedule (plan : Plan) : List (Nat × Action) :=
  plan.timed.foldl (fun schedule entry => insertTimed entry schedule) []

end NtripClient
