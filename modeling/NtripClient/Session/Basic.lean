import NtripClient.Answer.Decoder
import NtripClient.Connection
import NtripClient.Session.Script
import NtripClient.State
import NtripClient.Watchdog

/-!
# `NtripClient.Session.Basic`: a running connection and its history

A session is a connection while it runs: the instant, the state, the idle limit,
the decoder, what is left of the scripts, and the task it is at. Whatever happens
is recorded with its instant and the state of that moment, newest first.

The tasks are guarded operations, reading what has arrived, winding up, closing
the stream, and the two ends: the session is over, or nothing can happen to it any
more.
-/

set_option autoImplicit false

namespace NtripClient

/-- What is being written. -/
inductive Purpose where
  | request
  | uplink
deriving DecidableEq, Repr

/-- An operation that shutdown and the idle limit can end. -/
inductive Operation where
  /-- Look up the host. -/
  | resolve
  /-- Connect to the candidate with this number; the others come after it. -/
  | connect (candidate : Nat) (endpoint : Endpoint) (others : Candidates)
  /-- Write these bytes, then flush. -/
  | write (purpose : Purpose) (bytes : Bytes)
  /-- Flush what was written. -/
  | flush (purpose : Purpose)
  /-- Wait for bytes to arrive. -/
  | read
deriving DecidableEq, Repr

/-- How the work of a session stops. -/
inductive Ending where
  /-- A shutdown was requested. -/
  | cancelled
  /-- The server closed the stream. -/
  | closed
  /-- The body is complete. -/
  | finished
  /-- Something failed. -/
  | failed (error : Error)
deriving DecidableEq, Repr

/-- What a session comes to. -/
inductive Outcome where
  /-- The body is over. -/
  | eof
  /-- A shutdown was requested. -/
  | shutdown
  /-- The connection failed. -/
  | failed (error : Error)
deriving DecidableEq, Repr

/-- Something that happens in a session. -/
inductive Event where
  /-- The session starts. -/
  | started
  /-- The state is now this one. -/
  | entered (state : State)
  /-- A guarded operation begins. -/
  | began (operation : Operation)
  /-- The guarded operation is complete, well or not. -/
  | settled
  /-- The stream accepted these bytes. -/
  | wrote (bytes : Bytes)
  /-- The stream was flushed. -/
  | flushed
  /-- These bytes arrived. -/
  | received (bytes : Bytes)
  /-- The owner is called. -/
  | notified (notice : Notice)
  /-- Closing the stream begins. -/
  | closing
  /-- The stream is closed, well or not. -/
  | closed (result : Except IoError Unit)
  /-- The owner acts. -/
  | acted (action : Action) (reply : Reply)
  /-- The session is over. -/
  | ended
deriving Repr

/-- An event with its circumstances. -/
structure Entry where
  /-- The instant. -/
  time : Nat
  /-- The state at that moment. -/
  state : State
  /-- The owner can see the state. -/
  isWatched : Bool
  /-- What happens. -/
  event : Event
deriving Repr

/-- The handles that the owner holds. -/
structure Held where
  /-- One that shows the state. -/
  status : Bool
  /-- One that requests a shutdown. -/
  stopper : Bool
  /-- One that sends data. -/
  sender : Bool
deriving DecidableEq, Repr

/-- The handles held after dropping those of a kind. -/
def Held.release (held : Held) : Handle → Held
  | .status => { held with status := false }
  | .stopper => { held with stopper := false }
  | .sender => { held with sender := false }

/-- The handles held before the start: the state cannot be seen yet. -/
def Access.heldBefore : Access → Held
  | .full => { status := false, stopper := true, sender := true }
  | .hidden => { status := false, stopper := true, sender := true }
  | .detached => { status := false, stopper := false, sender := false }

/-- From the start on the owner holds a handle that shows the state. -/
def Access.showsState : Access → Bool
  | .full => true
  | .hidden => false
  | .detached => false

/-- What a session is at. -/
inductive Task where
  /-- A guarded operation. -/
  | attempting (operation : Operation)
  /-- Reading what has arrived. -/
  | decoding
  /-- Winding up. -/
  | concluding (ending : Ending)
  /-- Closing the stream. -/
  | closing (outcome : Outcome)
  /-- Nothing: the session is over. -/
  | ended (outcome : Outcome)
  /-- Nothing: the session waits, and nothing can happen any more. -/
  | stuck
deriving DecidableEq, Repr

/-- A running connection. -/
structure Session where
  /-- The connection that runs. -/
  connection : Connection
  /-- The instant. -/
  now : Nat := 0
  /-- How far the connection has come. -/
  state : State := .idle
  /-- The idle limit. -/
  watchdog : Watchdog
  /-- A shutdown was requested. -/
  stopRequested : Bool := false
  /-- The data that waits to be written. -/
  uplink : Uplink := {}
  /-- The handles that the owner holds. -/
  held : Held
  /-- What is left of the resolver's script. -/
  lookup : Script (Except IoError Candidates)
  /-- What is left of the connector's scripts; the first one is that of the attempt
  being made or the next one. -/
  attempts : List (Script (Except IoError Peer))
  /-- What is left of the stream's scripts, while there is a stream. -/
  peer : Option Peer := none
  /-- The bytes that have arrived and were not read yet. -/
  arrived : Bytes := []
  /-- The bytes that were read, and the part of the answer they belong to. -/
  decoder : Decoder := {}
  /-- What the owner does at given instants, earliest first. -/
  schedule : List (Nat × Action)
  /-- What the owner does when it is called. -/
  reactions : Reactions
  /-- What the owner does after the end. -/
  after : List Action
  /-- What the session is at. -/
  task : Task := .attempting .resolve
  /-- What has happened, newest first. -/
  history : List Entry := []

namespace Session

/-- The limits on the answer. -/
def limits (session : Session) : Limits :=
  { line := session.connection.config.maxLineLength
    block := session.connection.config.maxHeaderSize }

/-- The session is over, or nothing can happen to it any more. -/
def isHalted (session : Session) : Bool :=
  match session.task with
  | .ended _ => true
  | .stuck => true
  | _ => false

/-- What has happened, oldest first. -/
def log (session : Session) : List Entry :=
  session.history.reverse

/-- Records an event. -/
def record (session : Session) (event : Event) : Session :=
  { session with
    history := { time := session.now, state := session.state, isWatched := session.held.status,
                 event } :: session.history }

/-- Moves on to a state. -/
def enter (session : Session) (state : State) : Session :=
  { session with state := session.state.moveTo state }.record (.entered state)

/-- What an action comes to. Without a handle for it, nothing. -/
def respond (session : Session) : Action → Session × Reply
  | .shutdown =>
    if session.held.stopper then ({ session with stopRequested := true }, .flag true)
    else (session, .nothing)
  | .isShutdown =>
    (session, if session.held.stopper then .flag session.stopRequested else .nothing)
  | .send message =>
    if session.held.sender then
      match session.uplink.send message with
      | .ok uplink => ({ session with uplink }, .accepted)
      | .error error => (session, .refused error)
    else (session, .nothing)
  | .isActive =>
    (session, if session.held.status then .flag session.state.isActive else .nothing)
  | .release handle => ({ session with held := session.held.release handle }, .nothing)

/-- The owner acts. -/
def act (session : Session) (action : Action) : Session :=
  let (session, reply) := session.respond action
  session.record (.acted action reply)

/-- The owner acts several times. -/
def actAll (session : Session) (actions : List Action) : Session :=
  actions.foldl act session

/-- The owner is called, and reacts. -/
def notify (session : Session) (notice : Notice) : Session :=
  let (actions, reactions) := session.reactions.take notice
  ({ session with reactions }.record (.notified notice)).actAll actions

/-- Winds up. -/
def conclude (session : Session) (ending : Ending) : Session :=
  { session with task := .concluding ending }

/-- Winds up because of a failure. -/
def fail (session : Session) (error : Error) : Session :=
  session.conclude (.failed error)

/-- Begins a guarded operation, unless a shutdown was requested. -/
def attempt (session : Session) (operation : Operation) : Session :=
  if session.stopRequested then session.conclude .cancelled
  else { session with task := .attempting operation }.record (.began operation)

/-- Notes that a guarded operation is complete, which is progress. -/
def settle (session : Session) : Session :=
  { session with watchdog := session.watchdog.reset session.now }.record .settled

/-- Notes the end of the session, after which the owner acts once more. -/
def finish (session : Session) (outcome : Outcome) : Session :=
  ({ session with after := [], task := .ended outcome }.record .ended).actAll session.after

end Session

end NtripClient
