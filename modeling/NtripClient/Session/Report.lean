import NtripClient.Session.Run

/-!
# `NtripClient.Session.Report`: what an onlooker sees of a session

An onlooker sees what the session does to the outside: lookups, attempts to
connect, accepted writes, flushes, calls of the owner, the closing of the stream,
and the owner's own actions. The state is seen only while the owner holds a handle
that shows it.
-/

set_option autoImplicit false

namespace NtripClient

/-- Something that an onlooker sees. -/
inductive Sight where
  /-- The session starts. -/
  | started
  /-- This host is looked up. -/
  | resolve (host : String)
  /-- An attempt to connect to this endpoint begins. -/
  | connect (endpoint : Endpoint)
  /-- The stream accepts these bytes. -/
  | write (bytes : Bytes)
  /-- The stream was flushed. -/
  | flush
  /-- The owner is called. -/
  | notified (notice : Notice)
  /-- The stream is closed, well or not. -/
  | close (isOk : Bool)
  /-- The owner acts. -/
  | acted (action : Action) (reply : Reply)
  /-- The session is over. -/
  | ended
deriving Repr

/-- What is seen of an event. -/
def Event.sight? (host : String) : Event → Option Sight
  | .started => some .started
  | .began .resolve => some (.resolve host)
  | .began (.connect _ endpoint _) => some (.connect endpoint)
  | .wrote bytes => some (.write bytes)
  | .flushed => some .flush
  | .notified notice => some (.notified notice)
  | .closed result => some (.close (result matches .ok _))
  | .acted action reply => some (.acted action reply)
  | .ended => some .ended
  | _ => none

/-- One line of a report. -/
structure ReportLine where
  /-- The instant. -/
  time : Nat
  /-- The state, if it can be seen. -/
  state : Option State
  /-- What is seen. -/
  sight : Sight
deriving Repr

/-- What is seen of an entry. -/
def Entry.report? (host : String) (entry : Entry) : Option ReportLine :=
  (entry.event.sight? host).map fun sight =>
    { time := entry.time, state := if entry.isWatched then some entry.state else none, sight }

namespace Session

/-- What is seen of a session, oldest first. -/
def report (session : Session) : List ReportLine :=
  session.log.filterMap (Entry.report? session.connection.config.host)

/-- What the session came to, if it is over. -/
def outcome? (session : Session) : Option Outcome :=
  match session.task with
  | .ended outcome => some outcome
  | _ => none

/-- The calls of the owner, oldest first. -/
def notices (session : Session) : List Notice :=
  session.log.filterMap fun entry =>
    match entry.event with
    | .notified notice => some notice
    | _ => none

end Session

end NtripClient
