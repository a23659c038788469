import NtripClient.Session.Step

/-!
# `NtripClient.Session.Run`: a session from its start to its end

`start` makes a session of a connection and everything that happens to it, and
`run` moves it until it is over or nothing can happen to it any more.

`work` bounds the moves that are left. Each move uses up a part of it: a cue, an
action, a byte, a message, a candidate, an instant to wake up at, or the distance of
the task from the end.
-/

set_option autoImplicit false

namespace NtripClient

/-- A session about to look up its host. The actions before the start have been
made. -/
def Session.start (connection : Connection) (plan : Plan) : Session :=
  let session : Session :=
    { connection
      watchdog := Watchdog.new connection.config.idleTimeout 0
      held := plan.access.heldBefore
      lookup := plan.lookup
      attempts := plan.attempts
      schedule := plan.schedule
      reactions := plan.reactions
      after := plan.after }
  let session := session.actAll plan.before
  let session := { session with held := { session.held with status := plan.access.showsState } }
  ((session.record .started).enter .resolving).attempt .resolve

/-- The moves that actions may cause, each of which may queue a message. -/
def actionsWork (actions : List Action) : Nat :=
  7 * actions.length

/-- The moves that a cue may cause at an instant, if a result `value` may cause
`resultWork value` of them. -/
def Cue.work {α : Type} (resultWork : α → Nat) (now : Nat) : Cue α → Nat
  | .delay _ => 3
  | .due instant => if now < instant then 2 else 1
  | .never => 1
  | .act actions => 1 + actionsWork actions
  | .result value => 1 + resultWork value

/-- The moves that a script may cause at an instant. -/
def Script.work {α : Type} (resultWork : α → Nat) (now : Nat) (script : Script α) : Nat :=
  (script.map (Cue.work resultWork now)).foldr (· + ·) 0

/-- The moves that bytes that arrive may cause, and no others. -/
def readWork : Except IoError Bytes → Nat
  | .ok bytes => 4 * bytes.length
  | .error _ => 0

/-- The moves that the result of a lookup may cause. -/
def lookupWork : Except IoError Candidates → Nat
  | .ok candidates => 2 * candidates.length
  | .error _ => 0

/-- The moves that a stream may cause. -/
def Peer.work (now : Nat) (peer : Peer) : Nat :=
  Script.work readWork now peer.reads + Script.work (fun _ => 0) now peer.writes
    + Script.work (fun _ => 0) now peer.flushes + Script.work (fun _ => 0) now peer.closes

/-- The moves that the result of an attempt may cause. -/
def attemptWork (now : Nat) : Except IoError Peer → Nat
  | .ok peer => peer.work now
  | .error _ => 0

/-- The moves that reactions may cause. -/
def Reactions.work (reactions : Reactions) : Nat :=
  actionsWork reactions.headers + (reactions.data.map actionsWork).foldr (· + ·) 0
    + actionsWork reactions.eof + actionsWork reactions.error

/-- The distance of a task from the end, if nothing else happens. -/
def Task.rank : Task → Nat
  | .attempting .resolve => 11
  | .attempting (.connect _ _ others) => 11 + 2 * others.length
  | .attempting (.write _ bytes) => if bytes.isEmpty then 8 else 9
  | .attempting (.flush _) => 7
  | .decoding => 5
  | .attempting .read => 4
  | .concluding _ => 2
  | .closing _ => 1
  | .ended _ => 0
  | .stuck => 0

/-- One move, if the idle limit lies in the future. -/
def Watchdog.work (watchdog : Watchdog) (now : Nat) : Nat :=
  match watchdog.alarm? with
  | some alarm => if now < alarm then 1 else 0
  | none => 0

namespace Session

/-- The moves that cues, bytes, actions and messages may cause. -/
def load (session : Session) : Nat :=
  Script.work lookupWork session.now session.lookup
    + (session.attempts.map (Script.work (attemptWork session.now) session.now)).foldr (· + ·) 0
    + (session.peer.map (Peer.work session.now)).getD 0
    + 4 * session.arrived.length + session.decoder.buffer.length
    + 8 * session.schedule.length + session.reactions.work + actionsWork session.after
    + 7 * session.uplink.queue.length

/-- A bound on the moves that are left. -/
def work (session : Session) : Nat :=
  session.load + session.watchdog.work session.now + session.task.rank

/-- Makes at most the given number of moves. -/
def runFor : Nat → Session → Session
  | 0, session => session
  | fuel + 1, session => if session.isHalted then session else session.step.runFor fuel

/-- Moves a session until it halts. -/
def run (session : Session) : Session :=
  session.runFor session.work

end Session

end NtripClient
