import NtripClient.Session.Basic

/-!
# `NtripClient.Session.Step`: how a session goes on

`step` makes the next move of a session. It works off one cue of the script that
the task depends on, reports one thing from the bytes that were read, or, when
everything waits, goes to the next instant at which something happens.

A guarded operation looks at three things whenever it is woken, in this order: a
shutdown request, its own result, the idle limit. A result that is there at the
deadline therefore counts. A request made while the operation itself goes on does
not undo a result that follows at once; the next operation sees it. What the owner does at
one instant is done together, before the session is woken.

While the body is handed over, waiting for bytes also means waiting for messages
to the server. Bytes come first: a message is taken only when the read has to wait.
-/

set_option autoImplicit false

namespace NtripClient

/-- The earlier of two instants, of which each may be missing. -/
def earliest : Option Nat → Option Nat → Option Nat
  | some a, some b => some (min a b)
  | some a, none => some a
  | none, b => b

namespace Session

/-- Works off the next cue of a script. `store` puts the rest of the script back,
`finish` uses a result, and `wait` waits. -/
def follow {α : Type} (session : Session) (script : Script α) (final : α)
    (store : Session → Script α → Session) (finish : Session → α → Session)
    (wait : Session → Option Nat → Session) : Session :=
  match script.turn final session.now with
  | .result value rest => finish (store session rest) value
  | .act actions rest => (store session rest).actAll actions
  | .proceed script => store session script
  | .wait until? => wait session until?

/-- What is left of the script of arriving bytes. Without a stream, nothing. -/
def reads (session : Session) : Script (Except IoError Bytes) :=
  (session.peer.map Peer.reads).getD []

/-- What is left of the script of writes. -/
def writes (session : Session) : Script (Except IoError Nat) :=
  (session.peer.map Peer.writes).getD []

/-- What is left of the script of flushes. -/
def flushes (session : Session) : Script (Except IoError Unit) :=
  (session.peer.map Peer.flushes).getD []

/-- What is left of the script of closing. -/
def closes (session : Session) : Script (Except IoError Unit) :=
  (session.peer.map Peer.closes).getD []

/-- Puts back the script of arriving bytes. -/
def putReads (session : Session) (reads : Script (Except IoError Bytes)) : Session :=
  { session with peer := session.peer.map fun peer => { peer with reads } }

/-- Puts back the script of writes. -/
def putWrites (session : Session) (writes : Script (Except IoError Nat)) : Session :=
  { session with peer := session.peer.map fun peer => { peer with writes } }

/-- Puts back the script of flushes. -/
def putFlushes (session : Session) (flushes : Script (Except IoError Unit)) : Session :=
  { session with peer := session.peer.map fun peer => { peer with flushes } }

/-- Puts back the script of closing. -/
def putCloses (session : Session) (closes : Script (Except IoError Unit)) : Session :=
  { session with peer := session.peer.map fun peer => { peer with closes } }

/-- Puts back the script of the lookup. -/
def putLookup (session : Session) (lookup : Script (Except IoError Candidates)) : Session :=
  { session with lookup }

/-- Puts back the script of the attempt being made. -/
def putAttempt (session : Session) (script : Script (Except IoError Peer)) : Session :=
  { session with attempts := script :: session.attempts.tail }

/-- Goes to an instant, at which the owner does everything that is due. -/
def actAt (session : Session) (instant : Nat) : Session :=
  let due := session.schedule.takeWhile (·.1 ≤ instant)
  let schedule := session.schedule.dropWhile (·.1 ≤ instant)
  { session with schedule, now := instant }.actAll (due.map Prod.snd)

/-- Goes to the next instant at which something happens: the end of a wait, or actions
of the owner, which come first. -/
def sleep (session : Session) (wake? : Option Nat) : Session :=
  match session.schedule, wake? with
  | [], none => { session with task := .stuck }
  | [], some wake => { session with now := wake }
  | (instant, _) :: _, none => session.actAt (max session.now instant)
  | (instant, _) :: _, some wake =>
    if instant ≤ wake then session.actAt (max session.now instant)
    else { session with now := wake }

/-- Winds up if a shutdown was requested. -/
def heed (session : Session) : Session :=
  if session.stopRequested then session.conclude .cancelled else session

/-- Waits in a guarded operation until the given instant or for ever: unless the
idle limit has been reached, sleeps until something happens. -/
def idle (session : Session) (until? : Option Nat) : Session :=
  let (expired, watchdog) := session.watchdog.poll session.now
  if expired then session.fail .connectionTimeout
  else ({ session with watchdog }.sleep (earliest until? watchdog.alarm?)).heed

/-- Waits in a guarded operation. -/
def wait (session : Session) (until? : Option Nat) : Session :=
  if session.stopRequested then session.conclude .cancelled else session.idle until?

/-- Waits for bytes to arrive. While the body is handed over, a message to the
server ends the wait. -/
def waitForBytes (session : Session) (until? : Option Nat) : Session :=
  if session.stopRequested then session.conclude .cancelled
  else
    match (if session.state.isActive then session.uplink.take? else none) with
    | some (message, uplink) =>
      ({ session with uplink }.settle).attempt (.write .uplink message)
    | none => session.idle until?

/-- Connects to the next candidate. When there is none left, the failure of the
last one is that of the session. -/
def connectNext (session : Session) (candidate : Nat) (last : IoError) : Candidates → Session
  | [] => session.fail (.io last)
  | endpoint :: others =>
    (session.enter (.connecting candidate)).attempt (.connect candidate endpoint others)

/-- Uses the result of looking up the host. Every address gets the port number of the
configuration. -/
def resolved (session : Session) (result : Except IoError Candidates) : Session :=
  let session := session.settle
  let config := session.connection.config
  match result with
  | .error cause => session.fail (.resolve config.host cause)
  | .ok [] => session.fail (.noAddressFound config.host)
  | .ok candidates =>
    session.connectNext 0 { kind := .notConnected } (Candidates.withPort candidates config.port)

/-- Uses the result of an attempt to connect. -/
def connected (session : Session) (candidate : Nat) (others : Candidates)
    (result : Except IoError Peer) : Session :=
  let session := { session with attempts := session.attempts.tail }.settle
  match result with
  | .error cause => session.connectNext (candidate + 1) cause others
  | .ok peer =>
    ({ session with peer := some peer }.enter .writing).attempt
      (.write .request session.connection.request)

/-- Uses the result of one write, which accepted at most the given number of bytes. The
writer of a whole message makes an interrupted write again, which accepted nothing;
interrupted reads, flushes and closes are failures. -/
def written (session : Session) (purpose : Purpose) (bytes : Bytes)
    (result : Except IoError Nat) : Session :=
  match result with
  | .error cause =>
    if cause.kind = .interrupted then session else session.settle.fail (.io cause)
  | .ok limit =>
    let session := session.record (.wrote (bytes.take limit))
    if limit = 0 then session.settle.fail (.io { kind := .writeZero })
    else { session with task := .attempting (.write purpose (bytes.drop limit)) }

/-- Uses the result of a flush. -/
def flushed (session : Session) (purpose : Purpose) (result : Except IoError Unit) : Session :=
  match result with
  | .error cause => session.settle.fail (.io cause)
  | .ok () =>
    let session := (session.record .flushed).settle
    match purpose with
    | .request => { session.enter .readingStatus with task := .decoding }
    | .uplink => session.attempt .read

/-- Uses what a stream says when it is read. No bytes are the end of the stream. -/
def readable (session : Session) (result : Except IoError Bytes) : Session :=
  match result with
  | .error cause => session.settle.fail (.io cause)
  | .ok bytes =>
    if bytes.isEmpty then session.settle.conclude .closed
    else { session with arrived := bytes }

/-- Reads bytes that have arrived, as many as one read takes. -/
def receive (session : Session) : Session :=
  let limit := session.connection.config.readLimit
  let bytes := session.arrived.take limit
  let session := ({ session with arrived := session.arrived.drop limit }.settle).record
    (.received bytes)
  { session with decoder := session.decoder.push bytes, task := .decoding }

/-- Goes on with a guarded operation. -/
def stepOperation (session : Session) : Operation → Session
  | .resolve =>
    session.follow session.lookup (.ok []) putLookup resolved wait
  | .connect candidate _ others =>
    session.follow (session.attempts.headD []) (.error { kind := .connectionRefused }) putAttempt
      (fun session result => session.connected candidate others result) wait
  | .write purpose [] => { session with task := .attempting (.flush purpose) }
  | .write purpose bytes =>
    session.follow session.writes (.ok bytes.length) putWrites
      (fun session result => session.written purpose bytes result) wait
  | .flush purpose =>
    session.follow session.flushes (.ok ()) putFlushes
      (fun session result => session.flushed purpose result) wait
  | .read =>
    if session.arrived.isEmpty then
      session.follow session.reads (.ok []) putReads readable waitForBytes
    else session.receive

/-- Goes on with the bytes that were read. -/
def stepDecoder (session : Session) : Session :=
  let (signal, decoder) := session.decoder.advance session.limits
  let session := { session with decoder }
  match signal with
  | .more => session.attempt .read
  | .proceed => session
  | .accepted status =>
    if status.skipsHeaders then session.enter (.streaming .plain)
    else session.enter .readingHeaders
  | .headers map =>
    if session.stopRequested then session.conclude .cancelled
    else
      (session.notify (.headers map)).enter
        (.streaming (if map.isChunked then .chunked else .plain))
  | .data bytes =>
    if session.stopRequested then session.conclude .cancelled
    else session.notify (.data bytes)
  | .finished => session.conclude .finished
  | .failed error => session.fail error

/-- What a session comes to when its work stops in a state. A shutdown request
outweighs everything. When the server closes, that is the end of a body that has
begun, and otherwise a failure. -/
def outcomeOf (stopRequested : Bool) (state : State) (ending : Ending) : Outcome :=
  if stopRequested then .shutdown
  else
    match ending with
    | .cancelled => .shutdown
    | .closed => if state.isActive then .eof else .failed Error.closedEarly
    | .finished => .eof
    | .failed error => .failed error

/-- Calls the owner for the last time, unless a shutdown was requested. -/
def notifyEnd (session : Session) : Outcome → Session
  | .shutdown => session
  | .eof => session.notify .eof
  | .failed error => session.notify (.error error)

/-- Winds up: calls the owner, closes the uplink, and goes on to close the stream if
there is one. -/
def stepConclusion (session : Session) (ending : Ending) : Session :=
  let outcome := outcomeOf session.stopRequested session.state ending
  let session := session.notifyEnd outcome
  let session := { session with uplink := session.uplink.close }.enter .closed
  if session.peer.isSome then { session with task := .closing outcome }.record .closing
  else session.finish outcome

/-- Goes on with closing the stream. Nothing guards it, and it makes no difference
whether it succeeds. -/
def stepClosing (session : Session) (outcome : Outcome) : Session :=
  session.follow session.closes (.ok ()) putCloses
    (fun session result =>
      ({ session with peer := none }.record (.closed result)).finish outcome)
    sleep

/-- The next move of a session. A session that is over makes none. -/
def step (session : Session) : Session :=
  match session.task with
  | .attempting operation => session.stepOperation operation
  | .decoding => session.stepDecoder
  | .concluding ending => session.stepConclusion ending
  | .closing outcome => session.stepClosing outcome
  | .ended _ => session
  | .stuck => session

end Session

end NtripClient
