import NtripClient.Session.Step

/-!
# `NtripClient.Session.Select`: what a wait listens to

A wait of a session listens to two channels besides its own operation: the flag by which a
shutdown is requested, and the queue of messages for the server. Both are shared with handles of
the owner, and both say so once no handle is left: waiting for the flag fails, and the queue, when
it is empty, ends. Here the waits are put together from what the channels say, for any numbers of
handles that are left. The owner may drop handles while the session sleeps, so a wait has a number
of its own for the moment at which the session is woken up.

A flag that was not raised and never will be is no shutdown request (`StopFlag.heard`), neither
before the session falls asleep nor when it wakes up (`heedWith_eq`). A queue that has ended leaves
the wait for bytes to the read (`Session.message?`). So the waits do not depend on the numbers of
handles (`attemptWith_eq`, `waitWith_eq`, `waitForBytesWith_eq`).
-/

set_option autoImplicit false

namespace NtripClient

/-- What comes of asking for something that may not be there yet. -/
inductive Poll (α : Type) where
  /-- It is there. -/
  | ready (value : α)
  /-- It is not there yet, or never will be. -/
  | pending
deriving DecidableEq, Repr

/-- The flag that requests a shutdown. -/
structure StopFlag where
  /-- It was raised. -/
  isRaised : Bool
  /-- How many handles are left that can raise it. -/
  handles : Nat
deriving DecidableEq, Repr

namespace StopFlag

/-- Waits for the flag to be raised. This fails if it was not and nobody is left to do so. -/
def waitRaised (flag : StopFlag) : Poll (Except Unit Unit) :=
  if flag.isRaised then .ready (.ok ())
  else if flag.handles = 0 then .ready (.error ())
  else .pending

/-- Waits for a shutdown request. When waiting for the flag fails, there is none, and never
will be. -/
def heard (flag : StopFlag) : Poll Unit :=
  match flag.waitRaised with
  | .ready (.ok ()) => .ready ()
  | .ready (.error ()) => .pending
  | .pending => .pending

/-- Only a flag that was raised is heard, whoever is left. -/
theorem heard_eq (flag : StopFlag) :
    flag.heard = if flag.isRaised then .ready () else .pending := by
  unfold heard waitRaised
  cases flag.isRaised with
  | true => rfl
  | false => by_cases hnone : flag.handles = 0 <;> simp [hnone]

end StopFlag

/-- Waits for the oldest message. If none is left and none can come, the queue has ended. -/
def Uplink.receive (uplink : Uplink) (handles : Nat) : Poll (Option (Bytes × Uplink)) :=
  match uplink.take? with
  | some taken => .ready (some taken)
  | none => if uplink.isOpen && handles != 0 then .pending else .ready none

namespace Session

/-- The message that ends a wait for bytes. It is listened to while the body is handed over, and
no longer when the queue has ended. -/
def message? (session : Session) (senders : Nat) : Poll (Bytes × Uplink) :=
  if session.state.isActive then
    match session.uplink.receive senders with
    | .ready (some taken) => .ready taken
    | .ready none => .pending
    | .pending => .pending
  else .pending

/-- The flag of a session. -/
def stopFlag (session : Session) (stoppers : Nat) : StopFlag :=
  { isRaised := session.stopRequested, handles := stoppers }

/-- Begins a guarded operation, which first listens for a shutdown request. -/
def attemptWith (session : Session) (stoppers : Nat) (operation : Operation) : Session :=
  match (session.stopFlag stoppers).heard with
  | .ready () => session.conclude .cancelled
  | .pending => { session with task := .attempting operation }.record (.began operation)

/-- Listens for a shutdown request after having slept. -/
def heedWith (session : Session) (stoppers : Nat) : Session :=
  match (session.stopFlag stoppers).heard with
  | .ready () => session.conclude .cancelled
  | .pending => session

/-- Sleeps in a guarded operation until something happens, and then listens for a shutdown request,
unless the idle limit has been reached before. -/
def idleWith (session : Session) (woken : Nat) (until? : Option Nat) : Session :=
  let (expired, watchdog) := session.watchdog.poll session.now
  if expired then session.fail .connectionTimeout
  else ({ session with watchdog }.sleep (earliest until? watchdog.alarm?)).heedWith woken

/-- Waits in a guarded operation whose own result is not there yet. -/
def waitWith (session : Session) (stoppers woken : Nat) (until? : Option Nat) : Session :=
  match (session.stopFlag stoppers).heard with
  | .ready () => session.conclude .cancelled
  | .pending => session.idleWith woken until?

/-- Waits for bytes while the read has none. -/
def waitForBytesWith (session : Session) (stoppers senders woken : Nat) (until? : Option Nat) :
    Session :=
  match (session.stopFlag stoppers).heard with
  | .ready () => session.conclude .cancelled
  | .pending =>
    match session.message? senders with
    | .ready (message, uplink) =>
      ({ session with uplink }.settle).attempt (.write .uplink message)
    | .pending => session.idleWith woken until?

variable (s : Session) (stoppers senders woken : Nat) (until? : Option Nat)

/-- A shutdown request is heard exactly if one was made, whoever is left. -/
theorem heard_stopFlag :
    (s.stopFlag stoppers).heard = if s.stopRequested then .ready () else .pending :=
  StopFlag.heard_eq _

/-- An operation begins as if all handles were kept. -/
theorem attemptWith_eq (operation : Operation) :
    s.attemptWith stoppers operation = s.attempt operation := by
  unfold attemptWith attempt
  rw [heard_stopFlag]
  cases s.stopRequested <;> rfl

/-- A session that wakes up notices a shutdown request, but no handle that was dropped. -/
theorem heedWith_eq : s.heedWith stoppers = s.heed := by
  unfold heedWith heed
  rw [heard_stopFlag]
  cases s.stopRequested <;> rfl

/-- Sleeping is the same, whoever is left when the session wakes up. -/
theorem idleWith_eq : s.idleWith woken until? = s.idle until? := by
  unfold idleWith idle
  simp only [heedWith_eq]

/-- An operation waits as if all handles were kept. -/
theorem waitWith_eq : s.waitWith stoppers woken until? = s.wait until? := by
  unfold waitWith wait
  rw [heard_stopFlag, idleWith_eq]
  cases s.stopRequested <;> rfl

/-- A message counts as long as it is in the queue, whoever is left. -/
theorem message?_eq : s.message? senders
    = match (if s.state.isActive then s.uplink.take? else none) with
      | some taken => .ready taken
      | none => .pending := by
  unfold message? Uplink.receive
  cases s.state.isActive with
  | false => rfl
  | true =>
    cases s.uplink.take? with
    | some taken => rfl
    | none => by_cases hleft : (s.uplink.isOpen && senders != 0) = true <;> simp [hleft]

/-- So does the wait for bytes. Only a message that is there ends it. -/
theorem waitForBytesWith_eq :
    s.waitForBytesWith stoppers senders woken until? = s.waitForBytes until? := by
  unfold waitForBytesWith waitForBytes
  rw [heard_stopFlag, message?_eq, idleWith_eq]
  cases s.stopRequested with
  | true => rfl
  | false =>
    cases (if s.state.isActive then s.uplink.take? else none) with
    | none => rfl
    | some taken => rfl

end Session

end NtripClient
