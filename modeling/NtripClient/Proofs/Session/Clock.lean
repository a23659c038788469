import NtripClient.Proofs.Session.Calls

/-!
# `NtripClient.Proofs.Session.Clock`: when things happen

A session does most of what it does at one instant. The clock goes on in one place only: when
an operation waits and the session sleeps. `Works` is what a session can do while it works, put
together from what it does at an instant and from sleeping, and `works_step` says that every
move of a session at work is of this kind. Invariants of the work are proved against `Works`
once: `InWork` (the uplink is open, the state is not closed, nothing of the end is in the log),
`Prompt` (no action of the owner is overdue) and `Flow` (the log is in the order of time). What
a session adds to its log is said by `Adds`, for entries of any kind.

`Turnout` lists what a guarded operation can come to. It is finer than the lemmas about
a `Pause`: an operation that has no result now either goes on at the same instant
(`Moment`), or gives in to a shutdown request, or waits (`Awaits`), and then `step_of_awaits`
says that the session idles. Only there does the idle limit matter.
-/

set_option autoImplicit false

namespace NtripClient

/-! ### Scripts that wait -/

section
variable {α : Type} {script : Script α} {now : Nat} {until? : Option Nat}

/-- The script has to wait at this instant: until a later one, or for ever. -/
def Script.Waits (script : Script α) (now : Nat) : Option Nat → Prop
  | some instant => now < instant ∧ ∃ rest, script = .due instant :: rest
  | none => ∃ rest, script = .never :: rest

/-- A script whose turn is a wait has to wait. -/
theorem Script.waits_of_turn {final : α} (h : script.turn final now = .wait until?) :
    script.Waits now until? := by
  unfold Script.turn at h
  split at h
  · cases h
  · cases h
  · split at h
    · cases h
      exact ⟨‹_›, _, rfl⟩
    · cases h
  · cases h
    exact ⟨_, rfl⟩
  · cases h
  · cases h

/-- Conversely, the turn of a script that has to wait is that wait. -/
theorem Script.Waits.turn (h : script.Waits now until?) (final : α) :
    script.turn final now = .wait until? := by
  cases until? with
  | some instant =>
    obtain ⟨hlt, rest, rfl⟩ := h
    exact if_pos hlt
  | none =>
    obtain ⟨rest, rfl⟩ := h
    rfl

/-- A wait that is not over goes on. -/
theorem Script.Waits.later (h : script.Waits now until?) {later : Nat}
    (hlater : ∀ instant, until? = some instant → later < instant) :
    script.Waits later until? := by
  cases until? with
  | some instant => exact ⟨hlater instant rfl, h.2⟩
  | none => exact h

/-- A wait ends at a later instant. -/
theorem Script.Waits.lt (h : script.Waits now until?) {instant : Nat}
    (huntil : until? = some instant) : now < instant := by
  subst huntil
  exact h.1

end

/-- Only a session that winds up records this. A send is refused only by an uplink that is
closed. -/
def Event.tellsEnd : Event → Bool
  | .entered state => state.isClosed
  | .acted _ (.refused _) => true
  | .closing => true
  | .closed _ => true
  | .ended => true
  | _ => false

/-- The work of the session was wound up. -/
def Task.isOver : Task → Bool
  | .closing _ => true
  | .ended _ => true
  | _ => false

namespace Session

variable {s t u : Session}

/-! ### What a session does while it works -/

/-- The first action that the owner is going to take lies ahead. -/
def IsAhead (schedule : List (Nat × Action)) (now : Nat) : Prop :=
  ∀ entry, schedule.head? = some entry → now < entry.1

/-- Nothing changes that the clock, the log or the end of the work depends on. -/
structure Steady (s t : Session) : Prop where
  now : t.now = s.now
  schedule : t.schedule = s.schedule
  history : t.history = s.history
  uplink : t.uplink.isOpen = s.uplink.isOpen
  state : s.state.isClosed = false → t.state.isClosed = false
  peer : s.peer.isSome = true → t.peer.isSome = true
  task : s.task.isOver = false → t.task.isOver = false

/-- The second session is the first one after some work, in which time may have passed and the
owner may have acted. -/
inductive Works (s : Session) : Session → Prop where
  | refl : Works s s
  | steady {t u : Session} (h : Works s t) (same : Steady t u) : Works s u
  | record {t : Session} (event : Event) (h : Works s t) (early : event.tellsEnd = false) :
      Works s (t.record event)
  | act {t : Session} (action : Action) (h : Works s t) : Works s (t.act action)
  /-- The session wakes up at a later instant, and what was due by then is off the schedule. -/
  | wake {t : Session} {now : Nat} {schedule : List (Nat × Action)} (h : Works s t)
      (later : t.now ≤ now) (ahead : IsAhead schedule now) :
      Works s { t with now, schedule }

/-- Work goes on with more work. -/
theorem Works.trans (h : Works s t) (k : Works t u) : Works s u := by
  induction k with
  | refl => exact h
  | steady _ same ih => exact ih.steady same
  | record event _ early ih => exact ih.record event early
  | act action _ ih => exact ih.act action
  | wake _ later ahead ih => exact ih.wake later ahead

/-- A change that leaves the clock, the log and the end of the work alone is work. -/
theorem Steady.works (h : Steady s t) : Works s t :=
  .steady .refl h

/-- Recording an event is work, unless it tells of the end. -/
theorem works_record (s : Session) (event : Event) (h : event.tellsEnd = false) :
    Works s (s.record event) :=
  .record event .refl h

/-- The actions of the owner, taken one after the other, are work. -/
theorem works_actAll (s : Session) (actions : List Action) : Works s (s.actAll actions) := by
  induction actions generalizing s with
  | nil => exact .refl
  | cons action rest ih => exact (Works.act action .refl).trans (ih (s.act action))

/-- A state other than the last one is entered. -/
theorem works_enter (s : Session) {state : State} (h : state.isClosed = false) :
    Works s (s.enter state) := by
  have hmoved : Steady s { s with state := s.state.moveTo state } := by
    refine ⟨rfl, rfl, rfl, rfl, ?_, id, id⟩
    intro hopen
    -- A state that is not closed gives way to every other one.
    show (s.state.moveTo state).isClosed = false
    rw [State.moveTo, hopen]
    exact h
  exact hmoved.works.record (.entered state) h

/-- Notifying the owner is work, with what the owner does in return. -/
theorem works_notify (s : Session) (notice : Notice) : Works s (s.notify notice) := by
  have hsteady : Steady s { s with reactions := (s.reactions.take notice).2 } :=
    ⟨rfl, rfl, rfl, rfl, id, id, id⟩
  exact (hsteady.works.record (.notified notice) rfl).trans (works_actAll _ _)

/-- Settling an operation is work. -/
theorem works_settle (s : Session) : Works s s.settle := by
  have hsteady : Steady s { s with watchdog := s.watchdog.reset s.now } :=
    ⟨rfl, rfl, rfl, rfl, id, id, id⟩
  exact hsteady.works.record .settled rfl

/-- Giving the work an end is its last piece. -/
theorem works_conclude (s : Session) (ending : Ending) : Works s (s.conclude ending) :=
  Steady.works ⟨rfl, rfl, rfl, rfl, id, id, fun _ => rfl⟩

/-- So is failing. -/
theorem works_fail (s : Session) (error : Error) : Works s (s.fail error) :=
  works_conclude s (.failed error)

/-- Beginning an operation is work, also where a shutdown request turns it away. -/
theorem works_attempt (s : Session) (operation : Operation) : Works s (s.attempt operation) := by
  unfold attempt
  split
  · exact works_conclude s _
  · have hsteady : Steady s { s with task := .attempting operation } :=
      ⟨rfl, rfl, rfl, rfl, id, id, fun _ => rfl⟩
    exact hsteady.works.record (.began operation) rfl

/-! ### The results of operations -/

/-- Going on to the next address is work, and so is failing after the last one. -/
theorem works_connectNext (s : Session) (candidate : Nat) (last : IoError)
    (candidates : Candidates) : Works s (s.connectNext candidate last candidates) := by
  cases candidates with
  | nil => exact works_fail s _
  | cons endpoint others => exact (works_enter s rfl).trans (works_attempt _ _)

/-- Using what the lookup found is work. -/
theorem works_resolved (s : Session) (result : Except IoError Candidates) :
    Works s (s.resolved result) := by
  refine (works_settle s).trans ?_
  unfold resolved
  split
  · exact works_fail _ _
  · exact works_fail _ _
  · exact works_connectNext _ _ _ _

/-- Using the result of one attempt to connect is work. -/
theorem works_connected (s : Session) (candidate : Nat) (others : Candidates)
    (result : Except IoError Peer) : Works s (s.connected candidate others result) := by
  have htail : Steady s { s with attempts := s.attempts.tail } :=
    ⟨rfl, rfl, rfl, rfl, id, id, id⟩
  refine htail.works.trans ((works_settle _).trans ?_)
  cases result with
  | error cause => exact works_connectNext _ _ _ _
  | ok peer =>
    have hpeer : ∀ t : Session, Steady t { t with peer := some peer } :=
      fun t => ⟨rfl, rfl, rfl, rfl, id, fun _ => rfl, id⟩
    exact (hpeer _).works.trans ((works_enter _ rfl).trans (works_attempt _ _))

/-- Using the result of one write is work. -/
theorem works_written (s : Session) (purpose : Purpose) (bytes : Bytes)
    (result : Except IoError Nat) : Works s (s.written purpose bytes result) := by
  unfold written
  cases result with
  | error cause =>
    -- A write that was interrupted is tried again.
    simp only
    split
    · exact .refl
    · exact (works_settle s).trans (works_fail _ _)
  | ok limit =>
    refine (works_record s (.wrote (bytes.take limit)) rfl).trans ?_
    simp only
    split
    · exact (works_settle _).trans (works_fail _ _)
    · exact Steady.works ⟨rfl, rfl, rfl, rfl, id, id, fun _ => rfl⟩

/-- Using the result of a flush is work. -/
theorem works_flushed (s : Session) (purpose : Purpose) (result : Except IoError Unit) :
    Works s (s.flushed purpose result) := by
  unfold flushed
  cases result with
  | error cause => exact (works_settle s).trans (works_fail _ _)
  | ok u =>
    refine (works_record s .flushed rfl).trans ((works_settle _).trans ?_)
    cases purpose with
    | request =>
      exact (works_enter _ rfl).trans (Steady.works ⟨rfl, rfl, rfl, rfl, id, id, fun _ => rfl⟩)
    | uplink => exact works_attempt _ _

/-- Using the result of a read is work. -/
theorem works_readable (s : Session) (result : Except IoError Bytes) :
    Works s (s.readable result) := by
  unfold readable
  cases result with
  | error cause => exact (works_settle s).trans (works_fail _ _)
  | ok bytes =>
    -- A read that gives no bytes is the end of the stream.
    simp only
    split
    · exact (works_settle s).trans (works_conclude _ _)
    · exact Steady.works ⟨rfl, rfl, rfl, rfl, id, id, id⟩

/-- Handing bytes on to the decoder is work. -/
theorem works_receive (s : Session) : Works s s.receive := by
  have hdrop : Steady s { s with arrived := s.arrived.drop s.connection.config.readLimit } :=
    ⟨rfl, rfl, rfl, rfl, id, id, id⟩
  refine hdrop.works.trans ((works_settle _).trans ?_)
  refine (works_record _ (.received (s.arrived.take s.connection.config.readLimit)) rfl).steady ?_
  exact ⟨rfl, rfl, rfl, rfl, id, id, fun _ => rfl⟩

/-- One move of the decoder is work, whatever it signals. -/
theorem works_stepDecoder (s : Session) : Works s s.stepDecoder := by
  unfold stepDecoder
  cases s.decoder.advance s.limits with
  | mk signal decoder =>
    have hdecoder : Steady s { s with decoder } := ⟨rfl, rfl, rfl, rfl, id, id, id⟩
    refine hdecoder.works.trans ?_
    cases signal with
    | more => exact works_attempt _ _
    | proceed => exact .refl
    | accepted status =>
      simp only
      split
      · exact works_enter _ rfl
      · exact works_enter _ rfl
    | headers map =>
      simp only
      split
      · exact works_conclude _ _
      · exact (works_notify _ _).trans (works_enter _ rfl)
    | data bytes =>
      simp only
      split
      · exact works_conclude _ _
      · exact works_notify _ _
    | finished => exact works_conclude _ _
    | failed error => exact works_fail _ _

/-! ### What an operation comes to -/

/-- The session goes on at the same instant, and the idle limit is where it was. -/
structure Moment (s t : Session) : Prop where
  lull : Lull s t
  works : Works s t
  now : t.now = s.now
  watchdog : t.watchdog = s.watchdog

/-- What becomes of an operation that gets its result, piece by piece for a write. -/
inductive Yields (s : Session) : Operation → Session → Prop where
  | resolved {result : Except IoError Candidates} {rest : Script (Except IoError Candidates)} :
      Yields s .resolve ((s.putLookup rest).resolved result)
  | connected {candidate : Nat} {endpoint : Endpoint} {others : Candidates}
      {result : Except IoError Peer} {rest : Script (Except IoError Peer)} :
      Yields s (.connect candidate endpoint others)
        ((s.putAttempt rest).connected candidate others result)
  | offered {purpose : Purpose} :
      Yields s (.write purpose []) { s with task := .attempting (.flush purpose) }
  | written {purpose : Purpose} {bytes : Bytes} {result : Except IoError Nat}
      {rest : Script (Except IoError Nat)} :
      Yields s (.write purpose bytes) ((s.putWrites rest).written purpose bytes result)
  | flushed {purpose : Purpose} {result : Except IoError Unit}
      {rest : Script (Except IoError Unit)} :
      Yields s (.flush purpose) ((s.putFlushes rest).flushed purpose result)
  | readable {result : Except IoError Bytes} {rest : Script (Except IoError Bytes)} :
      Yields s .read ((s.putReads rest).readable result)
  | received : Yields s .read s.receive
  /-- A message for the server ends the wait for bytes. -/
  | message {message : Bytes} {uplink : Uplink} (take : s.uplink.take? = some (message, uplink)) :
      Yields s .read (({ s with uplink }.settle).attempt (.write .uplink message))

/-- The script of the operation has to wait, and so has the session. -/
def WaitsFor (s : Session) (until? : Option Nat) : Operation → Prop
  | .resolve => s.lookup.Waits s.now until?
  | .connect _ _ _ => (s.attempts.headD []).Waits s.now until?
  | .write _ bytes => bytes ≠ [] ∧ s.writes.Waits s.now until?
  | .flush _ => s.flushes.Waits s.now until?
  | .read => s.arrived = [] ∧ s.reads.Waits s.now until? ∧
      (s.state.isActive = true → s.uplink.queue = [])

/-- The session waits in an operation, and nobody has requested a shutdown. -/
structure Awaits (s : Session) (operation : Operation) (until? : Option Nat) : Prop where
  task : s.task = .attempting operation
  calm : s.stopRequested = false
  waits : s.WaitsFor until? operation

/-- What the owner does takes no time. -/
theorem Moment.actAll (h : Moment s t) (actions : List Action) :
    Moment s (t.actAll actions) where
  lull := h.lull.trans (lull_actAll t actions)
  works := h.works.trans (works_actAll t actions)
  now := (watchdog_actAll t actions).2.trans h.now
  watchdog := (watchdog_actAll t actions).1.trans h.watchdog

/-- What happens to the stream leaves the clock, the log and the end of the work alone. -/
theorem steady_mapPeer (s : Session) (change : Peer → Peer) :
    Steady s { s with peer := s.peer.map change } :=
  ⟨rfl, rfl, rfl, rfl, id, fun h => (Option.isSome_map ..).trans h, id⟩

/-- An operation that is followed through its script gets a result, goes on at the same
instant, or waits. -/
theorem follow_moment_cases {α : Type} (s : Session) (script : Script α) (final : α)
    (store : Session → Script α → Session) (finish : Session → α → Session)
    (wait : Session → Option Nat → Session)
    (hstore : ∀ cue others rest, script = cue :: others → Script.essence rest = script.essence →
      Moment s (store s rest)) :
    (∃ value rest, s.follow script final store finish wait = finish (store s rest) value) ∨
      Moment s (s.follow script final store finish wait) ∨
      ∃ until?, script.Waits s.now until? ∧
        s.follow script final store finish wait = wait s until? := by
  cases script with
  | nil => exact .inl ⟨final, [], rfl⟩
  | cons cue others =>
    unfold follow
    cases hturn : Script.turn (cue :: others) final s.now with
    | result value rest => exact .inl ⟨value, rest, rfl⟩
    | act actions rest =>
      exact .inr (.inl ((hstore cue others rest rfl
        (Script.essence_of_turn_act hturn)).actAll actions))
    | proceed next =>
      exact .inr (.inl (hstore cue others next rfl (Script.essence_of_turn_proceed hturn)))
    | wait until? => exact .inr (.inr ⟨until?, Script.waits_of_turn hturn, rfl⟩)

/-- What a guarded operation comes to in one move. -/
inductive Turnout (s : Session) (operation : Operation) : Prop where
  | yields (h : Yields s operation s.step)
  | moment (h : Moment s s.step)
  | cancelled (stop : s.stopRequested = true) (eq : s.step = s.conclude .cancelled)
  | awaits (until? : Option Nat) (h : Awaits s operation until?)

/-- An operation that can only wait for its script comes to something. -/
theorem turnout_follow {α : Type} {operation : Operation} (htask : s.task = .attempting operation)
    {script : Script α} {final : α} {store : Session → Script α → Session}
    {finish : Session → α → Session}
    (hstep : s.step = s.follow script final store finish wait)
    (hstore : ∀ cue others rest, script = cue :: others → Script.essence rest = script.essence →
      Moment s (store s rest))
    (hyields : ∀ value rest, Yields s operation (finish (store s rest) value))
    (hwaits : ∀ until?, script.Waits s.now until? → s.WaitsFor until? operation) :
    Turnout s operation := by
  rcases follow_moment_cases s script final store finish wait hstore with
    ⟨value, rest, heq⟩ | hmoment | ⟨until?, hwait, heq⟩
  · exact .yields (by rw [hstep, heq]; exact hyields value rest)
  · exact .moment (by rw [hstep]; exact hmoment)
  · -- Before it waits, it looks for a shutdown request.
    cases hstop : s.stopRequested with
    | true => exact .cancelled hstop (by rw [hstep, heq, wait, if_pos hstop])
    | false => exact .awaits until? ⟨htask, hstop, hwaits until? hwait⟩

/-- A message for the server ends a wait for bytes. -/
theorem waitForBytes_of_message (hcalm : s.stopRequested = false)
    (hactive : s.state.isActive = true) {message : Bytes} {uplink : Uplink}
    (htake : s.uplink.take? = some (message, uplink)) (until? : Option Nat) :
    s.waitForBytes until? = ({ s with uplink }.settle).attempt (.write .uplink message) := by
  rw [waitForBytes, if_neg (by rw [hcalm]; decide), if_pos hactive, htake]

/-- While there is a message and the body is handed over, it can be taken. -/
theorem exists_take (h : ¬ (s.state.isActive = true → s.uplink.queue = [])) :
    s.state.isActive = true ∧ ∃ message uplink, s.uplink.take? = some (message, uplink) := by
  rw [Classical.not_imp] at h
  obtain ⟨hactive, hqueue⟩ := h
  obtain ⟨message, queue, hcons⟩ := List.exists_cons_of_ne_nil hqueue
  exact ⟨hactive, message, { s.uplink with queue }, by rw [Uplink.take?, hcons]⟩

/-- A wait for bytes comes to something as well. A message for the server can end it, too. -/
theorem turnout_read (htask : s.task = .attempting .read) (harrived : s.arrived = []) :
    Turnout s .read := by
  have hstep : s.step = s.follow s.reads (.ok []) putReads readable waitForBytes := by
    simp only [step, htask, stepOperation, harrived, List.isEmpty_nil, if_true]
  rcases follow_moment_cases s s.reads (.ok []) putReads readable waitForBytes
    (fun _ _ _ _ hrest => ⟨lull_putReads s hrest, (steady_mapPeer s _).works, rfl, rfl⟩)
    with ⟨result, rest, heq⟩ | hmoment | ⟨until?, hwait, heq⟩
  · exact .yields (by rw [hstep, heq]; exact .readable)
  · exact .moment (by rw [hstep]; exact hmoment)
  · cases hstop : s.stopRequested with
    | true => exact .cancelled hstop (by rw [hstep, heq, waitForBytes, if_pos hstop])
    | false =>
      -- While the body is handed over, a message comes before any waiting.
      by_cases hquiet : s.state.isActive = true → s.uplink.queue = []
      · exact .awaits until? ⟨htask, hstop, harrived, hwait, hquiet⟩
      · obtain ⟨hactive, message, uplink, htake⟩ := exists_take hquiet
        exact .yields (by
          rw [hstep, heq, waitForBytes_of_message hstop hactive htake]
          exact .message htake)

/-- A guarded operation gets its result, goes on at the same instant, gives in to a shutdown
request, or waits. -/
theorem turnout_of_attempting {operation : Operation} (h : s.task = .attempting operation) :
    Turnout s operation := by
  cases operation with
  | resolve =>
    have hstep : s.step = s.follow s.lookup (.ok []) putLookup resolved wait := by
      simp only [step, h, stepOperation]
    exact turnout_follow h hstep
      (fun _ _ _ _ hrest => ⟨lull_putLookup s hrest,
        Steady.works ⟨rfl, rfl, rfl, rfl, id, id, id⟩, rfl, rfl⟩)
      (fun _ _ => .resolved) fun _ => id
  | connect candidate endpoint others =>
    have hstep : s.step = s.follow (s.attempts.headD []) (.error { kind := .connectionRefused })
        putAttempt (fun s result => s.connected candidate others result) wait := by
      simp only [step, h, stepOperation]
    refine turnout_follow h hstep ?_ (fun _ _ => .connected) fun _ => id
    -- The pause was taken from the script of the first attempt, so there is one.
    intro cue others rest hcons hrest
    cases hs : s.attempts with
    | nil => simp [hs] at hcons
    | cons script scripts =>
      rw [hs] at hrest
      exact ⟨lull_putAttempt s hs hrest, Steady.works ⟨rfl, rfl, rfl, rfl, id, id, id⟩, rfl, rfl⟩
  | write purpose bytes =>
    cases bytes with
    | nil => exact .yields (by rw [step_write_nil h]; exact .offered)
    | cons b bs =>
      have hstep : s.step = s.follow s.writes (.ok (b :: bs).length) putWrites
          (fun s result => s.written purpose (b :: bs) result) wait := by
        simp only [step, h, stepOperation]
      exact turnout_follow h hstep
        (fun _ _ _ _ hrest => ⟨lull_putWrites s hrest, (steady_mapPeer s _).works, rfl, rfl⟩)
        (fun _ _ => .written) fun _ hwaits => ⟨List.cons_ne_nil b bs, hwaits⟩
  | flush purpose =>
    have hstep : s.step = s.follow s.flushes (.ok ()) putFlushes
        (fun s result => s.flushed purpose result) wait := by
      simp only [step, h, stepOperation]
    exact turnout_follow h hstep
      (fun _ _ _ _ hrest => ⟨lull_putFlushes s hrest, (steady_mapPeer s _).works, rfl, rfl⟩)
      (fun _ _ => .flushed) fun _ => id
  | read =>
    by_cases harrived : s.arrived = []
    · exact turnout_read h harrived
    · exact .yields (by rw [step_receive h harrived]; exact .received)

/-- A session that waits idles. -/
theorem step_of_awaits {operation : Operation} {until? : Option Nat}
    (h : Awaits s operation until?) : s.step = s.idle until? := by
  obtain ⟨htask, hcalm, hwaits⟩ := h
  have hidle : s.wait until? = s.idle until? := by
    rw [wait, if_neg (by rw [hcalm]; decide)]
  cases operation with
  | resolve =>
    have hturn := Script.Waits.turn hwaits (.ok [])
    simp only [step, htask, stepOperation, follow, hturn, hidle]
  | connect candidate endpoint others =>
    have hturn := Script.Waits.turn hwaits (.error { kind := .connectionRefused })
    simp only [step, htask, stepOperation, follow, hturn, hidle]
  | write purpose bytes =>
    obtain ⟨b, bs, rfl⟩ := List.exists_cons_of_ne_nil hwaits.1
    have hturn := Script.Waits.turn hwaits.2 (.ok (b :: bs).length)
    simp only [step, htask, stepOperation, follow, hturn, hidle]
  | flush purpose =>
    have hturn := Script.Waits.turn hwaits (.ok ())
    simp only [step, htask, stepOperation, follow, hturn, hidle]
  | read =>
    obtain ⟨harrived, hwaits, hquiet⟩ := hwaits
    have hturn := hwaits.turn (.ok [])
    -- An active session would take a message, but none is queued.
    have htake : (if s.state.isActive then s.uplink.take? else none) = none := by
      split
      · rename_i hactive
        rw [Uplink.take?, hquiet hactive]
      · rfl
    simp only [step, htask, stepOperation, harrived, List.isEmpty_nil, if_true, follow, hturn,
      waitForBytes, hcalm, Bool.false_eq_true, if_false, htake]

/-! ### Sleeping -/

/-- What is left of a schedule at an instant lies ahead. -/
theorem isAhead_dropWhile (schedule : List (Nat × Action)) (now : Nat) :
    IsAhead (schedule.dropWhile (·.1 ≤ now)) now := by
  intro entry hhead
  have hnot :=
    List.head?_dropWhile_not (fun entry : Nat × Action => decide (entry.1 ≤ now)) schedule
  rw [hhead] at hnot
  simpa using hnot

/-- Without an end of the wait and without plans of the owner nothing happens any more. -/
theorem sleep_of_nothing (h : s.schedule = []) : s.sleep none = { s with task := .stuck } := by
  unfold sleep
  rw [h]

/-- An action of the owner that is due before the end of the wait comes first. -/
theorem sleep_of_due {instant : Nat} {action : Action} {rest : List (Nat × Action)}
    {wake? : Option Nat} (h : s.schedule = (instant, action) :: rest)
    (hle : ∀ wake, wake? = some wake → instant ≤ wake) :
    s.sleep wake? = s.actAt (max s.now instant) := by
  unfold sleep
  rw [h]
  cases wake? with
  | none => rfl
  | some wake => exact if_pos (hle wake rfl)

/-- With nothing to do before, the session sleeps until the end of the wait. -/
theorem sleep_of_ahead {wake : Nat} (h : IsAhead s.schedule wake) :
    s.sleep (some wake) = { s with now := wake } := by
  unfold sleep
  cases hs : s.schedule with
  | nil => rfl
  | cons entry rest =>
    have hlt := h entry (by rw [hs]; rfl)
    exact if_neg (Nat.not_le_of_lt hlt)

/-- The session goes to an instant that is not later than the end of its wait, and the owner does
what is due there. If nothing was due before, this takes time. -/
structure Wakes (s : Session) (wake? : Option Nat) (t : Session) (now : Nat)
    (schedule : List (Nat × Action)) (due : List Action) : Prop where
  eq : t = ({ s with now, schedule } : Session).actAll due
  later : s.now ≤ now
  inTime : ∀ wake, wake? = some wake → now ≤ wake
  ahead : IsAhead schedule now
  takesTime : IsAhead s.schedule s.now → s.now < now

/-- What comes first: an action of the owner, the end of the wait, or nothing. -/
theorem wake_cases (schedule : List (Nat × Action)) (wake? : Option Nat) :
    (∃ instant action rest, schedule = (instant, action) :: rest ∧
        ∀ wake, wake? = some wake → instant ≤ wake) ∨
      (∃ wake, wake? = some wake ∧ IsAhead schedule wake) ∨
      (wake? = none ∧ schedule = []) := by
  cases schedule with
  | nil =>
    cases wake? with
    | none => exact .inr (.inr ⟨rfl, rfl⟩)
    | some wake => exact .inr (.inl ⟨wake, rfl, fun entry hhead => by cases hhead⟩)
  | cons entry rest =>
    obtain ⟨instant, action⟩ := entry
    by_cases hle : ∀ wake, wake? = some wake → instant ≤ wake
    · exact .inl ⟨instant, action, rest, rfl, hle⟩
    · rw [Classical.not_forall] at hle
      obtain ⟨wake, hle⟩ := hle
      rw [Classical.not_imp] at hle
      refine .inr (.inl ⟨wake, hle.1, ?_⟩)
      intro entry hhead
      cases hhead
      exact Nat.lt_of_not_le hle.2

/-- A session that sleeps wakes up, unless there is nothing to wake up for. -/
theorem sleep_wakes (s : Session) {wake? : Option Nat}
    (hlater : ∀ wake, wake? = some wake → s.now < wake) :
    (wake? = none ∧ s.schedule = [] ∧ s.sleep wake? = { s with task := .stuck }) ∨
      ∃ now schedule due, Wakes s wake? (s.sleep wake?) now schedule due := by
  rcases wake_cases s.schedule wake? with
    ⟨instant, action, rest, hs, hle⟩ | ⟨wake, rfl, hahead⟩ | ⟨rfl, hs⟩
  · -- The owner acts before the wait is over, and everything else that is due is done as well.
    refine .inr ⟨_, _, _, sleep_of_due hs hle, Nat.le_max_left _ _, ?_,
      isAhead_dropWhile _ _, ?_⟩
    · intro wake hwake
      exact Nat.max_le.2 ⟨Nat.le_of_lt (hlater wake hwake), hle wake hwake⟩
    · intro hahead
      have hlt := hahead (instant, action) (by rw [hs]; rfl)
      exact Nat.lt_of_lt_of_le hlt (Nat.le_max_right _ _)
  · -- The wait is over first, and nothing is due.
    refine .inr ⟨wake, s.schedule, [], sleep_of_ahead hahead, Nat.le_of_lt (hlater wake rfl), ?_,
      hahead, fun _ => hlater wake rfl⟩
    intro other hother
    cases hother
    exact Nat.le_refl _
  · exact .inl ⟨rfl, hs, sleep_of_nothing hs⟩

/-- Waking up is work: the clock goes on and the owner does what is due. -/
theorem Wakes.works {wake? : Option Nat} {now : Nat} {schedule : List (Nat × Action)}
    {due : List Action} (h : Wakes s wake? t now schedule due) : Works s t := by
  rw [h.eq]
  exact (Works.wake .refl h.later h.ahead).trans (works_actAll _ _)

/-- Noticing a shutdown request is work. -/
theorem works_heed (s : Session) : Works s s.heed := by
  unfold heed
  split
  · exact works_conclude s _
  · exact .refl

/-- The end of a wait that is limited lies ahead while the limit has not been reached. -/
theorem earliest_later {until? : Option Nat} {now : Nat} {watchdog watchdog' : Watchdog}
    (huntil : ∀ instant, until? = some instant → now < instant)
    (hpoll : watchdog.poll now = (false, watchdog')) :
    ∀ wake, earliest until? watchdog'.alarm? = some wake → now < wake := by
  intro wake hwake
  rcases earliest_eq_some hwake with hsome | halarm
  · exact huntil wake hsome
  · exact Watchdog.lt_alarm_of_poll hpoll halarm

/-- Idling is work: the session fails, gets stuck, or wakes up later. -/
theorem works_idle (s : Session) {until? : Option Nat}
    (huntil : ∀ instant, until? = some instant → s.now < instant) : Works s (s.idle until?) := by
  unfold idle
  cases hpoll : s.watchdog.poll s.now with
  | mk expired watchdog =>
    cases expired with
    | true => exact works_fail s _
    | false =>
      have hset : Steady s { s with watchdog } := ⟨rfl, rfl, rfl, rfl, id, id, id⟩
      refine hset.works.trans (Works.trans ?_ (works_heed _))
      rcases sleep_wakes { s with watchdog } (earliest_later huntil hpoll) with
        ⟨-, -, hstuck⟩ | ⟨now, schedule, due, hwakes⟩
      · rw [hstuck]
        exact Steady.works ⟨rfl, rfl, rfl, rfl, id, id, fun _ => rfl⟩
      · exact hwakes.works

/-- What becomes of an operation that gets its result is work. -/
theorem Yields.works {operation : Operation} (h : Yields s operation t) : Works s t := by
  cases h with
  | @resolved result rest =>
    have hput : Steady s (s.putLookup rest) := ⟨rfl, rfl, rfl, rfl, id, id, id⟩
    exact hput.works.trans (works_resolved _ _)
  | @connected candidate endpoint others result rest =>
    have hput : Steady s (s.putAttempt rest) := ⟨rfl, rfl, rfl, rfl, id, id, id⟩
    exact hput.works.trans (works_connected _ _ _ _)
  | offered => exact Steady.works ⟨rfl, rfl, rfl, rfl, id, id, fun _ => rfl⟩
  | written => exact (steady_mapPeer s _).works.trans (works_written _ _ _ _)
  | flushed => exact (steady_mapPeer s _).works.trans (works_flushed _ _ _)
  | readable => exact (steady_mapPeer s _).works.trans (works_readable _ _)
  | received => exact works_receive s
  | message htake =>
    -- Taking a message leaves the uplink open.
    unfold Uplink.take? at htake
    split at htake
    · cases htake
    · rename_i message queue _
      cases htake
      have htaken : Steady s { s with uplink := { s.uplink with queue } } :=
        ⟨rfl, rfl, rfl, rfl, id, id, id⟩
      exact htaken.works.trans ((works_settle _).trans (works_attempt _ _))

/-- The wait of an operation ends at a later instant. -/
theorem WaitsFor.lt {operation : Operation} {until? : Option Nat}
    (h : s.WaitsFor until? operation) {instant : Nat} (huntil : until? = some instant) :
    s.now < instant := by
  cases operation with
  | resolve => exact Script.Waits.lt h huntil
  | connect candidate endpoint others => exact Script.Waits.lt h huntil
  | write purpose bytes => exact h.2.lt huntil
  | flush purpose => exact Script.Waits.lt h huntil
  | read => exact h.2.1.lt huntil

/-- Every move of a session at work is work. -/
theorem works_step (h : s.task.isWorking = true) : Works s s.step := by
  cases htask : s.task with
  | attempting operation =>
    cases turnout_of_attempting htask with
    | yields hyields => exact hyields.works
    | moment hmoment => exact hmoment.works
    | cancelled _ hstep =>
      rw [hstep]
      exact works_conclude s _
    | awaits until? hawaits =>
      rw [step_of_awaits hawaits]
      exact works_idle s fun _ => hawaits.waits.lt
  | decoding =>
    rw [step_decoding htask]
    exact works_stepDecoder s
  | concluding ending => rw [htask] at h; cases h
  | closing outcome => rw [htask] at h; cases h
  | ended outcome => rw [htask] at h; cases h
  | stuck => rw [htask] at h; cases h

/-- What a session does before its first move is work. -/
theorem works_start (connection : Connection) (plan : Plan) :
    Works (blank connection plan) (start connection plan) := by
  rw [start_eq]
  refine Works.trans ?_ (works_attempt _ _)
  refine Works.trans ?_ (works_enter _ rfl)
  refine Works.trans ?_ (works_record _ .started rfl)
  exact (works_actAll (blank connection plan) plan.before).steady
    ⟨rfl, rfl, rfl, rfl, id, id, id⟩

/-- What holds at the start and is kept by work holds as long as the session works. -/
theorem keeps_working {P : Session → Prop}
    (hstep : ∀ s, s.task.isWorking = true → P s → P s.step) (h : P s) {moves : Nat}
    (hworks : (s.runFor moves).task.isWorking = true) : P (s.runFor moves) := by
  induction moves with
  | zero => exact h
  | succ moves ih =>
    rw [runFor_succ'] at hworks ⊢
    -- A session that works has worked before.
    have hbefore : (s.runFor moves).task.isWorking = true := by
      cases hb : (s.runFor moves).task.isWorking with
      | true => rfl
      | false =>
        rw [isWorking_step hb] at hworks
        cases hworks
    exact hstep _ hbefore (ih hbefore)

/-- Every session stops working, and what work keeps holds at that moment. -/
theorem exists_stopped {P : Session → Prop}
    (hstep : ∀ s, s.task.isWorking = true → P s → P s.step) (h : P s) :
    ∃ moves, P (s.runFor moves) ∧ (s.runFor moves).task.isWorking = false ∧
      ∀ earlier < moves, (s.runFor earlier).task.isWorking = true := by
  -- Induction over the moves left: a session that is halted has stopped working.
  induction s using move_induction with
  | hhalted s hhalted =>
    refine ⟨0, h, ?_, fun earlier hlt => by cases hlt⟩
    show s.task.isWorking = false
    unfold isHalted at hhalted
    split at hhalted
    · simp only [*, Task.isWorking]
    · simp only [*, Task.isWorking]
    · cases hhalted
  | hmove s _ ih =>
    cases hworks : s.task.isWorking with
    | false => exact ⟨0, h, hworks, fun earlier hlt => by cases hlt⟩
    | true =>
      -- One more move than the session needs after the first one.
      obtain ⟨moves, hp, hstopped, hbefore⟩ := ih (hstep s hworks h)
      refine ⟨moves + 1, ?_, ?_, ?_⟩
      · rwa [runFor_succ]
      · rwa [runFor_succ]
      · intro earlier hlt
        cases earlier with
        | zero => exact hworks
        | succ earlier =>
          rw [runFor_succ]
          exact hbefore earlier (by omega)

/-! ### Invariants of the work -/

/-- The work of the session is not over, and nobody can tell otherwise. -/
structure InWork (s : Session) : Prop where
  uplink : s.uplink.isOpen = true
  state : s.state.isClosed = false
  history : ∀ entry ∈ s.history, entry.event.tellsEnd = false
  task : s.task.isOver = false

/-- The entry of an event that is recorded now. -/
def entry (s : Session) (event : Event) : Entry where
  time := s.now
  state := s.state
  isWatched := s.held.status
  event := event

/-- A recorded event is the last entry of the log. -/
theorem log_record (s : Session) (event : Event) :
    (s.record event).log = s.log ++ [s.entry event] :=
  List.reverse_cons

/-- Replying to the owner records nothing yet. -/
theorem history_respond (s : Session) (action : Action) :
    (s.respond action).1.history = s.history := by
  cases action with
  | send message =>
    simp only [respond]
    split
    · split <;> rfl
    · rfl
  | shutdown =>
    simp only [respond]
    split <;> rfl
  | isShutdown => rfl
  | isActive => rfl
  | release handle => rfl

/-- An action is logged with its reply. -/
theorem history_act (s : Session) (action : Action) :
    (s.act action).history
      = (s.respond action).1.entry (.acted action (s.respond action).2) :: s.history :=
  congrArg (List.cons _) (history_respond s action)

/-- An open uplink refuses nothing. -/
theorem tellsEnd_act (h : s.uplink.isOpen = true) (action : Action) :
    (Event.acted action (s.respond action).2).tellsEnd = false := by
  cases action with
  | send message =>
    simp only [respond, Uplink.send, h, if_true]
    split <;> rfl
  | shutdown =>
    simp only [respond]
    split <;> rfl
  | isShutdown =>
    simp only [respond]
    split <;> rfl
  | isActive =>
    simp only [respond]
    split <;> rfl
  | release handle => rfl

/-- An event that does not tell of the end leaves the session in work. -/
theorem InWork.record (h : s.InWork) {event : Event} (early : event.tellsEnd = false) :
    (s.record event).InWork := by
  refine ⟨h.uplink, h.state, ?_, h.task⟩
  intro entry hmem
  rcases List.mem_cons.1 hmem with rfl | hmem
  · exact early
  · exact h.history entry hmem

/-- An action of the owner leaves the session in work. -/
theorem InWork.act (h : s.InWork) (action : Action) : (s.act action).InWork := by
  have hhistory : ∀ entry ∈ (s.act action).history, entry.event.tellsEnd = false := by
    rw [history_act]
    intro entry hmem
    rcases List.mem_cons.1 hmem with rfl | hmem
    · exact tellsEnd_act h.uplink action
    · exact h.history entry hmem
  -- Apart from the log, an action changes what its handle reaches.
  obtain ⟨held, reply, heq⟩ := act_eq s action
  rw [heq] at hhistory ⊢
  exact ⟨h.uplink, h.state, hhistory, h.task⟩

/-- Work that is not over goes on as work. -/
theorem InWork.works (h : s.InWork) (hworks : Works s t) : t.InWork := by
  induction hworks with
  | refl => exact h
  | steady _ same ih =>
    exact ⟨same.uplink.trans ih.uplink, same.state ih.state, same.history ▸ ih.history,
      same.task ih.task⟩
  | record event _ early ih => exact ih.record early
  | act action _ ih => exact ih.act action
  | wake _ later ahead ih => exact ⟨ih.uplink, ih.state, ih.history, ih.task⟩

/-- A session that has not begun is in work. -/
theorem inWork_blank (connection : Connection) (plan : Plan) :
    (blank connection plan).InWork := by
  refine ⟨rfl, rfl, ?_, rfl⟩
  intro entry hmem
  cases hmem

/-- No action of the owner is overdue, except at the start. -/
def Prompt (s : Session) : Prop :=
  s.now = 0 ∨ IsAhead s.schedule s.now

/-- Work leaves no action of the owner overdue. -/
theorem Prompt.works (h : s.Prompt) (hworks : Works s t) : t.Prompt := by
  induction hworks with
  | refl => exact h
  | steady _ same ih =>
    unfold Prompt at ih ⊢
    rwa [same.now, same.schedule]
  | record event _ early ih => exact ih
  | act action _ ih =>
    obtain ⟨held, reply, heq⟩ := act_eq _ action
    rw [heq]
    exact ih
  | wake _ later ahead ih => exact .inr ahead

/-! ### What is added to the log -/

/-- What one session has in its log and the other one did not have yet is of some kind. -/
def Adds (kind : Entry → Prop) (s t : Session) : Prop :=
  ∃ added, t.log = s.log ++ added ∧ ∀ entry ∈ added, kind entry

section
variable {kind : Entry → Prop}

/-- Where the log stays as it is, nothing is added. -/
theorem adds_of_history (h : t.history = s.history) : Adds kind s t := by
  refine ⟨[], ?_, fun entry hmem => by cases hmem⟩
  rw [log, h, List.append_nil]
  rfl

/-- What is added in two stages is added. -/
theorem Adds.trans (h : Adds kind s t) (k : Adds kind t u) : Adds kind s u := by
  obtain ⟨first, hfirst, hkind⟩ := h
  obtain ⟨second, hsecond, hkind'⟩ := k
  refine ⟨first ++ second, ?_, ?_⟩
  · rw [hsecond, hfirst, List.append_assoc]
  · intro entry hmem
    exact (List.mem_append.1 hmem).elim (hkind entry) (hkind' entry)

/-- Recording an event adds its entry. -/
theorem adds_record (s : Session) {event : Event} (h : kind (s.entry event)) :
    Adds kind s (s.record event) := by
  refine ⟨[s.entry event], log_record s event, ?_⟩
  intro entry hmem
  rw [List.mem_singleton.1 hmem]
  exact h

/-- An action of the owner adds its entry, with the reply. -/
theorem adds_act (s : Session) {action : Action}
    (h : kind ((s.respond action).1.entry (.acted action (s.respond action).2))) :
    Adds kind s (s.act action) :=
  (adds_of_history (history_respond s action)).trans (adds_record _ h)

end

/-! ### The order of the log -/

/-- The log is in the order of time, newest entry first. -/
def IsInTime (history : List Entry) : Prop :=
  history.Pairwise fun later earlier => earlier.time ≤ later.time

/-- The clock does not go back, and what is added to the log is in the order of time. -/
structure Flow (s t : Session) : Prop where
  now : s.now ≤ t.now
  history : ∃ added, t.history = added ++ s.history ∧ IsInTime added ∧
    ∀ entry ∈ added, s.now ≤ entry.time ∧ entry.time ≤ t.now

/-- The order of time is kept while nothing happens. -/
theorem flow_of_still (hnow : t.now = s.now) (hhistory : t.history = s.history) : Flow s t where
  now := Nat.le_of_eq hnow.symm
  history := ⟨[], hhistory, List.Pairwise.nil, fun entry hmem => by cases hmem⟩

/-- The order of time is kept from one session to the next. -/
theorem Flow.trans (h : Flow s t) (k : Flow t u) : Flow s u := by
  obtain ⟨first, hfirst, hinTime, htimes⟩ := h.history
  obtain ⟨second, hsecond, hinTime', htimes'⟩ := k.history
  refine ⟨Nat.le_trans h.now k.now, second ++ first, ?_, ?_, ?_⟩
  · rw [hsecond, hfirst, List.append_assoc]
  · -- The instant in the middle separates what was added first from what was added next.
    refine List.pairwise_append.2 ⟨hinTime', hinTime, ?_⟩
    intro later hlater earlier hearlier
    exact Nat.le_trans (htimes earlier hearlier).2 (htimes' later hlater).1
  · have hnow := h.now
    have hnow' := k.now
    intro entry hmem
    rcases List.mem_append.1 hmem with hmem | hmem
    · have := htimes' entry hmem
      omega
    · have := htimes entry hmem
      omega

/-- The order of time is kept by one entry of this instant. -/
theorem flow_of_cons {entry : Entry} (hnow : t.now = s.now) (htime : entry.time = s.now)
    (hhistory : t.history = entry :: s.history) : Flow s t := by
  refine ⟨Nat.le_of_eq hnow.symm, [entry], hhistory, List.pairwise_singleton _ _, ?_⟩
  intro other hmem
  rw [List.mem_singleton.1 hmem]
  omega

/-- Recording an event keeps the order of time. -/
theorem flow_record (s : Session) (event : Event) : Flow s (s.record event) :=
  flow_of_cons rfl rfl rfl

/-- Work keeps the order of time. -/
theorem Works.flow (h : Works s t) : Flow s t := by
  induction h with
  | refl => exact flow_of_still rfl rfl
  | steady _ same ih => exact ih.trans (flow_of_still same.now same.history)
  | record event _ early ih => exact ih.trans (flow_record _ event)
  | act action _ ih =>
    obtain ⟨held, reply, heq⟩ := act_eq _ action
    refine ih.trans ?_
    rw [heq]
    exact flow_of_cons rfl rfl rfl
  | wake _ later ahead ih =>
    exact ih.trans ⟨later, [], rfl, List.Pairwise.nil, fun entry hmem => by cases hmem⟩

/-- Ending the session keeps the order of time, with what the owner does afterwards. -/
theorem flow_finish (s : Session) (outcome : Outcome) : Flow s (s.finish outcome) := by
  have hover : Flow s { s with after := [], task := .ended outcome } := flow_of_still rfl rfl
  exact (hover.trans (flow_record _ .ended)).trans (works_actAll _ _).flow

/-- What follows the last call of the owner. -/
theorem flow_notifyEnd (s : Session) (ending : Ending) :
    Flow (s.notifyEnd (outcomeOf s.stopRequested s.state ending)) (s.stepConclusion ending) := by
  rw [stepConclusion]
  generalize outcomeOf s.stopRequested s.state ending = outcome
  generalize s.notifyEnd outcome = t
  have hshut : Flow t ({ t with uplink := t.uplink.close }.enter .closed) :=
    flow_of_cons rfl rfl rfl
  refine hshut.trans ?_
  generalize { t with uplink := t.uplink.close }.enter .closed = u
  split
  · have htask : Flow u { u with task := .closing outcome } := flow_of_still rfl rfl
    exact htask.trans (flow_record _ .closing)
  · exact flow_finish u outcome

/-- Winding up keeps the order of time. -/
theorem flow_stepConclusion (s : Session) (ending : Ending) :
    Flow s (s.stepConclusion ending) := by
  refine Flow.trans ?_ (flow_notifyEnd s ending)
  cases outcomeOf s.stopRequested s.state ending with
  | shutdown => exact flow_of_still rfl rfl
  | eof => exact (works_notify s .eof).flow
  | failed error => exact (works_notify s (.error error)).flow

/-- A move of closing the stream keeps the order of time. -/
theorem flow_closing {outcome : Outcome} (h : s.task = .closing outcome) : Flow s s.step := by
  have hstep : s.step = s.follow s.closes (.ok ()) putCloses
      (fun s result => ({ s with peer := none }.record (.closed result)).finish outcome)
      sleep := by
    simp only [step, h, stepClosing]
  rw [hstep]
  rcases follow_moment_cases s s.closes (.ok ()) putCloses
    (fun s result => ({ s with peer := none }.record (.closed result)).finish outcome) sleep
    (fun _ _ _ _ hrest => ⟨lull_putCloses s hrest, (steady_mapPeer s _).works, rfl, rfl⟩)
    with ⟨result, rest, heq⟩ | hmoment | ⟨until?, hwaits, heq⟩
  · rw [heq]
    have hput : Flow s { s.putCloses rest with peer := none } := flow_of_still rfl rfl
    exact (hput.trans (flow_record _ _)).trans (flow_finish _ outcome)
  · exact hmoment.works.flow
  · rw [heq]
    rcases sleep_wakes s fun _ => hwaits.lt with ⟨-, -, hstuck⟩ | ⟨now, schedule, due, hwakes⟩
    · rw [hstuck]
      exact flow_of_still rfl rfl
    · exact hwakes.works.flow

/-- Every move goes on in the order of time. -/
theorem flow_step (s : Session) : Flow s s.step := by
  have hhalted : s.isHalted = true → Flow s s.step := by
    intro h
    rw [step_of_halted h]
    exact flow_of_still rfl rfl
  cases htask : s.task with
  | attempting operation => exact (works_step (by rw [htask]; rfl)).flow
  | decoding => exact (works_step (by rw [htask]; rfl)).flow
  | concluding ending =>
    rw [step_concluding htask]
    exact flow_stepConclusion s ending
  | closing outcome => exact flow_closing htask
  | ended outcome => exact hhalted (by simp only [isHalted, htask])
  | stuck => exact hhalted (by simp only [isHalted, htask])

/-- Every run keeps the order of time. -/
theorem flow_runFor (s : Session) (moves : Nat) : Flow s (s.runFor moves) :=
  keeps_runFor (P := Flow s) (fun t ht => ht.trans (flow_step t)) moves (flow_of_still rfl rfl)

/-- The log of every session is in the order of time. -/
theorem isInTime_history (connection : Connection) (plan : Plan) (moves : Nat) :
    IsInTime ((start connection plan).runFor moves).history := by
  obtain ⟨added, hadded, hinTime, -⟩ :=
    ((works_start connection plan).flow.trans (flow_runFor _ moves)).history
  rw [hadded]
  exact (List.append_nil added).symm ▸ hinTime

end Session

end NtripClient
