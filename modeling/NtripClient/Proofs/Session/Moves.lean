import NtripClient.Session.Progress
import NtripClient.Session.Report

/-!
# `NtripClient.Proofs.Session.Moves`: what one move of a session can do

Most moves of a session only let time pass: a pause of a script is worked off, the owner
acts, the clock goes on. `Lull` is the relation between a session and what it is after
such moves. It changes no more than the clock, the pauses of the scripts, and what
actions change, and `Lull.kept` lists what stays.

An operation that is followed through its script either gets a result or comes to a
`Pause`. The lemmas `step_resolve` to `step_closing` say this for each task, so that no
later proof opens `step`, `follow` or `sleep` again. An invariant of sessions is proved
against `Lull` once, and then for the results of each operation.

`keeps_runFor` is the induction that all invariants share: what holds at the start and is
kept by every move holds of every state that a session passes through. `move_induction` is
the other direction, from the end of a run to its front.
-/

set_option autoImplicit false

namespace NtripClient

/-! ### Scripts without their pauses -/

section
variable {α : Type}

/-- The cue is not a mere pause: it gives a result, or no result will ever come. -/
def Cue.isLasting : Cue α → Bool
  | .never => true
  | .result _ => true
  | _ => false

/-- A script without its pauses: what it says, not when. -/
def Script.essence (script : Script α) : Script α :=
  script.filter Cue.isLasting

/-- A script gives a result at once, and this is the script after it. A script that has
run out goes on giving `final`. -/
def Script.Gives (script : Script α) (final value : α) (rest : Script α) : Prop :=
  (script = [] ∧ value = final ∧ rest = []) ∨ script = .result value :: rest

/-- A turn that is a result takes it from the front of the script. -/
theorem Script.gives_of_turn {script : Script α} {final value : α} {rest : Script α} {now : Nat}
    (h : script.turn final now = .result value rest) : script.Gives final value rest := by
  unfold Script.turn at h
  split at h
  · cases h
    exact .inl ⟨rfl, rfl, rfl⟩
  · cases h
  · split at h <;> cases h
  · cases h
  · cases h
  · cases h
    exact .inr rfl

/-- Letting the owner act leaves the essence of a script. -/
theorem Script.essence_of_turn_act {script : Script α} {final : α} {actions : List Action}
    {rest : Script α} {now : Nat} (h : script.turn final now = .act actions rest) :
    rest.essence = script.essence := by
  unfold Script.turn at h
  split at h
  · cases h
  · cases h
  · split at h <;> cases h
  · cases h
  · cases h
    rfl
  · cases h

/-- Beginning or ending a wait leaves the essence of a script. -/
theorem Script.essence_of_turn_proceed {script : Script α} {final : α} {next : Script α}
    {now : Nat} (h : script.turn final now = .proceed next) :
    next.essence = script.essence := by
  unfold Script.turn at h
  split at h
  · cases h
  · cases h
    rfl
  · split at h
    · cases h
    · cases h
      rfl
  · cases h
  · cases h
  · cases h

/-- A script that waits for ever says so. -/
theorem Script.never_of_turn_wait {script : Script α} {final : α} {now : Nat}
    (h : script.turn final now = .wait none) : ∃ rest, script = .never :: rest := by
  unfold Script.turn at h
  split at h
  · cases h
  · cases h
  · split at h <;> cases h
  · exact ⟨_, rfl⟩
  · cases h
  · cases h

end

/-- The scripts of a stream without their pauses. -/
def Peer.essence (peer : Peer) : Peer where
  reads := peer.reads.essence
  writes := peer.writes.essence
  flushes := peer.flushes.essence
  closes := peer.closes.essence

/-! ### What an event tells -/

namespace Event

/-- The owner requests a shutdown, by a handle for it. -/
def isRequest : Event → Bool
  | .acted .shutdown (.flag _) => true
  | _ => false

/-- The message that the owner sends, if the uplink takes it. -/
def sent : Event → List Bytes
  | .acted (.send message) .accepted => [message]
  | _ => []

/-- The notice of a call of the owner. -/
def notice? : Event → Option Notice
  | .notified notice => some notice
  | _ => none

/-- The bytes that an event brings. -/
def arrival : Event → Bytes
  | .received bytes => bytes
  | _ => []

end Event

namespace Session

/-! ### Time and the owner -/

/-- What a session keeps while time passes and the owner acts. -/
structure Kept (s t : Session) : Prop where
  connection : t.connection = s.connection
  state : t.state = s.state
  timeout : t.watchdog.timeout = s.watchdog.timeout
  lookup : t.lookup.essence = s.lookup.essence
  attempts : t.attempts.map Script.essence = s.attempts.map Script.essence
  peer : t.peer.map Peer.essence = s.peer.map Peer.essence
  arrived : t.arrived = s.arrived
  decoder : t.decoder = s.decoder
  reactions : t.reactions = s.reactions
  after : t.after = s.after
  task : t.task = s.task

/-- The sessions differ in the clock, in pauses, and in what the owner is going to do. -/
structure Alike (s t : Session) : Prop extends Kept s t where
  held : t.held = s.held
  stopRequested : t.stopRequested = s.stopRequested
  uplink : t.uplink = s.uplink
  history : t.history = s.history

/-- The second session is the first one after some time, in which the owner may have acted. -/
inductive Lull : Session → Session → Prop where
  | refl (s : Session) : Lull s s
  | act {s t : Session} (action : Action) (h : Lull s t) : Lull s (t.act action)
  | alike {s t u : Session} (h : Lull s t) (same : Alike t u) : Lull s u

/-- An action changes what its handle reaches, and is recorded. -/
theorem act_eq (s : Session) (action : Action) :
    ∃ held reply, s.act action =
      { s with
        held
        stopRequested := s.stopRequested || (Event.acted action reply).isRequest
        uplink := { s.uplink with
          queue := s.uplink.queue ++ (Event.acted action reply).sent }
        history := { time := s.now, state := s.state, isWatched := held.status,
                     event := .acted action reply } :: s.history } := by
  cases action with
  -- An action without its handle is recorded, and changes nothing.
  | shutdown =>
    by_cases h : s.held.stopper
    · exact ⟨s.held, .flag true, by simp [act, respond, record, h, Event.isRequest, Event.sent]⟩
    · exact ⟨s.held, .nothing, by simp [act, respond, record, h, Event.isRequest, Event.sent]⟩
  | isShutdown =>
    by_cases h : s.held.stopper
    · exact ⟨s.held, .flag s.stopRequested,
        by simp [act, respond, record, h, Event.isRequest, Event.sent]⟩
    · exact ⟨s.held, .nothing, by simp [act, respond, record, h, Event.isRequest, Event.sent]⟩
  | send message =>
    by_cases h : s.held.sender
    · cases hsend : s.uplink.send message with
      | ok uplink =>
        have huplink : { s.uplink with queue := s.uplink.queue ++ [message] } = uplink := by
          unfold Uplink.send at hsend
          split at hsend <;> cases hsend
          rfl
        exact ⟨s.held, .accepted,
          by simp [act, respond, record, h, hsend, huplink, Event.isRequest, Event.sent]⟩
      | error error =>
        exact ⟨s.held, .refused error,
          by simp [act, respond, record, h, hsend, Event.isRequest, Event.sent]⟩
    · exact ⟨s.held, .nothing, by simp [act, respond, record, h, Event.isRequest, Event.sent]⟩
  | isActive =>
    by_cases h : s.held.status
    · exact ⟨s.held, .flag s.state.isActive,
        by simp [act, respond, record, h, Event.isRequest, Event.sent]⟩
    · exact ⟨s.held, .nothing, by simp [act, respond, record, h, Event.isRequest, Event.sent]⟩
  | release handle =>
    exact ⟨s.held.release handle, .nothing,
      by simp [act, respond, record, Event.isRequest, Event.sent]⟩

/-- A session keeps what it has. -/
theorem Kept.refl (s : Session) : Kept s s :=
  ⟨rfl, rfl, rfl, rfl, rfl, rfl, rfl, rfl, rfl, rfl, rfl⟩

/-- What is kept twice is kept. -/
theorem Kept.trans {s t u : Session} (h : Kept s t) (k : Kept t u) : Kept s u where
  connection := k.connection.trans h.connection
  state := k.state.trans h.state
  timeout := k.timeout.trans h.timeout
  lookup := k.lookup.trans h.lookup
  attempts := k.attempts.trans h.attempts
  peer := k.peer.trans h.peer
  arrived := k.arrived.trans h.arrived
  decoder := k.decoder.trans h.decoder
  reactions := k.reactions.trans h.reactions
  after := k.after.trans h.after
  task := k.task.trans h.task

/-- An action of the owner changes the log, the handles and the uplink at most. -/
theorem kept_act (s : Session) (action : Action) : Kept s (s.act action) := by
  obtain ⟨held, reply, h⟩ := act_eq s action
  rw [h]
  exact ⟨rfl, rfl, rfl, rfl, rfl, rfl, rfl, rfl, rfl, rfl, rfl⟩

/-- What stays while time passes and the owner acts. -/
theorem Lull.kept {s t : Session} (h : Lull s t) : Kept s t := by
  induction h with
  | refl => exact Kept.refl s
  | act action _ ih => exact ih.trans (kept_act _ action)
  | alike _ same ih => exact ih.trans same.toKept

/-- A property that actions and time leave alone holds after a lull. -/
theorem Lull.keeps {P : Session → Prop} (hact : ∀ s action, P s → P (s.act action))
    (halike : ∀ s t, Alike s t → P s → P t) {s t : Session} (h : Lull s t) (hs : P s) : P t := by
  induction h with
  | refl => exact hs
  | act action _ ih => exact hact _ action ih
  | alike _ same ih => exact halike _ _ same ih

/-- One lull after another is a lull. -/
theorem Lull.trans {s t u : Session} (h : Lull s t) (k : Lull t u) : Lull s u :=
  k.keeps (P := Lull s) (fun _ action h => h.act action) (fun _ _ same h => h.alike same) h

/-- The actions of the owner, one after the other, are a lull. -/
theorem lull_actAll (s : Session) (actions : List Action) : Lull s (s.actAll actions) := by
  induction actions generalizing s with
  | nil => exact .refl s
  | cons action rest ih => exact ((Lull.refl s).act action).trans (ih (s.act action))

/-- Another instant, another timer, another schedule: nothing that a session keeps. -/
theorem alike_clock (s : Session) (now : Nat) (schedule : List (Nat × Action))
    {watchdog : Watchdog} (h : watchdog.timeout = s.watchdog.timeout) :
    Alike s { s with now, schedule, watchdog } :=
  ⟨⟨rfl, rfl, h, rfl, rfl, rfl, rfl, rfl, rfl, rfl, rfl⟩, rfl, rfl, rfl, rfl⟩

/-- Going to an instant and doing there what is due is a lull. -/
theorem lull_actAt (s : Session) (instant : Nat) : Lull s (s.actAt instant) :=
  ((Lull.refl s).alike (alike_clock s instant (s.schedule.dropWhile (·.1 ≤ instant)) rfl)).trans
    (lull_actAll _ _)

/-- A call of the owner is recorded, and the reactions to it are actions. -/
theorem lull_notify (s : Session) (notice : Notice) :
    Lull ({ s with reactions := (s.reactions.take notice).2 }.record (.notified notice))
      (s.notify notice) :=
  lull_actAll _ _

/-- The last actions of the owner come after the end. -/
theorem lull_finish (s : Session) (outcome : Outcome) :
    Lull ({ s with after := [], task := .ended outcome }.record .ended) (s.finish outcome) :=
  lull_actAll _ _

/-- A session before anything has happened. -/
def blank (connection : Connection) (plan : Plan) : Session where
  connection
  watchdog := Watchdog.new connection.config.idleTimeout 0
  held := plan.access.heldBefore
  lookup := plan.lookup
  attempts := plan.attempts
  schedule := plan.schedule
  reactions := plan.reactions
  after := plan.after

/-- A session starts with what the owner does before it, and then begins the lookup. -/
theorem start_eq (connection : Connection) (plan : Plan) :
    start connection plan =
      ((({ (blank connection plan).actAll plan.before with
          held := { ((blank connection plan).actAll plan.before).held with
            status := plan.access.showsState } }).record .started).enter .resolving).attempt
        .resolve := rfl

/-! ### Putting back a script -/

/-- Pauses of the lookup may be left out. -/
theorem lull_putLookup (s : Session) {rest : Script (Except IoError Candidates)}
    (h : rest.essence = s.lookup.essence) : Lull s (s.putLookup rest) :=
  (Lull.refl s).alike
    ⟨⟨rfl, rfl, rfl, h, rfl, rfl, rfl, rfl, rfl, rfl, rfl⟩, rfl, rfl, rfl, rfl⟩

/-- Pauses of the attempt that is under way may be left out. -/
theorem lull_putAttempt (s : Session) {script rest : Script (Except IoError Peer)}
    {others : List (Script (Except IoError Peer))} (hs : s.attempts = script :: others)
    (h : rest.essence = script.essence) : Lull s (s.putAttempt rest) := by
  refine (Lull.refl s).alike
    ⟨⟨rfl, rfl, rfl, rfl, ?_, rfl, rfl, rfl, rfl, rfl, rfl⟩, rfl, rfl, rfl, rfl⟩
  simp [putAttempt, hs, h]

/-- A stream may change if only pauses of its scripts do. -/
theorem lull_mapPeer (s : Session) {change : Peer → Peer}
    (h : ∀ peer, s.peer = some peer → (change peer).essence = peer.essence) :
    Lull s { s with peer := s.peer.map change } := by
  refine (Lull.refl s).alike
    ⟨⟨rfl, rfl, rfl, rfl, rfl, ?_, rfl, rfl, rfl, rfl, rfl⟩, rfl, rfl, rfl, rfl⟩
  cases hpeer : s.peer with
  | none => rfl
  | some peer => exact congrArg some (h peer hpeer)

/-- Pauses of the reads may be left out. -/
theorem lull_putReads (s : Session) {rest : Script (Except IoError Bytes)}
    (h : rest.essence = s.reads.essence) : Lull s (s.putReads rest) := by
  refine lull_mapPeer s ?_
  intro peer hpeer
  have hreads : s.reads = peer.reads := by simp [reads, hpeer]
  simp [Peer.essence, h, hreads]

/-- Pauses of the writes may be left out. -/
theorem lull_putWrites (s : Session) {rest : Script (Except IoError Nat)}
    (h : rest.essence = s.writes.essence) : Lull s (s.putWrites rest) := by
  refine lull_mapPeer s ?_
  intro peer hpeer
  have hwrites : s.writes = peer.writes := by simp [writes, hpeer]
  simp [Peer.essence, h, hwrites]

/-- Pauses of the flushes may be left out. -/
theorem lull_putFlushes (s : Session) {rest : Script (Except IoError Unit)}
    (h : rest.essence = s.flushes.essence) : Lull s (s.putFlushes rest) := by
  refine lull_mapPeer s ?_
  intro peer hpeer
  have hflushes : s.flushes = peer.flushes := by simp [flushes, hpeer]
  simp [Peer.essence, h, hflushes]

/-- Pauses of the closing may be left out. -/
theorem lull_putCloses (s : Session) {rest : Script (Except IoError Unit)}
    (h : rest.essence = s.closes.essence) : Lull s (s.putCloses rest) := by
  refine lull_mapPeer s ?_
  intro peer hpeer
  have hcloses : s.closes = peer.closes := by simp [closes, hpeer]
  simp [Peer.essence, h, hcloses]

/-! ### What was told and what arrived -/

/-- The bytes that have arrived so far. -/
def received (s : Session) : Bytes :=
  s.log.flatMap fun entry => entry.event.arrival

/-- The calls are read off the history, which has its newest entry first. -/
theorem notices_eq (s : Session) :
    s.notices = s.history.reverse.filterMap fun entry => entry.event.notice? := rfl

/-- A recorded event adds its call, if it is one. -/
@[simp] theorem notices_record (s : Session) (event : Event) :
    (s.record event).notices = s.notices ++ event.notice?.toList := by
  cases event <;> simp [notices_eq, record, Event.notice?]

/-- A recorded event adds the bytes that it brings. -/
@[simp] theorem received_record (s : Session) (event : Event) :
    (s.record event).received = s.received ++ event.arrival := by
  simp [received, log, record]

/-- Only some of what is recorded is a call. -/
theorem notices_record_of_silent (s : Session) {event : Event} (h : event.notice? = none) :
    (s.record event).notices = s.notices := by
  rw [notices_record, h]
  exact List.append_nil _

/-- Only some of what is recorded is an arrival. -/
theorem received_record_of_silent (s : Session) {event : Event} (h : event.arrival = []) :
    (s.record event).received = s.received := by
  rw [received_record, h]
  exact List.append_nil _

/-- Entering a state is no call. -/
theorem notices_enter (s : Session) (state : State) : (s.enter state).notices = s.notices :=
  notices_record_of_silent _ rfl

/-- Entering a state brings no bytes. -/
theorem received_enter (s : Session) (state : State) :
    (s.enter state).received = s.received :=
  received_record_of_silent _ rfl

/-- Settling is no call. -/
theorem notices_settle (s : Session) : s.settle.notices = s.notices :=
  notices_record_of_silent _ rfl

/-- Settling brings no bytes. -/
theorem received_settle (s : Session) : s.settle.received = s.received :=
  received_record_of_silent _ rfl

/-- What the owner does is no call of the owner. -/
theorem notices_act (s : Session) (action : Action) : (s.act action).notices = s.notices := by
  obtain ⟨held, reply, h⟩ := act_eq s action
  simp [h, notices_eq, Event.notice?]

/-- What the owner does brings no bytes. -/
theorem received_act (s : Session) (action : Action) : (s.act action).received = s.received := by
  obtain ⟨held, reply, h⟩ := act_eq s action
  simp [h, received, log, Event.arrival]

/-- Nothing is told while time passes and the owner acts. -/
theorem Lull.notices {s t : Session} (h : Lull s t) : t.notices = s.notices :=
  h.keeps (P := fun t => t.notices = s.notices) (fun t action ht => (notices_act t action).trans ht)
    (fun t u same ht => by rw [notices_eq, same.history, ← notices_eq, ht]) rfl

/-- Nothing arrives while time passes and the owner acts. -/
theorem Lull.received {s t : Session} (h : Lull s t) : t.received = s.received :=
  h.keeps (P := fun t => t.received = s.received)
    (fun t action ht => (received_act t action).trans ht)
    (fun t u same ht => by rw [← ht, Session.received, log, same.history]; rfl) rfl

/-- A call of the owner is the last thing told. -/
theorem notices_notify (s : Session) (notice : Notice) :
    (s.notify notice).notices = s.notices ++ [notice] := by
  rw [(lull_notify s notice).notices, notices_record]
  rfl

/-- A call of the owner brings no bytes. -/
theorem received_notify (s : Session) (notice : Notice) :
    (s.notify notice).received = s.received :=
  (lull_notify s notice).received.trans (received_record_of_silent _ rfl)

/-! ### Waiting -/

/-- What an operation comes to that gets no result from its script. -/
inductive Pause {α : Type} (script : Script α) (s : Session) : Session → Prop where
  /-- It goes on. -/
  | on {t : Session} (h : Lull s t) : Pause script s t
  /-- Nothing will happen any more, and nobody has requested a shutdown. -/
  | stuck {t : Session} {rest : Script α} (h : Lull s t) (never : script = .never :: rest)
      (calm : t.stopRequested = false) : Pause script s { t with task := .stuck }
  /-- A shutdown was requested. -/
  | cancelled {t : Session} (h : Lull s t) (stop : t.stopRequested = true) :
      Pause script s (t.conclude .cancelled)
  /-- The idle limit was reached. -/
  | expired {t : Session} (h : Lull s t) (limit : t.watchdog.timeout ≠ none) :
      Pause script s (t.fail .connectionTimeout)

/-- Asking the idle limit does not change it, and there is one if it was reached. -/
theorem timeout_of_poll {watchdog watchdog' : Watchdog} {now : Nat} {expired : Bool}
    (h : watchdog.poll now = (expired, watchdog')) :
    watchdog'.timeout = watchdog.timeout ∧ (expired = true → watchdog.timeout ≠ none) := by
  unfold Watchdog.poll at h
  split at h
  · cases h
    exact ⟨rfl, fun h => by cases h⟩
  · rename_i timeout hsome
    cases h
    exact ⟨rfl, fun _ hnone => by rw [hsome] at hnone; cases hnone⟩

/-- Sleeping is a lull, unless there is nothing to wake up for. -/
theorem sleep_cases (s : Session) (wake? : Option Nat) :
    Lull s (s.sleep wake?) ∨ (wake? = none ∧ s.sleep wake? = { s with task := .stuck }) := by
  unfold sleep
  split
  · exact .inr ⟨rfl, rfl⟩
  · exact .inl ((Lull.refl s).alike (alike_clock s _ _ rfl))
  · exact .inl (lull_actAt s _)
  · split
    · exact .inl (lull_actAt s _)
    · exact .inl ((Lull.refl s).alike (alike_clock s _ _ rfl))

/-- Idling is a pause of the operation. -/
theorem pause_idle {α : Type} {script : Script α} (s : Session) {until? : Option Nat}
    (hcalm : s.stopRequested = false)
    (hnever : until? = none → ∃ rest, script = .never :: rest) :
    Pause script s (s.idle until?) := by
  unfold idle
  cases hpoll : s.watchdog.poll s.now with
  | mk expired watchdog =>
    obtain ⟨htimeout, hlimit⟩ := timeout_of_poll hpoll
    have hlull : Lull s { s with watchdog } :=
      (Lull.refl s).alike (alike_clock s s.now s.schedule htimeout)
    cases expired with
    | true => exact .expired (.refl s) (hlimit rfl)
    | false =>
      -- The session sleeps, and then looks for a request that was made meanwhile.
      simp only [Bool.false_eq_true, if_false]
      rcases sleep_cases { s with watchdog } (earliest until? watchdog.alarm?) with h | ⟨hw, h⟩
      · unfold heed
        split
        · exact .cancelled (hlull.trans h) ‹_›
        · exact .on (hlull.trans h)
      · -- Nothing to wake up for, and no shutdown request: `heed` changes nothing.
        obtain ⟨rest, hrest⟩ := hnever (by
          cases until? with
          | none => rfl
          | some instant => cases ha : watchdog.alarm? <;> simp [ha, earliest] at hw)
        rw [h, heed, if_neg (by simp [hcalm])]
        exact .stuck hlull hrest hcalm

/-- Waiting is a pause of the operation. -/
theorem pause_wait {α : Type} {script : Script α} (s : Session) {until? : Option Nat}
    (hnever : until? = none → ∃ rest, script = .never :: rest) :
    Pause script s (s.wait until?) := by
  unfold wait
  split
  · exact .cancelled (.refl s) ‹_›
  · rename_i hcalm
    exact pause_idle s (by simpa using hcalm) hnever

/-- Following a script gives a result, lets time pass, or has to wait. -/
theorem follow_cases {α : Type} (s : Session) (script : Script α) (final : α)
    (store : Session → Script α → Session) (finish : Session → α → Session)
    (wait : Session → Option Nat → Session)
    (hstore : ∀ cue others rest, script = cue :: others → Script.essence rest = script.essence →
      Lull s (store s rest)) :
    (∃ value rest, script.Gives final value rest ∧
        s.follow script final store finish wait = finish (store s rest) value) ∨
      Lull s (s.follow script final store finish wait) ∨
      ∃ until?, (until? = none → ∃ rest, script = .never :: rest) ∧
        s.follow script final store finish wait = wait s until? := by
  cases script with
  | nil => exact .inl ⟨final, [], .inl ⟨rfl, rfl, rfl⟩, rfl⟩
  | cons cue others =>
    unfold follow
    cases hturn : Script.turn (cue :: others) final s.now with
    | result value rest => exact .inl ⟨value, rest, Script.gives_of_turn hturn, rfl⟩
    | act actions rest =>
      exact .inr (.inl ((hstore cue others rest rfl (Script.essence_of_turn_act hturn)).trans
        (lull_actAll _ actions)))
    | proceed next =>
      exact .inr (.inl (hstore cue others next rfl (Script.essence_of_turn_proceed hturn)))
    | wait until? =>
      refine .inr (.inr ⟨until?, ?_, rfl⟩)
      intro hnone
      subst hnone
      exact Script.never_of_turn_wait hturn

/-- A guarded operation that is followed through its script gets a result or pauses. -/
theorem follow_wait_cases {α : Type} (s : Session) (script : Script α) (final : α)
    (store : Session → Script α → Session) (finish : Session → α → Session)
    (hstore : ∀ cue others rest, script = cue :: others → Script.essence rest = script.essence →
      Lull s (store s rest)) :
    (∃ value rest, script.Gives final value rest ∧
        s.follow script final store finish wait = finish (store s rest) value) ∨
      Pause script s (s.follow script final store finish wait) := by
  rcases follow_cases s script final store finish wait hstore with h | h | ⟨until?, hnever, h⟩
  · exact .inl h
  · exact .inr (.on h)
  · rw [h]
    exact .inr (pause_wait s hnever)

/-! ### The moves, task by task -/

section
variable {s : Session}

/-- A lookup gets its result or pauses. -/
theorem step_resolve (h : s.task = .attempting .resolve) :
    (∃ result rest, s.lookup.Gives (.ok []) result rest ∧
        s.step = (s.putLookup rest).resolved result) ∨
      Pause s.lookup s s.step := by
  have hstep : s.step = s.follow s.lookup (.ok []) putLookup resolved wait := by
    simp only [step, h, stepOperation]
  rw [hstep]
  exact follow_wait_cases s _ _ _ _ fun _ _ _ _ hrest => lull_putLookup s hrest

/-- An attempt to connect gets its result or pauses. -/
theorem step_connect {candidate : Nat} {endpoint : Endpoint} {others : Candidates}
    (h : s.task = .attempting (.connect candidate endpoint others)) :
    (∃ result rest,
        (s.attempts.headD []).Gives (.error { kind := .connectionRefused }) result rest ∧
        s.step = (s.putAttempt rest).connected candidate others result) ∨
      Pause (s.attempts.headD []) s s.step := by
  have hstep : s.step = s.follow (s.attempts.headD []) (.error { kind := .connectionRefused })
      putAttempt (fun s result => s.connected candidate others result) wait := by
    simp only [step, h, stepOperation]
  rw [hstep]
  refine follow_wait_cases s _ _ _ _ ?_
  intro cue rest' rest hcons hrest
  cases hs : s.attempts with
  | nil => simp [hs] at hcons
  | cons script scripts =>
    rw [hs] at hrest
    exact lull_putAttempt s hs hrest

/-- When all bytes are written, the flush comes next. -/
theorem step_write_nil {purpose : Purpose} (h : s.task = .attempting (.write purpose [])) :
    s.step = { s with task := .attempting (.flush purpose) } := by
  simp only [step, h, stepOperation]

/-- A write gets its result or pauses. -/
theorem step_write {purpose : Purpose} {bytes : Bytes} (hne : bytes ≠ [])
    (h : s.task = .attempting (.write purpose bytes)) :
    (∃ result rest, s.writes.Gives (.ok bytes.length) result rest ∧
        s.step = (s.putWrites rest).written purpose bytes result) ∨
      Pause s.writes s s.step := by
  obtain ⟨b, bs, rfl⟩ := List.exists_cons_of_ne_nil hne
  have hstep : s.step = s.follow s.writes (.ok (b :: bs).length) putWrites
      (fun s result => s.written purpose (b :: bs) result) wait := by
    simp only [step, h, stepOperation]
  rw [hstep]
  exact follow_wait_cases s _ _ _ _ fun _ _ _ _ hrest => lull_putWrites s hrest

/-- A flush gets its result or pauses. -/
theorem step_flush {purpose : Purpose} (h : s.task = .attempting (.flush purpose)) :
    (∃ result rest, s.flushes.Gives (.ok ()) result rest ∧
        s.step = (s.putFlushes rest).flushed purpose result) ∨
      Pause s.flushes s s.step := by
  have hstep : s.step = s.follow s.flushes (.ok ()) putFlushes
      (fun s result => s.flushed purpose result) wait := by
    simp only [step, h, stepOperation]
  rw [hstep]
  exact follow_wait_cases s _ _ _ _ fun _ _ _ _ hrest => lull_putFlushes s hrest

/-- Bytes that have arrived are received. -/
theorem step_receive (h : s.task = .attempting .read) (harrived : s.arrived ≠ []) :
    s.step = s.receive := by
  simp only [step, h, stepOperation]
  rw [if_neg (by simpa using harrived)]

/-- A read of a stream gets its result, yields to a message for the server, or pauses. -/
theorem step_read (h : s.task = .attempting .read) (harrived : s.arrived = []) :
    (∃ result rest, s.reads.Gives (.ok []) result rest ∧
        s.step = (s.putReads rest).readable result) ∨
      (∃ message uplink, s.stopRequested = false ∧ s.state.isActive = true ∧
        s.uplink.take? = some (message, uplink) ∧
        s.step = ({ s with uplink }.settle).attempt (.write .uplink message)) ∨
      Pause s.reads s s.step := by
  have hstep : s.step = s.follow s.reads (.ok []) putReads readable waitForBytes := by
    simp only [step, h, stepOperation, harrived, List.isEmpty_nil, if_true]
  rw [hstep]
  rcases follow_cases s s.reads (.ok []) putReads readable waitForBytes
    fun _ _ _ _ hrest => lull_putReads s hrest with hres | hlull | ⟨until?, hnever, hwait⟩
  · exact .inl hres
  · exact .inr (.inr (.on hlull))
  · rw [hwait]
    unfold waitForBytes
    split
    · exact .inr (.inr (.cancelled (.refl s) ‹_›))
    · rename_i hstop
      have hcalm : s.stopRequested = false := by simpa using hstop
      split
      · rename_i message uplink htake
        split at htake
        · exact .inr (.inl ⟨message, uplink, hcalm, ‹_›, htake, rfl⟩)
        · cases htake
      · exact .inr (.inr (pause_idle s hcalm hnever))

/-- A session that decodes makes a move of its decoder. -/
theorem step_decoding (h : s.task = .decoding) : s.step = s.stepDecoder := by
  simp only [step, h]

/-- A session whose work has stopped winds up in one move. -/
theorem step_concluding {ending : Ending} (h : s.task = .concluding ending) :
    s.step = s.stepConclusion ending := by
  simp only [step, h]

/-- Closing the stream ends the session, goes on, or waits for ever. -/
theorem step_closing {outcome : Outcome} (h : s.task = .closing outcome) :
    (∃ result rest, s.closes.Gives (.ok ()) result rest ∧
        s.step = ({ s.putCloses rest with peer := none }.record (.closed result)).finish outcome) ∨
      Lull s s.step ∨
      (∃ rest, s.closes = .never :: rest) ∧ s.step = { s with task := .stuck } := by
  have hstep : s.step = s.follow s.closes (.ok ()) putCloses
      (fun s result => ({ s with peer := none }.record (.closed result)).finish outcome)
      sleep := by
    simp only [step, h, stepClosing]
  rw [hstep]
  rcases follow_cases s s.closes (.ok ()) putCloses
    (fun s result => ({ s with peer := none }.record (.closed result)).finish outcome) sleep
    fun _ _ _ _ hrest => lull_putCloses s hrest with hres | hlull | ⟨until?, hnever, hwait⟩
  · exact .inl hres
  · exact .inr (.inl hlull)
  · rw [hwait]
    rcases sleep_cases s until? with hsleep | ⟨hnone, hsleep⟩
    · exact .inr (.inl hsleep)
    · exact .inr (.inr ⟨hnever hnone, hsleep⟩)

/-- A session that has halted makes no move. -/
theorem step_of_halted (h : s.isHalted = true) : s.step = s := by
  unfold isHalted at h
  unfold step
  split at h
  · simp only [*]
  · simp only [*]
  · cases h

end

/-! ### Runs -/

/-- A session that has halted stays what it is. -/
theorem runFor_of_halted (n : Nat) {s : Session} (h : s.isHalted = true) : s.runFor n = s := by
  cases n with
  | zero => rfl
  | succ n => rw [runFor, if_pos h]

/-- One more move, made first. -/
theorem runFor_succ (n : Nat) (s : Session) : s.runFor (n + 1) = s.step.runFor n := by
  by_cases h : s.isHalted = true
  · rw [runFor_of_halted (n + 1) h, step_of_halted h, runFor_of_halted n h]
  · rw [runFor, if_neg h]

/-- Moves made one after another add up. -/
theorem runFor_add (m n : Nat) (s : Session) : s.runFor (m + n) = (s.runFor m).runFor n := by
  induction m generalizing s with
  | zero => rw [Nat.zero_add]; rfl
  | succ m ih => rw [Nat.succ_add, runFor_succ, ih, runFor_succ]

/-- One more move, made last. -/
theorem runFor_succ' (n : Nat) (s : Session) : s.runFor (n + 1) = (s.runFor n).step := by
  rw [runFor_add, runFor_succ]
  rfl

/-- Enough moves are as good as a run. -/
theorem runFor_eq_run {n : Nat} {s : Session} (h : s.work ≤ n) : s.runFor n = s.run := by
  obtain ⟨extra, rfl⟩ := Nat.exists_eq_add_of_le h
  rw [runFor_add]
  exact runFor_of_halted extra (isHalted_run s)

/-- A run goes through every state that some number of moves leads to. -/
theorem run_runFor (n : Nat) (s : Session) : (s.runFor n).run = s.run := by
  -- Enough moves for both runs.
  calc (s.runFor n).run
      = (s.runFor n).runFor ((s.runFor n).work + s.work) :=
        (runFor_eq_run (Nat.le_add_right _ _)).symm
    _ = s.runFor (n + ((s.runFor n).work + s.work)) := (runFor_add n _ s).symm
    _ = s.run := runFor_eq_run (by omega)

/-- A run may be made one move at a time. -/
theorem run_step (s : Session) : s.step.run = s.run := by
  rw [← run_runFor 1 s, runFor_succ]
  rfl

/-- A session that has halted has been run. -/
theorem run_of_halted {s : Session} (h : s.isHalted = true) : s.run = s :=
  runFor_of_halted s.work h

/-- What always holds shows in the moves up to the end. -/
theorem always_of_isHalted {P : Session → Prop} {n : Nat} {s : Session}
    (hhalted : (s.runFor n).isHalted = true) (h : ∀ moves ∈ List.range (n + 1), P (s.runFor moves))
    (moves : Nat) : P (s.runFor moves) := by
  by_cases hle : moves ≤ n
  · exact h moves (List.mem_range.2 (Nat.lt_succ_of_le hle))
  · -- Moves after the end change nothing.
    obtain ⟨extra, rfl⟩ := Nat.exists_eq_add_of_le (Nat.le_of_not_le hle)
    rw [runFor_add, runFor_of_halted extra hhalted]
    exact h n (List.mem_range.2 (Nat.lt_succ_self n))

/-- Induction over the moves that are left. -/
theorem move_induction {P : Session → Prop} (hhalted : ∀ s, s.isHalted = true → P s)
    (hmove : ∀ s, s.isHalted = false → P s.step → P s) (s : Session) : P s := by
  generalize hn : s.work = n
  -- On the work that is left, which falls with every move.
  induction n using Nat.strongRecOn generalizing s with
  | ind n ih =>
    cases hs : s.isHalted with
    | true => exact hhalted s hs
    | false => exact hmove s hs (ih s.step.work (hn ▸ work_step_lt s hs) s.step rfl)

/-- What every move keeps, any number of moves keeps. -/
theorem keeps_runFor {P : Session → Prop} (hstep : ∀ s, P s → P s.step) (n : Nat) {s : Session}
    (h : P s) : P (s.runFor n) := by
  induction n generalizing s with
  | zero => exact h
  | succ n ih =>
    rw [runFor_succ]
    exact ih (hstep s h)

end Session

/-! ### A connection and a server for examples -/

/-- A connection with the default settings. -/
def Connection.sample : Connection where
  config := { host := "caster", port := 80 }
  request := (Request.encode { host := "caster", port := 80 }).toOption.getD []
  request_eq := by rfl

/-- The host has one address, and the server there sends what the script says. -/
def Plan.serving (reads : Script (Except IoError Bytes)) : Plan where
  lookup := [.result (.ok [{ address := .v4 ⟨10, 0, 0, 1⟩, port := 0 }])]
  attempts := [[.result (.ok { reads })]]

end NtripClient
