import NtripClient.Proofs.Session.Selective
import NtripClient.Proofs.Session.Unlimited
import NtripClient.Proofs.Watchdog

/-!
# `NtripClient.Proofs.Session.Keeping`: a session whose owner keeps all handles

The owner of a connection may drop handles while it runs. `Plan.keeping` is the same plan with an
owner who keeps them all. `Together` relates two sessions, one of each plan: they are at the same
instant and the same task, and what they have done apart from the owner's actions is the same
(`Session.effects`). The second one holds the handles that the first one may have dropped.

Both make the same moves as long as nothing is waited for (`Together.step`). All that is asked of
the owner is not to act by a handle that was dropped (`HandlesSuffice`).
-/

set_option autoImplicit false

namespace NtripClient

/-- The action drops no handle. -/
def Action.keepsHandles : Action → Bool
  | .release _ => false
  | _ => true

/-- The plan with an owner who holds all handles from the beginning and keeps them. -/
def Plan.keeping (plan : Plan) : Plan :=
  { plan.restrict Action.keepsHandles with access := .full }

/-- The owner sends or requests a shutdown without a handle to do so. -/
def Event.lacksHandle : Event → Bool
  | .acted (.send _) .nothing => true
  | .acted .shutdown .nothing => true
  | _ => false

/-- What the session does itself: everything but the actions of the owner, and but for whether
the owner can see it. -/
def Entry.effect? (entry : Entry) : Option Entry :=
  match entry.event with
  | .acted _ _ => none
  | _ => some { entry with isWatched := false }

/-! ### The idle limit -/

namespace Watchdog

/-- The watchdog with its timer set to its alarm. -/
def wound (watchdog : Watchdog) : Watchdog where
  timeout := watchdog.timeout
  deadline := max watchdog.timer watchdog.deadline
  timer := max watchdog.timer watchdog.deadline

variable {first second : Watchdog} {now : Nat}

/-- Asking a watchdog that has not expired does not move its alarm. -/
theorem wound_poll (h : (first.poll now).1 = false) : (first.poll now).2.wound = first.wound := by
  unfold poll at h ⊢
  cases htimeout : first.timeout with
  | none => rfl
  | some limit =>
    rw [htimeout] at h
    have hwatch : watch now first.deadline first.timer
        = (false, (watch now first.deadline first.timer).2) := Prod.ext h rfl
    simp only [wound, max_watch hwatch, htimeout]

/-- A watchdog with its timer set to its alarm goes off when it would have gone off. -/
theorem alarm?_wound (watchdog : Watchdog) : watchdog.wound.alarm? = watchdog.alarm? := by
  simp only [alarm?, wound, Nat.max_self]

/-- Watchdogs that differ in nothing but when the timer is set go off at the same instant. -/
theorem alarm?_congr (h : first.wound = second.wound) : first.alarm? = second.alarm? := by
  rw [← alarm?_wound, ← alarm?_wound second, h]

/-- The alarm goes off no later than the limit after an instant. -/
def IsInReach (watchdog : Watchdog) (now : Nat) : Prop :=
  ∀ limit, watchdog.timeout = some limit → max watchdog.timer watchdog.deadline ≤ now + limit

/-- It does not matter for this when the timer is set. -/
theorem IsInReach.congr (h : first.IsInReach now) (heq : first.wound = second.wound) :
    second.IsInReach now := by
  have htimeout : first.timeout = second.timeout := (congrArg Watchdog.timeout heq :)
  have halarm : max first.timer first.deadline = max second.timer second.deadline :=
    (congrArg Watchdog.timer heq :)
  intro limit hlimit
  rw [← halarm]
  exact h limit (htimeout.trans hlimit)

/-- Progress sets the alarm to the end of the limit, if there is one. -/
theorem wound_reset (hreach : first.IsInReach now) :
    (first.reset now).wound = match first.timeout with
      | some limit => { timeout := some limit, deadline := now + limit, timer := now + limit }
      | none => first.wound := by
  unfold reset
  cases hlimit : first.timeout with
  | none => rfl
  | some limit =>
    have hle := hreach limit hlimit
    have hmax : max first.timer (now + limit) = now + limit := by omega
    simp only [wound, hmax]

/-- Progress is the same for both of them. -/
theorem wound_reset_congr (h : first.wound = second.wound) (hreach : first.IsInReach now) :
    (first.reset now).wound = (second.reset now).wound := by
  have htimeout : first.timeout = second.timeout := (congrArg Watchdog.timeout h :)
  rw [wound_reset hreach, wound_reset (hreach.congr h), htimeout, h]

/-- Progress sets the deadline to the limit from now, which is within reach. -/
theorem IsInReach.reset (h : first.IsInReach now) : (first.reset now).IsInReach now := by
  have hwound := wound_reset h
  intro limit hlimit
  have htimeout : first.timeout = some limit := by
    unfold Watchdog.reset at hlimit
    split at hlimit <;> exact hlimit
  rw [htimeout] at hwound
  exact Nat.le_of_eq (congrArg Watchdog.timer hwound :)

end Watchdog

namespace Session

variable {s t a b : Session}

/-! ### What a session does itself -/

/-- What the session has done itself, oldest first, with the instants and the states. -/
def effects (s : Session) : List Entry :=
  s.log.filterMap Entry.effect?

/-- The owner has not sent or requested anything without a handle to do so. -/
def HandlesSuffice (s : Session) : Prop :=
  ∀ entry ∈ s.history, entry.event.lacksHandle = false

/-- What sufficed for a session sufficed for it up to any earlier moment. -/
theorem HandlesSuffice.of_flow (h : t.HandlesSuffice) (hflow : Flow s t) : s.HandlesSuffice := by
  obtain ⟨added, hadded, -⟩ := hflow.history
  intro entry hmem
  exact h entry (by rw [hadded]; exact List.mem_append_right _ hmem)

/-- Entering a state takes no time and adds one entry to the log. -/
theorem flow_enter (s : Session) (state : State) : Flow s (s.enter state) :=
  flow_of_cons rfl rfl rfl

/-- The session without what the handles and the timer of the watchdog make of it. -/
def bare (s : Session) : Session :=
  { s with
    watchdog := s.watchdog.wound
    held := { status := false, stopper := false, sender := false }
    history := s.history.filterMap Entry.effect? }

/-- Two sessions do the same, the second one with all handles and without dropping any. -/
structure Together (a b : Session) : Prop where
  same : b.bare = (a.restrict Action.keepsHandles).bare
  stopper : b.held.stopper = true
  sender : b.held.sender = true
  timely : IsTimely a.schedule
  reach : a.watchdog.IsInReach a.now

section
variable (h : Together a b)
include h

/-- Both are at the same instant. -/
theorem Together.now : b.now = a.now :=
  (congrArg Session.now h.same :)

/-- Both are at the same task. -/
theorem Together.task : b.task = a.task :=
  (congrArg Session.task h.same :)

/-- Both have come equally far. -/
theorem Together.state : b.state = a.state :=
  (congrArg Session.state h.same :)

/-- A shutdown was requested of both, or of neither. -/
theorem Together.stopRequested : b.stopRequested = a.stopRequested :=
  (congrArg Session.stopRequested h.same :)

/-- The same messages wait in both. -/
theorem Together.uplink : b.uplink = a.uplink :=
  (congrArg Session.uplink h.same :)

/-- The same bytes wait to be read. -/
theorem Together.arrived : b.arrived = a.arrived :=
  (congrArg Session.arrived h.same :)

/-- Both have read the same part of the answer. -/
theorem Together.decoder : b.decoder = a.decoder :=
  (congrArg Session.decoder h.same :)

/-- Both run the same connection. -/
theorem Together.connection : b.connection = a.connection :=
  (congrArg Session.connection h.same :)

/-- The watchdogs of both go off at the same instant. -/
theorem Together.watchdog : b.watchdog.wound = a.watchdog.wound :=
  (congrArg Session.watchdog h.same :)

/-- The second owner plans to do the same, but to drop nothing. -/
theorem Together.schedule : b.schedule = restrictTimed Action.keepsHandles a.schedule :=
  (congrArg Session.schedule h.same :)

/-- The lookup comes to the same, but nothing is dropped while it is waited for. -/
theorem Together.lookup : b.lookup = a.lookup.restrict Action.keepsHandles id :=
  (congrArg Session.lookup h.same :)

/-- So do the attempts to connect. -/
theorem Together.attempts :
    b.attempts = a.attempts.map (restrictAttempt Action.keepsHandles) :=
  (congrArg Session.attempts h.same :)

/-- The stream says the same to both. -/
theorem Together.peer : b.peer = a.peer.map (Peer.restrict Action.keepsHandles) :=
  (congrArg Session.peer h.same :)

/-- The second owner reacts in the same way, but drops nothing. -/
theorem Together.reactions : b.reactions = a.reactions.restrict Action.keepsHandles :=
  (congrArg Session.reactions h.same :)

/-- So it is with what the owner does after the end. -/
theorem Together.after : b.after = a.after.filter Action.keepsHandles :=
  (congrArg Session.after h.same :)

/-- Both have done the same so far, newest first. -/
theorem Together.history :
    b.history.filterMap Entry.effect? = a.history.filterMap Entry.effect? :=
  (congrArg Session.history h.same :)

/-- Both have done the same so far, oldest first. -/
theorem Together.effects : b.effects = a.effects := by
  unfold Session.effects log
  rw [List.filterMap_reverse, List.filterMap_reverse, h.history]

/-! ### What both do alike -/

/-- What neither handles nor the owner's plans matter for is done alike. -/
theorem Together.record (event : Event) (hown : event.isAction = false) :
    Together (a.record event) (b.record event) := by
  have hbare : ∀ s : Session, (s.record event).bare = s.bare.record event := by
    intro s
    cases event with
    | acted action reply => cases hown
    | _ => rfl
  refine { h with same := ?_ }
  rw [hbare, h.same]
  exact (hbare (a.restrict Action.keepsHandles)).symm

/-- Both enter a state. -/
theorem Together.enter (state : State) : Together (a.enter state) (b.enter state) := by
  have hmoved : Together { a with state := a.state.moveTo state }
      { b with state := b.state.moveTo state } :=
    { h with same := congrArg (fun s : Session => { s with state := s.state.moveTo state }) h.same }
  exact hmoved.record _ rfl

/-- Both go over to a task. -/
theorem Together.setTask (task : Task) : Together { a with task } { b with task } :=
  { h with same := congrArg (fun s : Session => { s with task }) h.same }

/-- Both wind up. -/
theorem Together.conclude (ending : Ending) : Together (a.conclude ending) (b.conclude ending) :=
  h.setTask _

/-- Both fail. -/
theorem Together.fail (error : Error) : Together (a.fail error) (b.fail error) :=
  h.setTask _

/-- Both give in to a shutdown request, and otherwise go on alike. -/
theorem Together.unlessStopped {c d : Session}
    (hcalm : (if a.stopRequested then a.conclude .cancelled else c) = c → Together c d) :
    Together (if a.stopRequested then a.conclude .cancelled else c)
      (if b.stopRequested then b.conclude .cancelled else d) := by
  have hstop := h.stopRequested
  by_cases hs : a.stopRequested = true
  · rw [if_pos hs, if_pos (hstop.trans hs)]
    exact h.conclude _
  · rw [if_neg hs] at hcalm ⊢
    rw [if_neg (hstop ▸ hs)]
    exact hcalm rfl

/-- Both notice a shutdown request, or neither does. -/
theorem Together.heed : Together a.heed b.heed :=
  h.unlessStopped fun _ => h

/-- Both begin an operation, unless a shutdown was requested. -/
theorem Together.attempt (operation : Operation) :
    Together (a.attempt operation) (b.attempt operation) :=
  h.unlessStopped fun _ => (h.setTask _).record _ rfl

/-- Watchdogs that go off at the same instant are set alike. -/
theorem Together.setWatchdog {first second : Watchdog} (hwound : second.wound = first.wound)
    (hreach : first.IsInReach a.now) :
    Together { a with watchdog := first } { b with watchdog := second } := by
  refine { h with same := ?_, reach := hreach }
  show { b.bare with watchdog := second.wound }
    = { (a.restrict Action.keepsHandles).bare with watchdog := first.wound }
  rw [h.same, hwound]

/-- Both note the progress of a completed operation. -/
theorem Together.settle : Together a.settle b.settle := by
  have hwound : (b.watchdog.reset b.now).wound = (a.watchdog.reset a.now).wound := by
    rw [h.now]
    exact (Watchdog.wound_reset_congr h.watchdog.symm h.reach).symm
  exact (h.setWatchdog hwound h.reach.reset).record _ rfl

/-! ### The owner -/

/-- An action is made by both, with the same result. Only the first one drops a handle. -/
theorem Together.act (action : Action) (hfair : (a.act action).HandlesSuffice) :
    if action.keepsHandles then Together (a.act action) (b.act action)
    else Together (a.act action) b := by
  have hentry := hfair _ (by rw [history_act]; exact List.mem_cons_self ..)
  cases action with
  | shutdown =>
    have hheld : a.held.stopper = true := by
      cases hstopper : a.held.stopper with
      | true => rfl
      | false => simp [entry, respond, hstopper, Event.lacksHandle] at hentry
    have hact : ∀ s : Session, s.held.stopper = true → s.act .shutdown
        = { s with stopRequested := true }.record (.acted .shutdown (.flag true)) := by
      intro s hs
      simp only [Session.act, respond, hs, if_true]
    rw [hact a hheld, hact b h.stopper]
    exact { h with same := congrArg (fun s : Session => { s with stopRequested := true }) h.same }
  | isShutdown => exact { h with }
  | send message =>
    have hheld : a.held.sender = true := by
      cases hsender : a.held.sender with
      | true => rfl
      | false => simp [entry, respond, hsender, Event.lacksHandle] at hentry
    simp only [Session.act, respond, hheld, h.sender, h.uplink, if_true]
    cases a.uplink.send message with
    | ok uplink => exact { h with same := congrArg (fun s : Session => { s with uplink }) h.same }
    | error error => exact { h with }
  | isActive => exact { h with }
  | release handle => exact { h with }

/-- Both owners act several times, the second one without dropping handles. -/
theorem Together.actAll (actions : List Action) (hfair : (a.actAll actions).HandlesSuffice) :
    Together (a.actAll actions) (b.actAll (actions.filter Action.keepsHandles)) := by
  induction actions generalizing a b with
  | nil => exact h
  | cons action rest ih =>
    have hact := h.act action
      (HandlesSuffice.of_flow hfair (works_actAll (a.act action) rest).flow)
    rw [List.filter_cons]
    split at hact
    · rw [if_pos ‹_›]
      exact ih hact hfair
    · rw [if_neg ‹_›]
      exact ih hact hfair

/-- Both owners are called, and react. -/
theorem Together.notify (notice : Notice) (hfair : (a.notify notice).HandlesSuffice) :
    Together (a.notify notice) (b.notify notice) := by
  have htake : b.reactions.take notice
      = ((a.reactions.take notice).1.filter Action.keepsHandles,
        (a.reactions.take notice).2.restrict Action.keepsHandles) := by
    rw [h.reactions, Reactions.take_restrict]
  have hset : Together { a with reactions := (a.reactions.take notice).2 }
      { b with reactions := (a.reactions.take notice).2.restrict Action.keepsHandles } :=
    { h with same := congrArg (fun s : Session =>
        { s with reactions := (a.reactions.take notice).2.restrict Action.keepsHandles }) h.same }
  have hnotify : b.notify notice
      = ({ b with reactions := (a.reactions.take notice).2.restrict Action.keepsHandles }.record
          (.notified notice)).actAll
          ((a.reactions.take notice).1.filter Action.keepsHandles) := by
    rw [Session.notify, htake]
  rw [hnotify]
  exact (hset.record (.notified notice) rfl).actAll _ hfair

/-- Both owners get the last call. -/
theorem Together.notifyEnd (outcome : Outcome) (hfair : (a.notifyEnd outcome).HandlesSuffice) :
    Together (a.notifyEnd outcome) (b.notifyEnd outcome) := by
  cases outcome with
  | shutdown => exact h
  | eof => exact h.notify .eof hfair
  | failed error => exact h.notify (.error error) hfair

/-- Both sessions end, and both owners act once more. -/
theorem Together.finish (outcome : Outcome) (hfair : (a.finish outcome).HandlesSuffice) :
    Together (a.finish outcome) (b.finish outcome) := by
  have hover : Together { a with after := [], task := .ended outcome }
      { b with after := [], task := .ended outcome } :=
    { h with same := congrArg (fun s : Session =>
        { s with after := [], task := .ended outcome }) h.same }
  have hfinish : b.finish outcome
      = ({ b with after := [], task := .ended outcome }.record .ended).actAll
          (a.after.filter Action.keepsHandles) := by
    rw [← h.after]
    rfl
  rw [hfinish]
  exact (hover.record .ended rfl).actAll _ hfair

/-- At an instant, both do what is due. -/
theorem Together.actAt {instant : Nat} (hlater : a.now ≤ instant)
    (hfair : (a.actAt instant).HandlesSuffice) :
    Together (a.actAt instant) (b.actAt instant) := by
  obtain ⟨hdue, hrest⟩ := h.timely.due_restrictTimed Action.keepsHandles instant
  have hwoken : Together
      { a with schedule := a.schedule.dropWhile (·.1 ≤ instant), now := instant }
      { b with schedule := b.schedule.dropWhile (·.1 ≤ instant), now := instant } := by
    refine { h with
      same := ?_
      timely := h.timely.dropWhile instant
      reach := fun limit hlimit =>
        Nat.le_trans (h.reach limit hlimit) (Nat.add_le_add_right hlater limit) }
    rw [h.schedule, hrest]
    exact congrArg (fun s : Session =>
      { s with
        schedule := restrictTimed Action.keepsHandles (a.schedule.dropWhile (·.1 ≤ instant))
        now := instant }) h.same
  -- Of the actions that are due, the session without the drops does all the others.
  let actions := (a.schedule.takeWhile (·.1 ≤ instant)).map Prod.snd
  have hactions : (b.schedule.takeWhile (·.1 ≤ instant)).map Prod.snd
      = actions.filter Action.keepsHandles := by
    rw [h.schedule, hdue, restrictTimed, List.filter_map]
    rfl
  have hactAt : b.actAt instant
      = ({ b with
            schedule := b.schedule.dropWhile (·.1 ≤ instant)
            now := instant } : Session).actAll (actions.filter Action.keepsHandles) := by
    rw [← hactions]
    rfl
  rw [hactAt]
  exact hwoken.actAll _ hfair

/-! ### Results -/

/-- Both go on to the next candidate, or fail because there is none. -/
theorem Together.connectNext (candidate : Nat) (last : IoError) (candidates : Candidates) :
    Together (a.connectNext candidate last candidates)
      (b.connectNext candidate last candidates) := by
  cases candidates with
  | nil => exact h.fail _
  | cons endpoint others => exact (h.enter _).attempt _

/-- Both use the result of the lookup. -/
theorem Together.resolved (result : Except IoError Candidates) :
    Together (a.resolved result) (b.resolved result) := by
  have hconnection : b.settle.connection = a.settle.connection := h.connection
  unfold Session.resolved
  simp only [hconnection]
  cases result with
  | error cause => exact h.settle.fail _
  | ok candidates =>
    cases candidates with
    | nil => exact h.settle.fail _
    | cons endpoint others => exact h.settle.connectNext _ _ _

/-- Both use the result of an attempt to connect. The streams that it gives say the same. -/
theorem Together.connected (candidate : Nat) (others : Candidates)
    (result : Except IoError Peer) :
    Together (a.connected candidate others result)
      (b.connected candidate others
        (Except.map (Peer.restrict Action.keepsHandles) result)) := by
  have htail : Together { a with attempts := a.attempts.tail }
      { b with attempts := b.attempts.tail } := by
    refine { h with same := ?_ }
    rw [h.attempts, ← List.map_tail]
    exact congrArg (fun s : Session =>
      { s with attempts := a.attempts.tail.map (restrictAttempt Action.keepsHandles) }) h.same
  cases result with
  | error cause => exact htail.settle.connectNext _ _ _
  | ok peer =>
    have hpeer : Together { { a with attempts := a.attempts.tail }.settle with peer := some peer }
        { { b with attempts := b.attempts.tail }.settle with
          peer := some (peer.restrict Action.keepsHandles) } :=
      { htail.settle with
        same := congrArg (fun s : Session =>
          { s with peer := some (peer.restrict Action.keepsHandles) }) htail.settle.same }
    have hconnected : b.connected candidate others (.ok (peer.restrict Action.keepsHandles))
        = (({ { b with attempts := b.attempts.tail }.settle with
            peer := some (peer.restrict Action.keepsHandles) } : Session).enter .writing).attempt
            (.write .request a.connection.request) := by
      rw [← h.connection]
      rfl
    show Together _ (b.connected candidate others (.ok (peer.restrict Action.keepsHandles)))
    rw [hconnected]
    exact (hpeer.enter .writing).attempt _

/-- Both use the result of a write. -/
theorem Together.written (purpose : Purpose) (bytes : Bytes) (result : Except IoError Nat) :
    Together (a.written purpose bytes result) (b.written purpose bytes result) := by
  cases result with
  | error cause =>
    simp only [Session.written]
    split
    · exact h
    · exact h.settle.fail _
  | ok limit =>
    have hwrote := h.record (.wrote (bytes.take limit)) rfl
    simp only [Session.written]
    split
    · exact hwrote.settle.fail _
    · exact hwrote.setTask _

/-- Both use the result of a flush. -/
theorem Together.flushed (purpose : Purpose) (result : Except IoError Unit) :
    Together (a.flushed purpose result) (b.flushed purpose result) := by
  cases result with
  | error cause => exact h.settle.fail _
  | ok u =>
    have hdone := (h.record .flushed rfl).settle
    cases purpose with
    | request => exact (hdone.enter .readingStatus).setTask _
    | uplink => exact hdone.attempt _

/-- Both use what the stream says when it is read. -/
theorem Together.readable (result : Except IoError Bytes) :
    Together (a.readable result) (b.readable result) := by
  cases result with
  | error cause => exact h.settle.fail _
  | ok bytes =>
    simp only [Session.readable]
    split
    · exact h.settle.conclude _
    · exact { h with same := congrArg (fun s : Session => { s with arrived := bytes }) h.same }

/-- The same bytes arrive at both. -/
theorem Together.setArrived (arrived : Bytes) :
    Together { a with arrived } { b with arrived } :=
  { h with same := congrArg (fun s : Session => { s with arrived }) h.same }

/-- Both go over to a decoder. -/
theorem Together.setDecoder (decoder : Decoder) :
    Together { a with decoder } { b with decoder } :=
  { h with same := congrArg (fun s : Session => { s with decoder }) h.same }

/-- Both read bytes that have arrived. -/
theorem Together.receive : Together a.receive b.receive := by
  let rest := a.arrived.drop a.connection.config.readLimit
  let bytes := a.arrived.take a.connection.config.readLimit
  have hreceive : b.receive
      = { ({ b with arrived := rest } : Session).settle.record (.received bytes) with
          decoder := a.decoder.push bytes
          task := .decoding } := by
    simp only [rest, bytes, ← h.arrived, ← h.connection, ← h.decoder]
    rfl
  have hread := (h.setArrived rest).settle.record (.received bytes) rfl
  rw [hreceive]
  exact (hread.setDecoder (a.decoder.push bytes)).setTask .decoding

/-- Both go on with the bytes that were read. -/
theorem Together.stepDecoder (hfair : a.stepDecoder.HandlesSuffice) :
    Together a.stepDecoder b.stepDecoder := by
  have hadvance : b.decoder.advance b.limits = a.decoder.advance a.limits := by
    rw [limits, limits, h.decoder, h.connection]
  unfold Session.stepDecoder at hfair ⊢
  rw [hadvance]
  -- Both decoders give the same signal; only the calls depend on the handles.
  cases hsignal : a.decoder.advance a.limits with
  | mk signal decoder =>
    rw [hsignal] at hfair
    have hset := h.setDecoder decoder
    cases signal with
    | more => exact hset.attempt _
    | proceed => exact hset
    | accepted status =>
      show Together (if status.skipsHeaders then _ else _) (if status.skipsHeaders then _ else _)
      split
      · exact hset.enter _
      · exact hset.enter _
    | headers map =>
      refine hset.unlessStopped fun hcalm => ?_
      have hcalls : (({ a with decoder }.notify (.headers map)).enter
          (.streaming (if map.isChunked then .chunked else .plain))).HandlesSuffice := by
        rw [← hcalm]
        exact hfair
      exact (hset.notify _ (hcalls.of_flow (flow_enter _ _))).enter _
    | data bytes =>
      refine hset.unlessStopped fun hcalm => hset.notify _ ?_
      rw [← hcalm]
      exact hfair
    | finished => exact hset.conclude _
    | failed error => exact hset.fail _

/-- Both close the uplink. -/
theorem Together.shut : Together { a with uplink := a.uplink.close }
    { b with uplink := b.uplink.close } :=
  { h with same := congrArg (fun s : Session => { s with uplink := s.uplink.close }) h.same }

/-- With or without a stream, both end in the same way. -/
theorem Together.leave (outcome : Outcome)
    (hfair : (if a.peer.isSome then { a with task := .closing outcome }.record .closing
      else a.finish outcome).HandlesSuffice) :
    Together
      (if a.peer.isSome then { a with task := .closing outcome }.record .closing
        else a.finish outcome)
      (if b.peer.isSome then { b with task := .closing outcome }.record .closing
        else b.finish outcome) := by
  have hpeer : b.peer.isSome = a.peer.isSome := by
    rw [h.peer]
    exact Option.isSome_map
  by_cases hsome : a.peer.isSome = true
  · rw [if_pos hsome, if_pos (hpeer.trans hsome)]
    exact (h.setTask _).record _ rfl
  · rw [if_neg hsome] at hfair
    rw [if_neg hsome, if_neg (hpeer ▸ hsome)]
    exact h.finish outcome hfair

/-- Both wind up: the last call, the closed state, and the way out. -/
theorem Together.stepConclusion (ending : Ending)
    (hfair : (a.stepConclusion ending).HandlesSuffice) :
    Together (a.stepConclusion ending) (b.stepConclusion ending) := by
  have hend := h.notifyEnd (outcomeOf a.stopRequested a.state ending)
    (hfair.of_flow (flow_notifyEnd a ending))
  unfold Session.stepConclusion at hfair ⊢
  rw [h.stopRequested, h.state]
  exact (hend.shut.enter .closed).leave _ hfair

/-! ### Moves -/

/-- Both follow their scripts alike if they put them back, use a result and wait alike. -/
theorem Together.follow {α : Type} {change : α → α} (script : Script α) (final : α)
    (store : Session → Script α → Session) {finish finish' : Session → α → Session}
    {wait : Session → Option Nat → Session}
    (hstore : ∀ rest, Together (store a rest)
      (store b (Script.restrict Action.keepsHandles change rest)))
    (hfinish : ∀ {c d : Session} value, Together c d → (finish c value).HandlesSuffice →
      Together (finish c value) (finish' d (change value)))
    (hwait : ∀ until?, script.Waits a.now until? → Together (wait a until?) (wait b until?))
    (hfair : (a.follow script final store finish wait).HandlesSuffice) :
    Together (a.follow script final store finish wait)
      (b.follow (Script.restrict Action.keepsHandles change script) (change final) store finish'
        wait) := by
  have hturn := script.turn_restrict Action.keepsHandles change final a.now
  unfold Session.follow at hfair ⊢
  rw [h.now, hturn]
  cases hcue : script.turn final a.now with
  | result value rest =>
    rw [hcue] at hfair
    exact hfinish value (hstore rest) hfair
  | act actions rest =>
    rw [hcue] at hfair
    exact (hstore rest).actAll actions hfair
  | proceed next => exact hstore next
  | wait until? => exact hwait until? (Script.waits_of_turn hcue)

/-- A change of the stream that has nothing to do with the owner is made to both. -/
theorem Together.mapPeer {change change' : Peer → Peer}
    (hchange : ∀ peer, change' (peer.restrict Action.keepsHandles)
      = (change peer).restrict Action.keepsHandles) :
    Together { a with peer := a.peer.map change } { b with peer := b.peer.map change' } := by
  have hpeer : b.peer.map change'
      = (a.peer.map change).map (Peer.restrict Action.keepsHandles) := by
    rw [h.peer, Option.map_map, Option.map_map]
    exact congrArg (fun f => a.peer.map f) (funext hchange)
  refine { h with same := ?_ }
  rw [hpeer]
  exact congrArg (fun s : Session =>
    { s with peer := (a.peer.map change).map (Peer.restrict Action.keepsHandles) }) h.same

/-- What is left of the reads comes to the same. -/
theorem Together.reads : b.reads = a.reads.restrict Action.keepsHandles id := by
  unfold Session.reads
  rw [h.peer]
  cases a.peer <;> rfl

/-- What is left of the writes comes to the same. -/
theorem Together.writes : b.writes = a.writes.restrict Action.keepsHandles id := by
  unfold Session.writes
  rw [h.peer]
  cases a.peer <;> rfl

/-- What is left of the flushes comes to the same. -/
theorem Together.flushes : b.flushes = a.flushes.restrict Action.keepsHandles id := by
  unfold Session.flushes
  rw [h.peer]
  cases a.peer <;> rfl

/-- What is left of closing comes to the same. -/
theorem Together.closes : b.closes = a.closes.restrict Action.keepsHandles id := by
  unfold Session.closes
  rw [h.peer]
  cases a.peer <;> rfl

/-- The attempt being made comes to the same. -/
theorem Together.attempting : b.attempts.headD []
    = restrictAttempt Action.keepsHandles (a.attempts.headD []) := by
  rw [h.attempts]
  cases a.attempts <;> rfl

/-- Both put back what is left of the lookup. -/
theorem Together.putLookup (rest : Script (Except IoError Candidates)) :
    Together (a.putLookup rest) (b.putLookup (rest.restrict Action.keepsHandles id)) :=
  { h with same := congrArg (fun s : Session =>
      s.putLookup (rest.restrict Action.keepsHandles id)) h.same }

/-- Both put back what is left of the attempt. -/
theorem Together.putAttempt (script : Script (Except IoError Peer)) :
    Together (a.putAttempt script)
      (b.putAttempt (restrictAttempt Action.keepsHandles script)) := by
  refine { h with same := ?_ }
  unfold Session.putAttempt
  rw [h.attempts, ← List.map_tail]
  exact congrArg (fun s : Session =>
    { s with attempts := List.map (restrictAttempt Action.keepsHandles)
              (script :: a.attempts.tail) }) h.same

/-- The session waits in whichever way both do. -/
theorem Together.waitsFor {operation : Operation} {until? : Option Nat} :
    b.WaitsFor until? operation ↔ a.WaitsFor until? operation := by
  cases operation with
  | resolve =>
    show b.lookup.Waits b.now until? ↔ _
    rw [h.lookup, h.now]
    exact Script.waits_restrict _
  | connect candidate endpoint others =>
    show (b.attempts.headD []).Waits b.now until? ↔ _
    rw [h.attempting, h.now]
    exact Script.waits_restrict _
  | write purpose bytes =>
    show bytes ≠ [] ∧ b.writes.Waits b.now until? ↔ _
    rw [h.writes, h.now]
    exact and_congr_right fun _ => Script.waits_restrict _
  | flush purpose =>
    show b.flushes.Waits b.now until? ↔ _
    rw [h.flushes, h.now]
    exact Script.waits_restrict _
  | read =>
    show b.arrived = [] ∧ b.reads.Waits b.now until? ∧
      (b.state.isActive = true → b.uplink.queue = []) ↔ _
    rw [h.arrived, h.reads, h.now, h.state, h.uplink]
    exact and_congr_right fun _ => and_congr_left fun _ => Script.waits_restrict _

/-- Both wait for the same, or neither waits. -/
theorem Together.awaits {operation : Operation} {until? : Option Nat} :
    Awaits b operation until? ↔ Awaits a operation until? := by
  have htask := h.task
  have hstop := h.stopRequested
  constructor
  · intro hawaits
    exact ⟨htask ▸ hawaits.task, hstop ▸ hawaits.calm, h.waitsFor.1 hawaits.waits⟩
  · intro hawaits
    exact ⟨htask ▸ hawaits.task, hstop ▸ hawaits.calm, h.waitsFor.2 hawaits.waits⟩

/-- A shutdown request ends every wait. -/
theorem Together.wait_of_request (hstop : a.stopRequested = true) (until? : Option Nat) :
    Together (a.wait until?) (b.wait until?) := by
  rw [Session.wait, Session.wait, if_pos hstop, if_pos (h.stopRequested.trans hstop)]
  exact h.conclude _

/-- Both wait for bytes alike if it is a message for the server that ends the wait. -/
theorem Together.waitForBytes {until? : Option Nat}
    (hends : a.stopRequested = false → ¬ (a.state.isActive = true → a.uplink.queue = [])) :
    Together (a.waitForBytes until?) (b.waitForBytes until?) := by
  have hstop := h.stopRequested
  cases hs : a.stopRequested with
  | true =>
    rw [Session.waitForBytes, Session.waitForBytes, if_pos hs, if_pos (hstop.trans hs)]
    exact h.conclude _
  | false =>
    obtain ⟨hactive, message, uplink, htake⟩ := exists_take (hends hs)
    have htaken : Together { a with uplink } { b with uplink } :=
      { h with same := congrArg (fun s : Session => { s with uplink }) h.same }
    rw [waitForBytes_of_message hs hactive htake,
      waitForBytes_of_message (hstop.trans hs) (h.state ▸ hactive) (h.uplink ▸ htake)]
    exact htaken.settle.attempt _

/-- Both go on alike with an operation that does not wait. -/
theorem Together.stepOperation {operation : Operation} (htask : a.task = .attempting operation)
    (hbusy : ∀ until?, ¬ Awaits a operation until?)
    (hfair : (a.stepOperation operation).HandlesSuffice) :
    Together (a.stepOperation operation) (b.stepOperation operation) := by
  -- If the script has to wait, a shutdown request must have been made.
  have hwait : ∀ until?, a.WaitsFor until? operation →
      Together (a.wait until?) (b.wait until?) := by
    intro until? hwaits
    cases hstop : a.stopRequested with
    | true => exact h.wait_of_request hstop until?
    | false => exact absurd ⟨htask, hstop, hwaits⟩ (hbusy until?)
  cases operation with
  | resolve =>
    show Together _ (b.follow b.lookup (.ok []) Session.putLookup Session.resolved Session.wait)
    rw [h.lookup]
    exact h.follow a.lookup (.ok []) Session.putLookup h.putLookup
      (fun result hput _ => hput.resolved result) hwait hfair
  | connect candidate endpoint others =>
    show Together _ (b.follow (b.attempts.headD []) (.error { kind := .connectionRefused })
      Session.putAttempt (fun s result => s.connected candidate others result) Session.wait)
    rw [h.attempting]
    exact h.follow (a.attempts.headD []) (.error { kind := .connectionRefused })
      Session.putAttempt h.putAttempt
      (fun result hput _ => hput.connected candidate others result) hwait hfair
  | write purpose bytes =>
    cases bytes with
    | nil => exact h.setTask _
    | cons byte bytes =>
      show Together _ (b.follow b.writes (.ok (byte :: bytes).length) Session.putWrites
        (fun s result => s.written purpose (byte :: bytes) result) Session.wait)
      rw [h.writes]
      exact h.follow a.writes (.ok (byte :: bytes).length) Session.putWrites
        (fun rest => h.mapPeer fun _ => rfl)
        (fun result hput _ => hput.written purpose _ result)
        (fun until? hwaits => hwait until? ⟨List.cons_ne_nil byte bytes, hwaits⟩) hfair
  | flush purpose =>
    show Together _ (b.follow b.flushes (.ok ()) Session.putFlushes
      (fun s result => s.flushed purpose result) Session.wait)
    rw [h.flushes]
    exact h.follow a.flushes (.ok ()) Session.putFlushes (fun rest => h.mapPeer fun _ => rfl)
      (fun result hput _ => hput.flushed purpose result) hwait hfair
  | read =>
    have hread : b.stepOperation .read = if a.arrived.isEmpty then
        b.follow (a.reads.restrict Action.keepsHandles id) (.ok []) Session.putReads
          Session.readable Session.waitForBytes else b.receive := by
      rw [← h.arrived, ← h.reads]
      rfl
    rw [hread]
    change (if a.arrived.isEmpty then _ else _ : Session).HandlesSuffice at hfair
    show Together (if a.arrived.isEmpty then _ else _) _
    by_cases hempty : a.arrived.isEmpty = true
    · rw [if_pos hempty] at hfair ⊢
      rw [if_pos hempty]
      refine h.follow a.reads (.ok []) Session.putReads (fun rest => h.mapPeer fun _ => rfl)
        (fun result hput _ => hput.readable result) ?_ hfair
      intro until? hwaits
      refine h.waitForBytes fun hstop hquiet => ?_
      exact hbusy until? ⟨htask, hstop, List.isEmpty_iff.1 hempty, hwaits, hquiet⟩
    · rw [if_neg hempty, if_neg hempty]
      exact h.receive

/-- The session waits with closing its stream. -/
def LingersFor (s : Session) (until? : Option Nat) : Prop :=
  (∃ outcome, s.task = .closing outcome) ∧ s.closes.Waits s.now until?

/-- Both wait for the stream to be closed, or neither does. -/
theorem Together.lingers {until? : Option Nat} : b.LingersFor until? ↔ a.LingersFor until? := by
  unfold LingersFor
  rw [h.task, h.closes, h.now]
  exact and_congr_right fun _ => Script.waits_restrict _

/-- Both make the same move unless they wait. -/
theorem Together.step (hbusy : ∀ operation until?, ¬ Awaits a operation until?)
    (hleaves : ∀ until?, ¬ a.LingersFor until?) (hfair : a.step.HandlesSuffice) :
    Together a.step b.step := by
  have htask' := h.task
  unfold Session.step at hfair ⊢
  rw [htask']
  cases htask : a.task with
  | attempting operation =>
    rw [htask] at hfair
    exact h.stepOperation htask (hbusy operation) hfair
  | decoding =>
    rw [htask] at hfair
    exact h.stepDecoder hfair
  | concluding ending =>
    rw [htask] at hfair
    exact h.stepConclusion ending hfair
  | closing outcome =>
    rw [htask] at hfair
    show Together _ (b.follow b.closes (.ok ()) Session.putCloses
      (fun s result => ({ s with peer := none }.record (.closed result)).finish outcome)
      Session.sleep)
    rw [h.closes]
    refine h.follow a.closes (.ok ()) Session.putCloses (fun rest => h.mapPeer fun _ => rfl)
      ?_ (fun until? hwaits => absurd ⟨⟨outcome, htask⟩, hwaits⟩ (hleaves until?)) hfair
    -- The two sides agree in their peers, so taking these away keeps them together.
    intro c d result hput hfair
    have hgone : Together { c with peer := none } { d with peer := none } :=
      { hput with same := congrArg (fun s : Session => { s with peer := none }) hput.same }
    exact (hgone.record (.closed result) rfl).finish outcome hfair
  | ended outcome => exact h
  | stuck => exact h

end

end Session

end NtripClient
