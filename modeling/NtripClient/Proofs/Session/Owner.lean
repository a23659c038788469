import NtripClient.Proofs.Session.Selective

/-!
# `NtripClient.Proofs.Session.Owner`: the owner does what the plan says

If all actions of a plan are allowed, then so are all actions that a session records, at every
moment (`abides_runFor`). The invariant is `Abides`: taking the actions that are not allowed out
of what is left of the plan changes nothing. It is kept part by part: most parts of a move do not
look at the plan, and the others take actions out of it.
-/

set_option autoImplicit false

namespace NtripClient

namespace Session

variable {s : Session} {allows : Action → Bool}

/-- What is left of the plan, and what was done of it, consists of allowed actions. -/
structure Abides (allows : Action → Bool) (s : Session) : Prop where
  plan : s.restrict allows = s
  log : ∀ entry ∈ s.history, ∀ action reply, entry.event = .acted action reply →
    allows action = true

/-- An action does not look at the plan. -/
theorem restrict_act (s : Session) (action : Action) :
    (s.act action).restrict allows = (s.restrict allows).act action := by
  have hheld : (s.restrict allows).held = s.held := rfl
  have huplink : (s.restrict allows).uplink = s.uplink := rfl
  cases action with
  | send message =>
    simp only [act, respond, hheld, huplink]
    cases s.held.sender with
    | false => rfl
    | true => cases s.uplink.send message <;> rfl
  | shutdown =>
    simp only [act, respond, hheld]
    cases s.held.stopper <;> rfl
  | _ => rfl

namespace Abides

section
variable (h : s.Abides allows)
include h

/-- The lookup brings no action that is not allowed. -/
theorem lookup : s.lookup.restrict allows id = s.lookup :=
  (congrArg Session.lookup h.plan :)

/-- Neither do the attempts to connect. -/
theorem attempts : s.attempts.map (restrictAttempt allows) = s.attempts :=
  (congrArg Session.attempts h.plan :)

/-- Neither does the stream. -/
theorem peer : s.peer.map (Peer.restrict allows) = s.peer :=
  (congrArg Session.peer h.plan :)

/-- What the owner is still going to do is allowed. -/
theorem schedule : restrictTimed allows s.schedule = s.schedule :=
  (congrArg Session.schedule h.plan :)

/-- The owner reacts with allowed actions only. -/
theorem reactions : s.reactions.restrict allows = s.reactions :=
  (congrArg Session.reactions h.plan :)

/-- After the end the owner does what is allowed. -/
theorem after : s.after.filter allows = s.after :=
  (congrArg Session.after h.plan :)

/-! ### The parts of a move -/

/-- An event that is no action is recorded, whatever is allowed. -/
theorem record (event : Event) (hown : event.isAction = false) :
    (s.record event).Abides allows := by
  refine ⟨congrArg (fun t : Session => t.record event) h.plan, ?_⟩
  intro entry hmem action reply hacted
  rcases List.mem_cons.1 hmem with rfl | hmem
  · rw [show event = .acted action reply from hacted] at hown
    cases hown
  · exact h.log entry hmem action reply hacted

/-- Entering a state does not look at the plan. -/
theorem enter (state : State) : (s.enter state).Abides allows := by
  have hmoved : Abides allows { s with state := s.state.moveTo state } :=
    { h with plan := congrArg (fun t : Session =>
        { t with state := t.state.moveTo state }) h.plan }
  exact hmoved.record _ rfl

/-- A change of task does not look at the plan. -/
theorem setTask (task : Task) : Abides allows { s with task } :=
  { h with plan := congrArg (fun t : Session => { t with task }) h.plan }

/-- Neither does a change of what the owner can see. -/
theorem setStatus (shows : Bool) :
    Abides allows { s with held := { s.held with status := shows } } :=
  { h with plan := congrArg (fun t : Session =>
      { t with held := { t.held with status := shows } }) h.plan }

/-- Winding up does not look at the plan. -/
theorem conclude (ending : Ending) : (s.conclude ending).Abides allows :=
  h.setTask _

/-- Neither does winding up after a failure. -/
theorem fail (error : Error) : (s.fail error).Abides allows :=
  h.setTask _

/-- Progress does not look at the plan. -/
theorem settle : s.settle.Abides allows := by
  have hset : Abides allows { s with watchdog := s.watchdog.reset s.now } :=
    { h with plan := congrArg (fun t : Session =>
        { t with watchdog := t.watchdog.reset t.now }) h.plan }
  exact hset.record _ rfl

/-- An operation begins without a look at the plan. -/
theorem attempt (operation : Operation) : (s.attempt operation).Abides allows := by
  unfold Session.attempt
  split
  · exact h.conclude _
  · exact (h.setTask _).record _ rfl

/-- So is a shutdown request noticed. -/
theorem heed : s.heed.Abides allows := by
  unfold Session.heed
  split
  · exact h.conclude _
  · exact h

/-- An allowed action keeps the session as it should be. -/
theorem act {action : Action} (hallows : allows action = true) : (s.act action).Abides allows := by
  refine ⟨(restrict_act s action).trans (congrArg (fun t : Session => t.act action) h.plan), ?_⟩
  rw [history_act]
  intro entry hmem other reply hacted
  rcases List.mem_cons.1 hmem with rfl | hmem
  · cases hacted
    exact hallows
  · exact h.log entry hmem other reply hacted

/-- A list of actions of which nothing is taken out is done. -/
theorem actAll {actions : List Action} (hallows : actions.filter allows = actions) :
    (s.actAll actions).Abides allows := by
  have hall := List.filter_eq_self.1 hallows
  clear hallows
  induction actions generalizing s with
  | nil => exact h
  | cons action rest ih =>
    exact ih (h.act (hall action (List.mem_cons_self ..)))
      fun other hmem => hall other (List.mem_cons_of_mem _ hmem)

/-- The reactions that are left may be any that are allowed. -/
theorem setReactions {reactions : Reactions} (hrest : reactions.restrict allows = reactions) :
    Abides allows { s with reactions } := by
  refine { h with plan := ?_ }
  show { s.restrict allows with reactions := reactions.restrict allows } = { s with reactions }
  rw [h.plan, hrest]

/-- The lookup may go on with any script that is allowed. -/
theorem setLookup {lookup : Script (Except IoError Candidates)}
    (hrest : lookup.restrict allows id = lookup) : Abides allows { s with lookup } := by
  refine { h with plan := ?_ }
  show { s.restrict allows with lookup := lookup.restrict allows id } = { s with lookup }
  rw [h.plan, hrest]

/-- So may the attempts to connect. -/
theorem setAttempts {attempts : List (Script (Except IoError Peer))}
    (hrest : attempts.map (restrictAttempt allows) = attempts) :
    Abides allows { s with attempts } := by
  refine { h with plan := ?_ }
  show { s.restrict allows with attempts := attempts.map (restrictAttempt allows) }
    = { s with attempts }
  rw [h.plan, hrest]

/-- So may the stream. -/
theorem setPeer {peer : Option Peer} (hrest : peer.map (Peer.restrict allows) = peer) :
    Abides allows { s with peer } := by
  refine { h with plan := ?_ }
  show { s.restrict allows with peer := peer.map (Peer.restrict allows) } = { s with peer }
  rw [h.plan, hrest]

/-- The owner is called, and reacts with what is allowed. -/
theorem notify (notice : Notice) : (s.notify notice).Abides allows := by
  have htake := Reactions.take_restrict allows s.reactions notice
  rw [h.reactions] at htake
  have hactions : (s.reactions.take notice).1.filter allows = (s.reactions.take notice).1 :=
    (congrArg Prod.fst htake).symm
  have hrest : (s.reactions.take notice).2.restrict allows = (s.reactions.take notice).2 :=
    (congrArg Prod.snd htake).symm
  exact ((h.setReactions hrest).record (.notified notice) rfl).actAll hactions

/-- So it is with the last call. -/
theorem notifyEnd (outcome : Outcome) : (s.notifyEnd outcome).Abides allows := by
  cases outcome with
  | shutdown => exact h
  | eof => exact h.notify .eof
  | failed error => exact h.notify (.error error)

/-- At the end the owner acts once more, as is allowed. -/
theorem finish (outcome : Outcome) : (s.finish outcome).Abides allows := by
  have hover : Abides allows { s with after := [], task := .ended outcome } :=
    { h with plan := congrArg (fun t : Session =>
        { t with after := [], task := .ended outcome }) h.plan }
  exact (hover.record .ended rfl).actAll h.after

/-- What is due at an instant is allowed, and so is what is left. -/
theorem actAt (instant : Nat) : (s.actAt instant).Abides allows := by
  have hall : ∀ entry ∈ s.schedule, allows entry.2 = true := List.filter_eq_self.1 h.schedule
  have hleft : restrictTimed allows (s.schedule.dropWhile (·.1 ≤ instant))
      = s.schedule.dropWhile (·.1 ≤ instant) :=
    List.filter_eq_self.2 fun entry hmem =>
      hall entry ((List.dropWhile_sublist _).subset hmem)
  have hwoken : Abides allows
      { s with schedule := s.schedule.dropWhile (·.1 ≤ instant), now := instant } := by
    refine { h with plan := ?_ }
    show { s.restrict allows with
        schedule := restrictTimed allows (s.schedule.dropWhile (·.1 ≤ instant))
        now := instant }
      = { s with schedule := s.schedule.dropWhile (·.1 ≤ instant), now := instant }
    rw [h.plan, hleft]
  refine hwoken.actAll (List.filter_eq_self.2 ?_)
  intro action hmem
  obtain ⟨entry, hdue, rfl⟩ := List.mem_map.1 hmem
  exact hall entry ((List.takeWhile_sublist _).subset hdue)

/-- The owner acts during the sleep as is allowed. -/
theorem sleep (wake? : Option Nat) : (s.sleep wake?).Abides allows := by
  have hlater : ∀ now, Abides allows { s with now } := fun now =>
    { h with plan := congrArg (fun t : Session => { t with now }) h.plan }
  unfold Session.sleep
  split
  · exact h.setTask _
  · exact hlater _
  · exact h.actAt _
  · split
    · exact h.actAt _
    · exact hlater _

/-- Waiting without an end in sight is sleeping, or the idle limit ends it. -/
theorem idle (until? : Option Nat) : (s.idle until?).Abides allows := by
  unfold Session.idle
  cases s.watchdog.poll s.now with
  | mk expired watchdog =>
    have hset : Abides allows { s with watchdog } :=
      { h with plan := congrArg (fun t : Session => { t with watchdog }) h.plan }
    cases expired with
    | true => exact h.fail _
    | false => exact (hset.sleep _).heed

/-- An operation waits. -/
theorem wait (until? : Option Nat) : (s.wait until?).Abides allows := by
  unfold Session.wait
  split
  · exact h.conclude _
  · exact h.idle _

/-- The session waits for bytes, or takes a message instead. -/
theorem waitForBytes (until? : Option Nat) : (s.waitForBytes until?).Abides allows := by
  unfold Session.waitForBytes
  split
  · exact h.conclude _
  · split
    · rename_i message uplink _
      have htaken : Abides allows { s with uplink } :=
        { h with plan := congrArg (fun t : Session => { t with uplink }) h.plan }
      exact htaken.settle.attempt _
    · exact h.idle _

/-! ### Results -/

/-- The next candidate is tried, or there is none. -/
theorem connectNext (candidate : Nat) (last : IoError) (candidates : Candidates) :
    (s.connectNext candidate last candidates).Abides allows := by
  cases candidates with
  | nil => exact h.fail _
  | cons endpoint others => exact (h.enter _).attempt _

/-- The result of the lookup is used. -/
theorem resolved (result : Except IoError Candidates) : (s.resolved result).Abides allows := by
  unfold Session.resolved
  split
  · exact h.settle.fail _
  · exact h.settle.fail _
  · exact h.settle.connectNext _ _ _

/-- The result of an attempt is used. Its stream brings allowed actions only. -/
theorem connected (candidate : Nat) (others : Candidates) {result : Except IoError Peer}
    (hresult : Except.map (Peer.restrict allows) result = result) :
    (s.connected candidate others result).Abides allows := by
  have htail : Abides allows { s with attempts := s.attempts.tail } := by
    refine h.setAttempts ?_
    rw [List.map_tail, h.attempts]
  cases result with
  | error cause => exact htail.settle.connectNext _ _ _
  | ok peer =>
    have hpeer : (some peer).map (Peer.restrict allows) = some peer :=
      congrArg some (Except.ok.inj hresult)
    exact ((htail.settle.setPeer hpeer).enter _).attempt _

/-- The result of a write is used. -/
theorem written (purpose : Purpose) (bytes : Bytes) (result : Except IoError Nat) :
    (s.written purpose bytes result).Abides allows := by
  cases result with
  | error cause =>
    simp only [Session.written]
    split
    · exact h
    · exact h.settle.fail _
  | ok limit =>
    have hwrote := h.record (.wrote (bytes.take limit)) rfl
    simp only [Session.written]
    split
    · exact hwrote.settle.fail _
    · exact hwrote.setTask _

/-- The result of a flush is used. -/
theorem flushed (purpose : Purpose) (result : Except IoError Unit) :
    (s.flushed purpose result).Abides allows := by
  cases result with
  | error cause => exact h.settle.fail _
  | ok u =>
    have hdone := (h.record .flushed rfl).settle
    cases purpose with
    | request => exact (hdone.enter .readingStatus).setTask _
    | uplink => exact hdone.attempt _

/-- What the stream says is used. -/
theorem readable (result : Except IoError Bytes) : (s.readable result).Abides allows := by
  cases result with
  | error cause => exact h.settle.fail _
  | ok bytes =>
    simp only [Session.readable]
    split
    · exact h.settle.conclude _
    · exact { h with plan := congrArg (fun t : Session => { t with arrived := bytes }) h.plan }

/-- Bytes that have arrived are read. -/
theorem receive : s.receive.Abides allows := by
  let rest := s.arrived.drop s.connection.config.readLimit
  let bytes := s.arrived.take s.connection.config.readLimit
  have hdrop : Abides allows { s with arrived := rest } :=
    { h with plan := congrArg (fun t : Session => { t with arrived := rest }) h.plan }
  have hread := hdrop.settle.record (.received bytes) rfl
  exact { hread with plan := congrArg (fun t : Session =>
    { t with decoder := s.decoder.push bytes, task := .decoding }) hread.plan }

/-- What was read is reported, and the owner reacts as is allowed. -/
theorem stepDecoder : s.stepDecoder.Abides allows := by
  unfold Session.stepDecoder
  cases s.decoder.advance s.limits with
  | mk signal decoder =>
    have hset : Abides allows { s with decoder } :=
      { h with plan := congrArg (fun t : Session => { t with decoder }) h.plan }
    cases signal with
    | more => exact hset.attempt _
    | proceed => exact hset
    | accepted status =>
      simp only
      split
      · exact hset.enter _
      · exact hset.enter _
    | headers map =>
      simp only
      split
      · exact hset.conclude _
      · exact (hset.notify _).enter _
    | data bytes =>
      simp only
      split
      · exact hset.conclude _
      · exact hset.notify _
    | finished => exact hset.conclude _
    | failed error => exact hset.fail _

/-- The session winds up, and the owner reacts to the last call as is allowed. -/
theorem stepConclusion (ending : Ending) : (s.stepConclusion ending).Abides allows := by
  unfold Session.stepConclusion
  generalize outcomeOf s.stopRequested s.state ending = outcome
  have hend := h.notifyEnd outcome
  have hshut : Abides allows
      { s.notifyEnd outcome with uplink := (s.notifyEnd outcome).uplink.close } :=
    { hend with plan := congrArg (fun t : Session =>
        { t with uplink := t.uplink.close }) hend.plan }
  have hclosed := hshut.enter .closed
  simp only
  split
  · exact (hclosed.setTask (.closing outcome)).record .closing rfl
  · exact hclosed.finish outcome

end

/-! ### Moves -/

/-- A script of which nothing is taken out is followed. -/
theorem follow {α : Type} {change : α → α} {script : Script α} {final : α}
    {store : Session → Script α → Session} {finish : Session → α → Session}
    {wait : Session → Option Nat → Session}
    (hscript : script.restrict allows change = script) (hfinal : change final = final)
    (hstore : ∀ rest, Script.restrict allows change rest = rest → (store s rest).Abides allows)
    (hfinish : ∀ (t : Session) value, t.Abides allows → change value = value →
      (finish t value).Abides allows)
    (hwait : ∀ until?, (wait s until?).Abides allows) :
    (s.follow script final store finish wait).Abides allows := by
  -- What the script says says the same with the allowed actions only.
  have hturn := script.turn_restrict allows change final s.now
  rw [hscript, hfinal] at hturn
  unfold Session.follow
  cases hcue : script.turn final s.now with
  | result value rest =>
    rw [hcue] at hturn
    obtain ⟨hvalue, hrest⟩ := Turn.result.inj hturn
    exact hfinish _ value (hstore rest hrest.symm) hvalue.symm
  | act actions rest =>
    rw [hcue] at hturn
    obtain ⟨hactions, hrest⟩ := Turn.act.inj hturn
    exact (hstore rest hrest.symm).actAll hactions.symm
  | proceed next =>
    rw [hcue] at hturn
    exact hstore next (Turn.proceed.inj hturn).symm
  | wait until? => exact hwait until?

section
variable (h : s.Abides allows)
include h

/-- A stream stays as it is, but for a script of which nothing is taken out. -/
theorem mapPeer {change : Peer → Peer}
    (hchange : ∀ peer, peer.restrict allows = peer →
      (change peer).restrict allows = change peer) :
    Abides allows { s with peer := s.peer.map change } := by
  refine h.setPeer ?_
  have hpeer := h.peer
  cases hsome : s.peer with
  | none => rfl
  | some peer =>
    rw [hsome] at hpeer
    exact congrArg some (hchange peer (Option.some.inj hpeer))

/-- The attempt being made may go on with any script that is allowed. -/
theorem putAttempt {script : Script (Except IoError Peer)}
    (hrest : restrictAttempt allows script = script) : (s.putAttempt script).Abides allows := by
  refine h.setAttempts ?_
  show restrictAttempt allows script :: s.attempts.tail.map (restrictAttempt allows)
    = script :: s.attempts.tail
  rw [hrest, List.map_tail, h.attempts]

/-- The reads bring no action that is not allowed. -/
theorem reads : s.reads.restrict allows id = s.reads := by
  unfold Session.reads
  cases hpeer : s.peer with
  | none => rfl
  | some peer =>
    have hkept := h.peer
    rw [hpeer] at hkept
    exact congrArg Peer.reads (Option.some.inj hkept)

/-- Neither do the writes. -/
theorem writes : s.writes.restrict allows id = s.writes := by
  unfold Session.writes
  cases hpeer : s.peer with
  | none => rfl
  | some peer =>
    have hkept := h.peer
    rw [hpeer] at hkept
    exact congrArg Peer.writes (Option.some.inj hkept)

/-- Neither do the flushes. -/
theorem flushes : s.flushes.restrict allows id = s.flushes := by
  unfold Session.flushes
  cases hpeer : s.peer with
  | none => rfl
  | some peer =>
    have hkept := h.peer
    rw [hpeer] at hkept
    exact congrArg Peer.flushes (Option.some.inj hkept)

/-- Neither does closing. -/
theorem closes : s.closes.restrict allows id = s.closes := by
  unfold Session.closes
  cases hpeer : s.peer with
  | none => rfl
  | some peer =>
    have hkept := h.peer
    rw [hpeer] at hkept
    exact congrArg Peer.closes (Option.some.inj hkept)

/-- The reads may go on with any script that is allowed. -/
theorem putReads {rest : Script (Except IoError Bytes)} (hrest : rest.restrict allows id = rest) :
    (s.putReads rest).Abides allows := by
  refine h.mapPeer fun peer hpeer => ?_
  show { peer.restrict allows with reads := rest.restrict allows id } = { peer with reads := rest }
  rw [hpeer, hrest]

/-- So may the writes. -/
theorem putWrites {rest : Script (Except IoError Nat)} (hrest : rest.restrict allows id = rest) :
    (s.putWrites rest).Abides allows := by
  refine h.mapPeer fun peer hpeer => ?_
  show { peer.restrict allows with writes := rest.restrict allows id }
    = { peer with writes := rest }
  rw [hpeer, hrest]

/-- So may the flushes. -/
theorem putFlushes {rest : Script (Except IoError Unit)} (hrest : rest.restrict allows id = rest) :
    (s.putFlushes rest).Abides allows := by
  refine h.mapPeer fun peer hpeer => ?_
  show { peer.restrict allows with flushes := rest.restrict allows id }
    = { peer with flushes := rest }
  rw [hpeer, hrest]

/-- So may closing. -/
theorem putCloses {rest : Script (Except IoError Unit)} (hrest : rest.restrict allows id = rest) :
    (s.putCloses rest).Abides allows := by
  refine h.mapPeer fun peer hpeer => ?_
  show { peer.restrict allows with closes := rest.restrict allows id }
    = { peer with closes := rest }
  rw [hpeer, hrest]

/-- Every operation goes on in this way. -/
theorem stepOperation (operation : Operation) : (s.stepOperation operation).Abides allows := by
  cases operation with
  | resolve =>
    exact follow h.lookup rfl (fun _ => h.setLookup)
      (fun _ result ht _ => ht.resolved result) h.wait
  | connect candidate endpoint others =>
    have hscript : restrictAttempt allows (s.attempts.headD []) = s.attempts.headD [] := by
      have hattempts := h.attempts
      cases hs : s.attempts with
      | nil => rfl
      | cons script rest =>
        rw [hs] at hattempts
        exact (List.cons.inj hattempts).1
    exact follow hscript rfl (fun _ => h.putAttempt)
      (fun _ _ ht => ht.connected candidate others) h.wait
  | write purpose bytes =>
    cases bytes with
    | nil => exact h.setTask _
    | cons byte bytes =>
      exact follow h.writes rfl (fun _ => h.putWrites)
        (fun _ result ht _ => ht.written purpose (byte :: bytes) result) h.wait
  | flush purpose =>
    exact follow h.flushes rfl (fun _ => h.putFlushes)
      (fun _ result ht _ => ht.flushed purpose result) h.wait
  | read =>
    show (if s.arrived.isEmpty then _ else _ : Session).Abides allows
    split
    · exact follow h.reads rfl (fun _ => h.putReads) (fun _ result ht _ => ht.readable result)
        h.waitForBytes
    · exact h.receive

/-- So does closing the stream. -/
theorem stepClosing (outcome : Outcome) : (s.stepClosing outcome).Abides allows := by
  refine follow h.closes rfl (fun _ => h.putCloses) ?_ h.sleep
  intro t result ht _
  have hgone : Option.map (Peer.restrict allows) none = none := rfl
  exact ((ht.setPeer hgone).record (.closed result) rfl).finish outcome

/-- Every move keeps to what is allowed. -/
theorem step : s.step.Abides allows := by
  unfold Session.step
  split
  · exact h.stepOperation _
  · exact h.stepDecoder
  · exact h.stepConclusion _
  · exact h.stepClosing _
  · exact h
  · exact h

end

end Abides

/-- A session that has not started yet has the whole plan ahead of it. -/
theorem abides_blank (connection : Connection) {plan : Plan}
    (hplan : plan.restrict allows = plan) : (blank connection plan).Abides allows := by
  refine ⟨?_, fun entry hmem => by cases hmem⟩
  have hschedule : restrictTimed allows plan.schedule = plan.schedule := by
    rw [← plan.schedule_restrict, hplan]
  show { blank connection (plan.restrict allows) with
    schedule := restrictTimed allows plan.schedule } = blank connection plan
  rw [hplan, hschedule]
  rfl

/-- At its start, the owner has acted as is allowed. -/
theorem abides_start (connection : Connection) {plan : Plan}
    (hplan : plan.restrict allows = plan) : (start connection plan).Abides allows := by
  have hactions : plan.before.filter allows = plan.before := (congrArg Plan.before hplan :)
  have hbefore := (abides_blank connection hplan).actAll hactions
  rw [start_eq]
  exact (((hbefore.setStatus _).record .started rfl).enter .resolving).attempt .resolve

/-- If all actions of a plan are allowed, a session never records another one. -/
theorem abides_runFor (connection : Connection) {plan : Plan}
    (hplan : plan.restrict allows = plan) (moves : Nat) :
    ((start connection plan).runFor moves).Abides allows :=
  keeps_runFor (fun _ h => h.step) moves (abides_start connection hplan)

end Session

end NtripClient
