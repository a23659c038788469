import NtripClient.Proofs.Session.Teardown

/-!
# `NtripClient.Proofs.Session.Shutdown`: a shutdown request outweighs everything

`shutdown_dominates` is the main statement. A request that is made before the owner is
called for the last time decides the session: no call of the owner and no guarded operation
begins after it, and the session comes to `Outcome.shutdown`. Only the stream can keep it
from coming to anything, by never closing. A request that is made later decides nothing:
what the owner does from its last call on changes neither the calls nor the outcome.

The first half is an invariant of the history. `isStopped` says that a request was made
in time, and `Heeds` that nothing has begun after one. A session keeps `Heeds` because it
looks at the request at three places only, and each of them comes right before something
that could begin: `attempt`, the calls with headers and data, and `outcomeOf`.
-/

set_option autoImplicit false

namespace NtripClient

namespace Event

/-- The owner is called for the last time. -/
def isLastCall : Event → Bool
  | .notified notice => notice.isTerminal
  | _ => false

/-- A call of the owner or a guarded operation begins. -/
def begins : Event → Bool
  | .notified _ => true
  | .began _ => true
  | _ => false

end Event

/-! ### Requests in a history, newest entry first -/

/-- A shutdown was requested before the owner was called for the last time. -/
def isStopped : List Entry → Bool
  | [] => false
  | entry :: earlier =>
    isStopped earlier || (entry.event.isRequest && !earlier.any (·.event.isLastCall))

/-- Nothing has begun after a request that was made in time. -/
def Heeds : List Entry → Prop
  | [] => True
  | entry :: earlier => Heeds earlier ∧ (entry.event.begins = true → isStopped earlier = false)

/-- A request that was made in time stays so, whatever happens later. -/
theorem isStopped_append {earlier : List Entry} (h : isStopped earlier = true)
    (later : List Entry) : isStopped (later ++ earlier) = true := by
  induction later with
  | nil => exact h
  | cons entry later ih => simp [isStopped, ih]

/-- Without any request there is none in time. -/
theorem isStopped_eq_false {history : List Entry}
    (h : history.any (·.event.isRequest) = false) : isStopped history = false := by
  induction history with
  | nil => rfl
  | cons entry earlier ih =>
    simp only [List.any_cons, Bool.or_eq_false_iff] at h
    simp [isStopped, ih h.2, h.1]

/-- After a request in time nothing begins. -/
theorem begins_eq_false_of_heeds {later earlier : List Entry} (h : Heeds (later ++ earlier))
    (hstop : isStopped earlier = true) : ∀ entry ∈ later, entry.event.begins = false := by
  induction later with
  | nil => simp
  | cons entry later ih =>
    obtain ⟨hlater, hentry⟩ := h
    intro other hmem
    rcases List.mem_cons.1 hmem with rfl | hmem
    · -- The request lies before all that is later, so it would have been heeded.
      cases hb : other.event.begins with
      | false => rfl
      | true => exact absurd (hentry hb) (by simp [isStopped_append hstop later])
    · exact ih hlater other hmem

namespace Session

/-! ### The invariant -/

/-- Nothing has begun after a request in time, and a request is remembered. -/
structure Obedient (s : Session) : Prop where
  heeds : Heeds s.history
  requested : s.stopRequested = s.history.any (·.event.isRequest)

/-- The session has been stopped and comes to a shutdown, or it has called the owner for
the last time without having been stopped. -/
def Decided (s : Session) (outcome : Outcome) : Prop :=
  (outcome = .shutdown ∧ s.stopRequested = true) ∨
    (outcome ≠ .shutdown ∧ isStopped s.history = false ∧
      s.history.any (·.event.isLastCall) = true)

/-- What the task of a session says about shutdown requests. -/
def Attentive (s : Session) : Prop :=
  match s.task with
  | .attempting _ => True
  | .decoding => True
  | .concluding ending => ending = .cancelled → s.stopRequested = true
  | .closing outcome => s.Decided outcome ∧ s.state = .closed
  | .ended outcome => s.Decided outcome
  | .stuck => s.stopRequested = false ∨ s.ClosesForever

/-- The invariant: the history heeds requests, and so does the task. -/
structure Obeys (s : Session) : Prop extends Obedient s where
  task : s.Attentive

variable {s t : Session}

/-- While no shutdown was requested, none was requested in time. -/
theorem isStopped_of_calm (h : s.Obedient) (hcalm : s.stopRequested = false) :
    isStopped s.history = false :=
  isStopped_eq_false (h.requested ▸ hcalm)

/-! ### What the parts of a move keep -/

/-- Recording something that neither begins nor requests anything. -/
theorem obedient_record (h : s.Obedient) {event : Event} (hb : event.begins = false)
    (hr : event.isRequest = false) : (s.record event).Obedient where
  heeds := ⟨h.heeds, fun hbegins => by rw [hb] at hbegins; cases hbegins⟩
  requested := by
    show s.stopRequested = (event.isRequest || s.history.any (·.event.isRequest))
    rw [hr, h.requested, Bool.false_or]

/-- Something may begin while no shutdown was requested. -/
theorem obedient_record_of_calm (h : s.Obedient) (hcalm : s.stopRequested = false)
    {event : Event} (hr : event.isRequest = false) : (s.record event).Obedient where
  heeds := ⟨h.heeds, fun _ => isStopped_of_calm h hcalm⟩
  requested := by
    show s.stopRequested = (event.isRequest || s.history.any (·.event.isRequest))
    rw [hr, h.requested, Bool.false_or]

/-- The owner may act, and a request is remembered. -/
theorem obedient_act (action : Action) (h : s.Obedient) : (s.act action).Obedient := by
  obtain ⟨held, reply, heq⟩ := act_eq s action
  rw [heq]
  exact ⟨⟨h.heeds, fun hbegins => by cases hbegins⟩, by simp [h.requested, Bool.or_comm]⟩

/-- Time may pass, and the owner may act. -/
theorem obedient_lull (hlull : Lull s t) (h : s.Obedient) : t.Obedient := by
  refine hlull.keeps (fun _ action h => obedient_act action h) ?_ h
  intro s t same h
  exact ⟨same.history ▸ h.heeds, by rw [same.stopRequested, same.history, h.requested]⟩

/-- An outcome stays decided: a request after the last call comes too late. -/
theorem decided_lull {outcome : Outcome} (hlull : Lull s t) (h : s.Decided outcome) :
    t.Decided outcome := by
  refine hlull.keeps (P := fun t => t.Decided outcome) ?_ ?_ h
  · intro s action h
    obtain ⟨held, reply, heq⟩ := act_eq s action
    rw [heq]
    rcases h with ⟨ho, hstop⟩ | ⟨ho, hstop, htold⟩
    · exact .inl ⟨ho, by simp [hstop]⟩
    · exact .inr ⟨ho, by simp [isStopped, hstop, htold], by simp [htold]⟩
  · intro s t same h
    unfold Decided at h ⊢
    rwa [same.stopRequested, same.history]

/-- The work may stop, but it is cut short only by a request. -/
theorem obeys_conclude (h : s.Obedient) {ending : Ending}
    (hstop : ending = .cancelled → s.stopRequested = true) : (s.conclude ending).Obeys :=
  ⟨⟨h.heeds, h.requested⟩, hstop⟩

/-- The work may fail at any time. -/
theorem obeys_fail (h : s.Obedient) (error : Error) : (s.fail error).Obeys :=
  obeys_conclude h fun hcancelled => by cases hcancelled

/-- Whatever is at work obeys if its history does. -/
theorem obeys_of_attempting (h : s.Obedient) {operation : Operation}
    (htask : s.task = .attempting operation) : s.Obeys :=
  ⟨h, by simp [Attentive, htask]⟩

/-- Whatever is decoded obeys if its history does. -/
theorem obeys_of_decoding (h : s.Obedient) (htask : s.task = .decoding) : s.Obeys :=
  ⟨h, by simp [Attentive, htask]⟩

/-- An operation begins only while no shutdown was requested. -/
theorem obeys_attempt (h : s.Obedient) (operation : Operation) :
    (s.attempt operation).Obeys := by
  unfold attempt
  split
  · exact obeys_conclude h fun _ => ‹_›
  · rename_i hcalm
    have hs : ({ s with task := .attempting operation } : Session).Obedient :=
      ⟨h.heeds, h.requested⟩
    exact obeys_of_attempting (obedient_record_of_calm hs (by simpa using hcalm) rfl) rfl

/-- An operation may be completed, also after a request. -/
theorem obedient_settle (h : s.Obedient) : s.settle.Obedient :=
  obedient_record (s := { s with watchdog := s.watchdog.reset s.now }) ⟨h.heeds, h.requested⟩
    rfl rfl

/-- A state may be entered, also after a request. -/
theorem obedient_enter (h : s.Obedient) (state : State) : (s.enter state).Obedient :=
  obedient_record (s := { s with state := s.state.moveTo state }) ⟨h.heeds, h.requested⟩ rfl rfl

/-- The owner is called only while no shutdown was requested. -/
theorem obedient_notify (h : s.Obedient) (hcalm : s.stopRequested = false) (notice : Notice) :
    (s.notify notice).Obedient :=
  obedient_lull (lull_notify s notice)
    (obedient_record_of_calm (s := { s with reactions := (s.reactions.take notice).2 })
      ⟨h.heeds, h.requested⟩ hcalm rfl)

/-- A pause that comes to an end has looked for a request. -/
theorem obeys_pause {α : Type} {script : Script α} (h : s.Obedient) {operation : Operation}
    (htask : s.task = .attempting operation) (hpause : Pause script s t) : t.Obeys := by
  cases hpause with
  | on hlull => exact obeys_of_attempting (obedient_lull hlull h) (hlull.kept.task.trans htask)
  | stuck hlull _ hcalm =>
    -- Nothing wakes the session up, and there is no request that it could have overlooked.
    have hl := obedient_lull hlull h
    exact ⟨⟨hl.heeds, hl.requested⟩, .inl hcalm⟩
  | cancelled hlull hstop => exact obeys_conclude (obedient_lull hlull h) fun _ => hstop
  | expired hlull _ => exact obeys_fail (obedient_lull hlull h) _

/-! ### What the results of operations keep -/

/-- The next attempt begins only without a request. -/
theorem obeys_connectNext (h : s.Obedient) (candidate : Nat) (last : IoError)
    (candidates : Candidates) : (s.connectNext candidate last candidates).Obeys := by
  cases candidates with
  | nil => exact obeys_fail h _
  | cons endpoint others => exact obeys_attempt (obedient_enter h _) _

/-- What follows the lookup begins only without a request. -/
theorem obeys_resolved (h : s.Obedient) (result : Except IoError Candidates) :
    (s.resolved result).Obeys := by
  have hs := obedient_settle h
  unfold resolved
  split
  · exact obeys_fail hs _
  · exact obeys_fail hs _
  · exact obeys_connectNext hs _ _ _

/-- What follows an attempt begins only without a request. -/
theorem obeys_connected (h : s.Obedient) (candidate : Nat) (others : Candidates)
    (result : Except IoError Peer) : (s.connected candidate others result).Obeys := by
  have hs : ({ s with attempts := s.attempts.tail } : Session).settle.Obedient :=
    obedient_settle ⟨h.heeds, h.requested⟩
  unfold connected
  cases result with
  | error cause => exact obeys_connectNext hs _ _ _
  | ok peer =>
    have hp : ({ ({ s with attempts := s.attempts.tail } : Session).settle with
        peer := some peer } : Session).Obedient := ⟨hs.heeds, hs.requested⟩
    exact obeys_attempt (obedient_enter hp _) _

/-- Going on with a write is not the beginning of another operation. -/
theorem obeys_written (h : s.Obedient) {purpose : Purpose} {bytes : Bytes}
    (htask : s.task = .attempting (.write purpose bytes)) (result : Except IoError Nat) :
    (s.written purpose bytes result).Obeys := by
  unfold written
  cases result with
  | error cause =>
    simp only
    split
    · exact obeys_of_attempting h htask
    · exact obeys_fail (obedient_settle h) _
  | ok limit =>
    have hw : (s.record (.wrote (bytes.take limit))).Obedient := obedient_record h rfl rfl
    simp only
    split
    · exact obeys_fail (obedient_settle hw) _
    · exact obeys_of_attempting ⟨hw.heeds, hw.requested⟩ rfl

/-- What follows a flush begins only without a request. -/
theorem obeys_flushed (h : s.Obedient) (purpose : Purpose) (result : Except IoError Unit) :
    (s.flushed purpose result).Obeys := by
  unfold flushed
  cases result with
  | error cause => exact obeys_fail (obedient_settle h) _
  | ok u =>
    have hf : (s.record .flushed).settle.Obedient :=
      obedient_settle (obedient_record h rfl rfl)
    cases purpose with
    | request =>
      have he := obedient_enter hf .readingStatus
      exact obeys_of_decoding ⟨he.heeds, he.requested⟩ rfl
    | uplink => exact obeys_attempt hf _

/-- Bytes may arrive after a request: that begins nothing. -/
theorem obeys_readable (h : s.Obedient) (htask : s.task = .attempting .read)
    (result : Except IoError Bytes) : (s.readable result).Obeys := by
  unfold readable
  cases result with
  | error cause => exact obeys_fail (obedient_settle h) _
  | ok bytes =>
    simp only
    split
    · exact obeys_conclude (obedient_settle h) fun hcancelled => by cases hcancelled
    · exact obeys_of_attempting ⟨h.heeds, h.requested⟩ htask

/-- Bytes are handed on to the decoder whatever was requested. -/
theorem obeys_receive (h : s.Obedient) : s.receive.Obeys := by
  have hs : ({ s with
      arrived := s.arrived.drop s.connection.config.readLimit } : Session).settle.Obedient :=
    obedient_settle ⟨h.heeds, h.requested⟩
  have hr := obedient_record hs (show (Event.received
    (s.arrived.take s.connection.config.readLimit)).begins = false from rfl) rfl
  exact obeys_of_decoding ⟨hr.heeds, hr.requested⟩ rfl

/-- Nobody is called, and nothing is read, after a request. -/
theorem obeys_stepDecoder (h : s.Obedient) (htask : s.task = .decoding) :
    s.stepDecoder.Obeys := by
  unfold stepDecoder
  cases s.decoder.advance s.limits with
  | mk signal decoder =>
    have hs : ({ s with decoder } : Session).Obedient := ⟨h.heeds, h.requested⟩
    cases signal with
    | more => exact obeys_attempt hs _
    | proceed => exact obeys_of_decoding hs htask
    | accepted status =>
      simp only
      split
      · exact obeys_of_decoding (obedient_enter hs _) htask
      · exact obeys_of_decoding (obedient_enter hs _) htask
    | headers map =>
      -- Right before a call the session looks for a request.
      simp only
      split
      · exact obeys_conclude hs fun _ => ‹_›
      · rename_i hcalm
        have hn := obedient_notify hs (eq_false_of_ne_true hcalm) (.headers map)
        exact obeys_of_decoding (obedient_enter hn _)
          ((lull_notify { s with decoder } (.headers map)).kept.task.trans htask)
    | data bytes =>
      simp only
      split
      · exact obeys_conclude hs fun _ => ‹_›
      · rename_i hcalm
        have hn := obedient_notify hs (eq_false_of_ne_true hcalm) (.data bytes)
        exact obeys_of_decoding hn
          ((lull_notify { s with decoder } (.data bytes)).kept.task.trans htask)
    | finished => exact obeys_conclude hs fun hcancelled => by cases hcancelled
    | failed error => exact obeys_fail hs _

/-! ### What the end of a session keeps -/

/-- What is no request decides nothing. -/
theorem decided_record {outcome : Outcome} (h : s.Decided outcome) {event : Event}
    (hr : event.isRequest = false) : (s.record event).Decided outcome := by
  rcases h with ⟨ho, hstop⟩ | ⟨ho, hstop, htold⟩
  · exact .inl ⟨ho, hstop⟩
  · exact .inr ⟨ho, by simp [record, isStopped, hstop, hr], by simp [record, htold]⟩

/-- The last call of the owner decides the outcome, and so does a request before it. -/
theorem decided_notifyEnd (h : s.Obedient) {ending : Ending}
    (hcancelled : ending = .cancelled → s.stopRequested = true) :
    (s.notifyEnd (outcomeOf s.stopRequested s.state ending)).Decided
      (outcomeOf s.stopRequested s.state ending) := by
  cases hstop : s.stopRequested with
  | true => exact .inl ⟨rfl, hstop⟩
  | false =>
    -- Without a request the outcome is not a shutdown, so there is a last call.
    have hlast : ∀ notice : Notice, notice.isTerminal = true →
        ∀ outcome, outcome ≠ .shutdown → (s.notify notice).Decided outcome :=
      fun notice hterminal outcome ho => decided_lull (lull_notify s notice)
        (.inr ⟨ho, by simp [record, isStopped, isStopped_of_calm h hstop, Event.isRequest],
          by simp [record, Event.isLastCall, hterminal]⟩)
    cases ending with
    | cancelled => rw [hstop] at hcancelled; cases hcancelled rfl
    | finished => exact hlast .eof rfl _ (by simp [outcomeOf])
    | failed error => exact hlast (.error error) rfl _ (by simp [outcomeOf])
    | closed =>
      simp only [outcomeOf, Bool.false_eq_true, if_false]
      split
      · exact hlast .eof rfl _ (by simp)
      · exact hlast (.error Error.closedEarly) rfl _ (by simp)

/-- The last call is made only without a request. -/
theorem obedient_notifyEnd (h : s.Obedient) (ending : Ending) :
    (s.notifyEnd (outcomeOf s.stopRequested s.state ending)).Obedient := by
  cases hstop : s.stopRequested with
  | true => exact h
  | false =>
    cases outcomeOf false s.state ending with
    | shutdown => exact h
    | eof => exact obedient_notify h hstop .eof
    | failed error => exact obedient_notify h hstop (.error error)

/-- The session comes to the outcome that was decided. -/
theorem obeys_finish (h : s.Obedient) {outcome : Outcome} (hd : s.Decided outcome) :
    (s.finish outcome).Obeys := by
  have hended : ({ s with after := [], task := .ended outcome }.record .ended).Obedient :=
    obedient_record (s := { s with after := [], task := .ended outcome })
      ⟨h.heeds, h.requested⟩ rfl rfl
  refine ⟨obedient_lull (lull_finish s outcome) hended, ?_⟩
  unfold Attentive
  rw [task_finish]
  exact decided_lull (lull_finish s outcome)
    (decided_record (s := { s with after := [], task := .ended outcome }) hd rfl)

/-- Winding up decides the outcome before anything else can happen. -/
theorem obeys_stepConclusion (h : s.Obedient) {ending : Ending}
    (hcancelled : ending = .cancelled → s.stopRequested = true) :
    (s.stepConclusion ending).Obeys := by
  have hd := decided_notifyEnd h hcancelled
  have hs := obedient_notifyEnd h ending
  rw [stepConclusion]
  generalize outcomeOf s.stopRequested s.state ending = outcome at hd hs ⊢
  generalize s.notifyEnd outcome = t at hd hs ⊢
  have hs' : ({ t with uplink := t.uplink.close }.enter .closed).Obedient :=
    obedient_enter (s := { t with uplink := t.uplink.close }) ⟨hs.heeds, hs.requested⟩ _
  have hd' : ({ t with uplink := t.uplink.close }.enter .closed).Decided outcome :=
    decided_record (s := { t with uplink := t.uplink.close, state := t.state.moveTo .closed })
      hd rfl
  have hclosed : t.state.moveTo .closed = .closed := by cases t.state <;> rfl
  split
  · -- There is a stream to close.
    refine ⟨obedient_record (s := { { t with uplink := t.uplink.close }.enter .closed with
      task := .closing outcome }) ⟨hs'.heeds, hs'.requested⟩ rfl rfl, ?_, hclosed⟩
    exact decided_record (s := { { t with uplink := t.uplink.close }.enter .closed with
      task := .closing outcome }) hd' (show Event.closing.isRequest = false from rfl)
  · exact obeys_finish hs' hd'

/-- Closing the stream leaves the outcome as it was decided. -/
theorem obeys_stepClosing (h : s.Obeys) {outcome : Outcome} (htask : s.task = .closing outcome) :
    s.step.Obeys := by
  obtain ⟨hs, hattentive⟩ := h
  rw [Attentive, htask] at hattentive
  obtain ⟨hd, hstate⟩ := hattentive
  rcases step_closing htask with ⟨result, rest, -, hstep⟩ | hlull | ⟨hnever, hstep⟩
  · rw [hstep]
    exact obeys_finish
      (obedient_record (s := { s.putCloses rest with peer := none }) ⟨hs.heeds, hs.requested⟩
        rfl rfl)
      (decided_record (s := { s.putCloses rest with peer := none }) hd rfl)
  · refine ⟨obedient_lull hlull hs, ?_⟩
    rw [Attentive, hlull.kept.task, htask]
    exact ⟨decided_lull hlull hd, hlull.kept.state.trans hstate⟩
  · rw [hstep]
    exact ⟨⟨hs.heeds, hs.requested⟩, .inr ⟨rfl, hstate, hnever⟩⟩

/-! ### Every move and every run -/

/-- Every move keeps the invariant. -/
theorem obeys_step (h : s.Obeys) : s.step.Obeys := by
  obtain ⟨hs, hattentive⟩ := h
  -- Over the tasks: an operation gets its result, or it pauses and looks for a request meanwhile.
  cases htask : s.task with
  | attempting operation =>
    cases operation with
    | resolve =>
      rcases step_resolve htask with ⟨result, rest, -, hstep⟩ | hpause
      · rw [hstep]
        exact obeys_resolved (s := s.putLookup rest) ⟨hs.heeds, hs.requested⟩ result
      · exact obeys_pause hs htask hpause
    | connect candidate endpoint others =>
      rcases step_connect htask with ⟨result, rest, -, hstep⟩ | hpause
      · rw [hstep]
        exact obeys_connected (s := s.putAttempt rest) ⟨hs.heeds, hs.requested⟩ _ _ result
      · exact obeys_pause hs htask hpause
    | write purpose bytes =>
      by_cases hne : bytes = []
      · subst hne
        rw [step_write_nil htask]
        exact obeys_of_attempting ⟨hs.heeds, hs.requested⟩ rfl
      · rcases step_write hne htask with ⟨result, rest, -, hstep⟩ | hpause
        · rw [hstep]
          exact obeys_written (s := s.putWrites rest) ⟨hs.heeds, hs.requested⟩ htask result
        · exact obeys_pause hs htask hpause
    | flush purpose =>
      rcases step_flush htask with ⟨result, rest, -, hstep⟩ | hpause
      · rw [hstep]
        exact obeys_flushed (s := s.putFlushes rest) ⟨hs.heeds, hs.requested⟩ purpose result
      · exact obeys_pause hs htask hpause
    | read =>
      by_cases harrived : s.arrived = []
      · rcases step_read htask harrived with
          ⟨result, rest, -, hstep⟩ | ⟨message, uplink, -, -, -, hstep⟩ | hpause
        · rw [hstep]
          exact obeys_readable (s := s.putReads rest) ⟨hs.heeds, hs.requested⟩ htask result
        · rw [hstep]
          exact obeys_attempt
            (obedient_settle (s := { s with uplink }) ⟨hs.heeds, hs.requested⟩) _
        · exact obeys_pause hs htask hpause
      · rw [step_receive htask harrived]
        exact obeys_receive hs
  | decoding =>
    rw [step_decoding htask]
    exact obeys_stepDecoder hs htask
  | concluding ending =>
    rw [step_concluding htask]
    rw [Attentive, htask] at hattentive
    exact obeys_stepConclusion hs hattentive
  | closing outcome => exact obeys_stepClosing ⟨hs, hattentive⟩ htask
  | ended outcome =>
    rw [step_of_halted (by simp only [isHalted, htask])]
    exact ⟨hs, hattentive⟩
  | stuck =>
    rw [step_of_halted (by simp only [isHalted, htask])]
    exact ⟨hs, hattentive⟩

/-- A session heeds a shutdown request from its start on. -/
theorem obeys_start (connection : Connection) (plan : Plan) : (start connection plan).Obeys := by
  rw [start_eq]
  refine obeys_attempt (obedient_enter (obedient_record ?_ rfl rfl) _) _
  have hbefore := obedient_lull (lull_actAll (blank connection plan) plan.before) ⟨trivial, rfl⟩
  exact ⟨hbefore.heeds, hbefore.requested⟩

/-- Every state that a session passes through heeds shutdown requests. -/
theorem obeys_runFor (connection : Connection) (plan : Plan) (moves : Nat) :
    ((start connection plan).runFor moves).Obeys :=
  keeps_runFor (P := Obeys) (fun _ => obeys_step) moves (obeys_start connection plan)

/-- A session that was stopped in time comes to a shutdown, or its stream never closes. -/
theorem outcome_of_isStopped (h : s.Obeys) (hhalted : s.isHalted = true)
    (hstop : isStopped s.history = true) :
    s.outcome? = some .shutdown ∨ s.ClosesForever := by
  obtain ⟨hs, hattentive⟩ := h
  unfold isHalted at hhalted
  split at hhalted
  · -- The session has ended, so its outcome is decided.
    rename_i outcome htask
    rw [Attentive, htask] at hattentive
    rcases hattentive with ⟨rfl, -⟩ | ⟨-, hnot, -⟩
    · exact .inl (by rw [outcome?, htask])
    · rw [hnot] at hstop
      cases hstop
  · -- It waits for ever: either nobody has stopped it, or the stream never closes.
    rename_i htask
    rw [Attentive, htask] at hattentive
    rcases hattentive with hcalm | hforever
    · rw [isStopped_of_calm hs hcalm] at hstop
      cases hstop
    · exact .inr hforever
  · cases hhalted

/-! ### The owner after its last call -/

/-- The session with another owner from now on: other plans, other reactions, and other
actions while the stream closes. -/
def withOwner (s : Session) (schedule : List (Nat × Action)) (reactions : Reactions)
    (after : List Action) (closes : Script (Except IoError Unit)) : Session :=
  { s with schedule, reactions, after }.putCloses closes

/-- Another owner does not change whether the stream closes. -/
theorem completes_withOwner (s : Session) (schedule : List (Nat × Action))
    (reactions : Reactions) (after : List Action) {closes : Script (Except IoError Unit)}
    (h : closes.essence = s.closes.essence) :
    (s.withOwner schedule reactions after closes).closes.completes = s.closes.completes :=
  (lull_putCloses { s with schedule, reactions, after } h).kept.completes

/-- Once the work of a session has stopped, its owner no longer matters. -/
theorem run_withOwner (s : Session) {ending : Ending} (htask : s.task = .concluding ending)
    (schedule : List (Nat × Action)) (reactions : Reactions) (after : List Action)
    {closes : Script (Except IoError Unit)} (h : closes.essence = s.closes.essence) :
    (s.withOwner schedule reactions after closes).run.notices = s.run.notices ∧
      (s.withOwner schedule reactions after closes).run.outcome? = s.run.outcome? := by
  obtain ⟨hnotices, -, houtcome⟩ := run_concluding s htask
  obtain ⟨hnotices', -, houtcome'⟩ :=
    run_concluding (s.withOwner schedule reactions after closes) htask
  rw [completes_withOwner s schedule reactions after h] at houtcome'
  exact ⟨hnotices'.trans hnotices.symm, houtcome'.trans houtcome.symm⟩

/-- The owner is called for the last time if its session stops without a request. -/
theorem exists_lastCall (h : s.Obeys) {ending : Ending} (htask : s.task = .concluding ending)
    (hcalm : s.stopRequested = false) :
    ∃ notice, notice.isTerminal = true ∧ s.run.notices = s.notices ++ [notice] := by
  have hattentive := h.task
  rw [Attentive, htask] at hattentive
  rw [(run_concluding s htask).1, hcalm]
  cases ending with
  | cancelled => rw [hattentive rfl] at hcalm; cases hcalm
  | finished => exact ⟨.eof, rfl, rfl⟩
  | failed error => exact ⟨.error error, rfl, rfl⟩
  | closed =>
    simp only [outcomeOf, Bool.false_eq_true, if_false]
    split
    · exact ⟨.eof, rfl, rfl⟩
    · exact ⟨.error Error.closedEarly, rfl, rfl⟩

/-- **A shutdown request outweighs everything**, from before the start up to the moment at
which the owner is called for the last time. Whatever is pending, complete or buffered at
the request: no call of the owner and no guarded operation begins after it, and the session
comes to a shutdown, unless its stream never closes.

From its last call on the owner decides nothing: with any other plans, reactions and
actions from then on, shutdown requests among them, it gets the same calls and the session
comes to the same outcome. -/
theorem shutdown_dominates (connection : Connection) (plan : Plan) :
    (∀ before request after,
      (start connection plan).run.log = before ++ request :: after →
      request.event.isRequest = true →
      (∀ entry ∈ before, entry.event.isLastCall = false) →
      (∀ entry ∈ after, entry.event.begins = false) ∧
        ((start connection plan).run.outcome? = some .shutdown ∨
          (start connection plan).run.ClosesForever)) ∧
    ∀ moves ending,
      ((start connection plan).runFor moves).task = .concluding ending →
      ((start connection plan).runFor moves).stopRequested = false →
      (∃ notice, notice.isTerminal = true ∧ (start connection plan).run.notices
          = ((start connection plan).runFor moves).notices ++ [notice]) ∧
        ∀ schedule reactions after closes,
          Script.essence closes = ((start connection plan).runFor moves).closes.essence →
          (((start connection plan).runFor moves).withOwner
              schedule reactions after closes).run.notices
            = (start connection plan).run.notices ∧
          (((start connection plan).runFor moves).withOwner
              schedule reactions after closes).run.outcome?
            = (start connection plan).run.outcome? := by
  constructor
  · intro before request after hlog hrequest hbefore
    have hobeys : (start connection plan).run.Obeys :=
      obeys_runFor connection plan (start connection plan).work
    -- The history is the log read backwards.
    have hhistory : (start connection plan).run.history
        = after.reverse ++ request :: before.reverse := by
      rw [← List.reverse_reverse (start connection plan).run.history]
      exact (congrArg List.reverse hlog).trans (by simp)
    have hstop : isStopped (request :: before.reverse) = true := by
      simpa [isStopped, hrequest] using .inr hbefore
    have hheeds := hobeys.heeds
    rw [hhistory] at hheeds
    refine ⟨fun entry hmem =>
      begins_eq_false_of_heeds hheeds hstop entry (List.mem_reverse.2 hmem), ?_⟩
    exact outcome_of_isStopped hobeys (isHalted_run _) (hhistory ▸ isStopped_append hstop _)
  · intro moves ending htask hcalm
    -- The last call is made in the move that begins here, so all that follows comes too late.
    have hlast := exists_lastCall (obeys_runFor connection plan moves) htask hcalm
    rw [run_runFor] at hlast
    refine ⟨hlast, ?_⟩
    intro schedule reactions after closes hcloses
    have hrun := run_withOwner _ htask schedule reactions after hcloses
    rwa [run_runFor] at hrun

/-- A server that sends a whole body of one chunk at once. -/
def wholeChunkedBody : Plan :=
  .serving [.result (.ok (Utf8.encode
    "HTTP/1.1 200 OK\r\nTransfer-Encoding: chunked\r\n\r\n5\r\nHELLO\r\n0\r\n\r\n"))]

/-- Requested on the first piece of data, with the end of the body in the buffer: the end is
not told. Requested on the end itself: nothing changes. -/
theorem shutdown_dominates_buffered_end :
    (∃ before request after,
      (start .sample { wholeChunkedBody with
        reactions := { data := [[.shutdown]] } }).run.log = before ++ request :: after ∧
      request.event.isRequest = true ∧
      (∀ entry ∈ before, entry.event.isLastCall = false) ∧
      (∀ entry ∈ after, entry.event.begins = false)) ∧
    ((start .sample wholeChunkedBody).runFor 14).task = .concluding .finished ∧
    ((start .sample wholeChunkedBody).runFor 14).stopRequested = false ∧
    (((start .sample wholeChunkedBody).runFor 14).withOwner
        [] { eof := [.shutdown] } [.isShutdown] []).run.outcome?
      = (start .sample wholeChunkedBody).run.outcome? := by
  -- The run asks for shutdown inside a data callback, before any last call.
  have hany : (start .sample { wholeChunkedBody with
      reactions := { data := [[.shutdown]] } }).run.log.any (·.event.isRequest) = true := by
    decide +kernel
  have hnone : ∀ entry ∈ (start .sample { wholeChunkedBody with
      reactions := { data := [[.shutdown]] } }).run.log, entry.event.isLastCall = false := by
    decide +kernel
  obtain ⟨request, hmem, hrequest⟩ := List.any_eq_true.1 hany
  obtain ⟨before, after, hlog⟩ := List.append_of_mem hmem
  have hbefore : ∀ entry ∈ before, entry.event.isLastCall = false := fun entry hentry =>
    hnone entry (hlog ▸ List.mem_append_left _ hentry)
  have htask : ((start .sample wholeChunkedBody).runFor 14).task = .concluding .finished := by
    decide +kernel
  have hcalm : ((start .sample wholeChunkedBody).runFor 14).stopRequested = false := by
    decide +kernel
  exact ⟨⟨before, request, after, hlog, hrequest, hbefore,
      ((shutdown_dominates .sample _).1 before request after hlog hrequest hbefore).1⟩,
    htask, hcalm,
    (((shutdown_dominates .sample wholeChunkedBody).2 14 .finished htask hcalm).2
      [] { eof := [.shutdown] } [.isShutdown] [] rfl).2⟩

end Session

end NtripClient
