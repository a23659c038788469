import NtripClient.Proofs.Session.Clock

/-!
# `NtripClient.Proofs.Session.Closing`: the teardown of a session

`teardown_of_outcome` is the main statement. A session that comes to an outcome was torn down
once: its log has a single place at which the state becomes closed. In front of it nothing tells
that the session is going to end, and every message that was sent had been accepted. Behind it
there is the closing of the stream, exactly once if an attempt to connect ever gave one, the end
of the session, and what the owner does meanwhile; whatever it sends is refused.

The proof follows the life of a session in its three parts. While it works, and until it winds
up, it is `InWork`. Winding up leads to `Shut`, which time and the owner keep (`Lull.shut`). In
between stands one move, which `teardown_of_concluding` is about.
-/

set_option autoImplicit false

namespace NtripClient

/-- The owner acts after the uplink was closed: what it sends is refused. -/
def Event.isLateAction : Event → Bool
  | .acted (.send _) (.refused error) => decide (error = Error.ended)
  | .acted (.send _) reply => decide (reply = .nothing)
  | .acted _ _ => true
  | _ => false

/-- The owner acts while the state is closed. -/
def Entry.IsLate (entry : Entry) : Prop :=
  entry.state = .closed ∧ entry.event.isLateAction = true

/-- A log from the moment on at which the state has become closed. -/
structure IsTeardown (hasStream : Bool) (log : List Entry) : Prop where
  /-- The state stays closed. -/
  closed : ∀ entry ∈ log, entry.state = .closed
  /-- The stream is closed once, if there is one. The session ends once. The owner acts in
  vain. -/
  events : ∃ during result last,
    log.map Entry.event
      = (if hasStream then .closing :: (during ++ [.closed result]) else []) ++ .ended :: last ∧
    ∀ event ∈ during ++ last, event.isLateAction = true

namespace Session

variable {s t : Session}

/-! ### After the uplink was closed -/

/-- The session is closed, and so is its uplink. -/
structure Shut (s : Session) : Prop where
  state : s.state = .closed
  uplink : s.uplink.isOpen = false

/-- An uplink that is closed takes nothing, and an action does not open it. -/
theorem Shut.respond (h : s.Shut) (action : Action) :
    (s.respond action).1.Shut ∧
      (Event.acted action (s.respond action).2).isLateAction = true := by
  cases action with
  | send message =>
    simp only [Session.respond, Uplink.send, h.uplink]
    split
    · exact ⟨h, by simp [Event.isLateAction]⟩
    · exact ⟨h, by simp [Event.isLateAction]⟩
  | shutdown =>
    simp only [Session.respond]
    split
    · exact ⟨⟨h.state, h.uplink⟩, rfl⟩
    · exact ⟨h, rfl⟩
  | isShutdown => exact ⟨h, rfl⟩
  | isActive => exact ⟨h, rfl⟩
  | release handle => exact ⟨⟨h.state, h.uplink⟩, rfl⟩

/-- Time and the owner leave a session shut, and nothing is logged but what the owner does. -/
theorem Lull.shut (hlull : Lull s t) (h : s.Shut) : t.Shut ∧ Adds Entry.IsLate s t := by
  induction hlull with
  | refl => exact ⟨h, adds_of_history rfl⟩
  | act action _ ih =>
    obtain ⟨hshut, hadds⟩ := ih
    obtain ⟨hshut', hlate⟩ := hshut.respond action
    exact ⟨⟨hshut'.state, hshut'.uplink⟩, hadds.trans (adds_act _ ⟨hshut'.state, hlate⟩)⟩
  | alike _ same ih =>
    obtain ⟨hshut, hadds⟩ := ih
    refine ⟨⟨same.state.trans hshut.state, ?_⟩, hadds.trans (adds_of_history same.history)⟩
    rw [same.uplink]
    exact hshut.uplink

/-- The end is logged, and then the owner acts once more. -/
theorem shut_finish (h : s.Shut) (outcome : Outcome) :
    (s.finish outcome).Shut ∧ ∃ added, (s.finish outcome).log = s.log ++ added ∧
      IsTeardown false added := by
  have hended : ({ s with after := [], task := .ended outcome }.record .ended).Shut :=
    ⟨h.state, h.uplink⟩
  obtain ⟨hshut, acts, hlog, hacts⟩ := (lull_finish s outcome).shut hended
  rw [log_record, List.append_assoc] at hlog
  refine ⟨hshut, _, hlog, ?_, [], .ok (), acts.map Entry.event, rfl, ?_⟩
  · intro entry hmem
    rcases List.mem_cons.1 hmem with rfl | hmem
    · exact h.state
    · exact (hacts entry hmem).1
  · intro event hmem
    obtain ⟨entry, hentry, rfl⟩ := List.mem_map.1 hmem
    exact (hacts entry hentry).2

/-- Late actions in front of a teardown belong to the time in which the stream closes. -/
theorem teardown_cons {first : Entry} {acts added : List Entry} (hfirst : first.state = .closed)
    (hevent : first.event = .closing) (hacts : ∀ entry ∈ acts, entry.IsLate)
    {finish : Entry} {result : Except IoError Unit} (hstate : finish.state = .closed)
    (hresult : finish.event = .closed result) (h : IsTeardown false added) :
    IsTeardown true (first :: (acts ++ finish :: added)) := by
  obtain ⟨hclosed, during, result', last, hlast, hlate⟩ := h
  refine ⟨?_, acts.map Entry.event, result, last, ?_, ?_⟩
  · intro entry hmem
    rcases List.mem_cons.1 hmem with rfl | hmem
    · exact hfirst
    rcases List.mem_append.1 hmem with hmem | hmem
    · exact (hacts entry hmem).1
    rcases List.mem_cons.1 hmem with rfl | hmem
    · exact hstate
    · exact hclosed entry hmem
  · rw [List.map_cons, List.map_append, List.map_cons, hlast, hevent, hresult]
    simp
  · intro event hmem
    rcases List.mem_append.1 hmem with hmem | hmem
    · obtain ⟨entry, hentry, rfl⟩ := List.mem_map.1 hmem
      exact (hacts entry hentry).2
    · exact hlate event (List.mem_append_right _ hmem)

/-- A session that closes its stream, and comes to an end, logs the result of closing and the
end, and what the owner does before and after. -/
theorem run_closing_log (s : Session) {outcome outcome' : Outcome} (h : s.task = .closing outcome)
    (hshut : s.Shut) (hended : s.run.outcome? = some outcome') :
    s.run.Shut ∧ ∃ acts finish result added, s.run.log = s.log ++ (acts ++ finish :: added) ∧
      (∀ entry ∈ acts, entry.IsLate) ∧ finish.state = .closed ∧ finish.event = .closed result ∧
      IsTeardown false added := by
  -- Induction over the moves left, as for the outcome of such a run.
  induction s using move_induction with
  | hhalted s hs => simp [isHalted, h] at hs
  | hmove s hs ih =>
    rw [← run_step s] at hended ⊢
    rcases step_closing h with ⟨result, rest, -, hstep⟩ | hlull | ⟨-, hstep⟩
    · have hclosed : ({ s.putCloses rest with peer := none }.record (.closed result)).Shut :=
        ⟨hshut.state, hshut.uplink⟩
      obtain ⟨hshut', added, hlog, hadded⟩ := shut_finish hclosed outcome
      have htask : s.step.task = .ended outcome := by rw [hstep, task_finish]
      rw [run_of_halted (by simp only [isHalted, htask]), hstep]
      rw [log_record, List.append_assoc] at hlog
      refine ⟨hshut', [], _, result, added, hlog, ?_, hshut.state, rfl, hadded⟩
      intro entry hmem
      cases hmem
    · -- What the owner does in this move comes in front of what the rest of the run logs.
      obtain ⟨hshut', acts, hlog, hacts⟩ := hlull.shut hshut
      obtain ⟨hrun, acts', finish, result, added, hlog', hacts', hrest⟩ :=
        ih (hlull.kept.task.trans h) hshut' hended
      refine ⟨hrun, acts ++ acts', finish, result, added, ?_, ?_, hrest⟩
      · rw [hlog', hlog]
        simp only [List.append_assoc]
      · intro entry hmem
        exact (List.mem_append.1 hmem).elim (hacts entry) (hacts' entry)
    · -- A stream that never closes leads to no outcome.
      rw [run_of_halted (by rw [hstep]; rfl), hstep] at hended
      cases hended

/-- A session that closes its stream, and comes to no outcome, closes it for ever. -/
theorem closesForever_of_closing (s : Session) {outcome : Outcome} (h : s.task = .closing outcome)
    (hclosed : s.state = .closed) (hnone : s.run.outcome? = none) : s.run.ClosesForever := by
  induction s using move_induction with
  | hhalted s hs => simp [isHalted, h] at hs
  | hmove s hs ih =>
    rw [← run_step s] at hnone ⊢
    rcases step_closing h with ⟨result, rest, -, hstep⟩ | hlull | ⟨hnever, hstep⟩
    · have htask : s.step.task = .ended outcome := by rw [hstep, task_finish]
      rw [run_of_halted (by simp only [isHalted, htask]), outcome?, htask] at hnone
      cases hnone
    · exact ih (hlull.kept.task.trans h) (hlull.kept.state.trans hclosed) hnone
    · rw [run_of_halted (by rw [hstep]; rfl), hstep]
      exact ⟨rfl, hclosed, hnever⟩

/-! ### Winding up -/

/-- The last call is still part of the work. -/
theorem inWork_notifyEnd (h : s.InWork) (outcome : Outcome) : (s.notifyEnd outcome).InWork := by
  cases outcome with
  | shutdown => exact h
  | eof => exact h.works (works_notify s .eof)
  | failed error => exact h.works (works_notify s (.error error))

/-- The last call leaves the stream where it is. -/
theorem isSome_peer_notifyEnd (s : Session) (outcome : Outcome) :
    (s.notifyEnd outcome).peer.isSome = s.peer.isSome := by
  have hpeer := congrArg Option.isSome (peer_notifyEnd s outcome)
  rwa [Option.isSome_map, Option.isSome_map] at hpeer

/-- Closing the uplink and entering the last state. -/
def shutDown (s : Session) : Session :=
  { s with uplink := s.uplink.close }.enter .closed

/-- Shutting down closes the state, whatever it was, and the uplink. -/
theorem shut_shutDown (s : Session) : s.shutDown.Shut := by
  refine ⟨?_, rfl⟩
  show s.state.moveTo .closed = .closed
  cases s.state <;> rfl

/-- A session winds up with the last call and with shutting down, and only then closes its stream.
-/
theorem stepConclusion_eq (s : Session) (ending : Ending) :
    s.stepConclusion ending =
      if s.peer.isSome then
        { (s.notifyEnd (outcomeOf s.stopRequested s.state ending)).shutDown with
          task := .closing (outcomeOf s.stopRequested s.state ending) }.record .closing
      else
        (s.notifyEnd (outcomeOf s.stopRequested s.state ending)).shutDown.finish
          (outcomeOf s.stopRequested s.state ending) := by
  rw [← isSome_peer_notifyEnd s (outcomeOf s.stopRequested s.state ending)]
  rfl

/-- A session that winds up, and comes to no outcome, closes its stream for ever. -/
theorem closesForever_of_concluding {ending : Ending} (htask : s.task = .concluding ending)
    (hnone : s.run.outcome? = none) : s.run.ClosesForever := by
  rw [← run_step s, step_concluding htask, stepConclusion_eq] at hnone ⊢
  generalize outcomeOf s.stopRequested s.state ending = outcome at hnone ⊢
  have hshut := shut_shutDown (s.notifyEnd outcome)
  cases hpeer : s.peer.isSome with
  | true =>
    rw [hpeer, if_pos rfl] at hnone
    rw [if_pos rfl]
    exact closesForever_of_closing _ rfl hshut.state hnone
  | false =>
    have hended := task_finish (s.notifyEnd outcome).shutDown outcome
    rw [hpeer, if_neg (by decide), run_of_halted (by simp only [isHalted, hended]), outcome?,
      hended] at hnone
    cases hnone

/-- The state becomes closed at one place of the log. In front of it nothing tells the end, and
no message is refused. Behind it there is the teardown. -/
def IsTornDown (hasStream : Bool) (log : List Entry) : Prop :=
  ∃ before mark after, log = before ++ mark :: after ∧
    mark.event = .entered .closed ∧
    (∀ entry ∈ before, entry.event.tellsEnd = false) ∧
    IsTeardown hasStream after

/-- A session that winds up and comes to an outcome is torn down once. -/
theorem teardown_of_concluding (h : s.InWork) {ending : Ending} {outcome : Outcome}
    (htask : s.task = .concluding ending) (hended : s.run.outcome? = some outcome) :
    s.run.Shut ∧ IsTornDown s.peer.isSome s.run.log := by
  rw [← run_step s, step_concluding htask, stepConclusion_eq] at hended ⊢
  generalize outcomeOf s.stopRequested s.state ending = told at hended ⊢
  have hwork := inWork_notifyEnd h told
  generalize s.notifyEnd told = t at hended hwork ⊢
  have hbefore : ∀ entry ∈ t.log, entry.event.tellsEnd = false := fun entry hmem =>
    hwork.history entry (List.mem_reverse.1 hmem)
  have hmark : t.shutDown.log = t.log ++ [t.shutDown.entry (.entered .closed)] :=
    log_record _ _
  have hshut := shut_shutDown t
  cases hpeer : s.peer.isSome with
  | true =>
    rw [hpeer, if_pos rfl] at hended
    rw [if_pos rfl]
    have hclosing : ({ t.shutDown with task := .closing told }.record .closing).Shut :=
      ⟨hshut.state, hshut.uplink⟩
    obtain ⟨hrun, acts, finish, result, added, hlog, hacts, hstate, hresult, hadded⟩ :=
      run_closing_log _ rfl hclosing hended
    -- Closing the stream is begun at the moment at which the state has become closed.
    have hfirst : (t.shutDown.entry .closing).state = .closed := hshut.state
    refine ⟨hrun, t.log, t.shutDown.entry (.entered .closed),
      t.shutDown.entry .closing :: (acts ++ finish :: added), ?_, rfl, hbefore,
      teardown_cons hfirst rfl hacts hstate hresult hadded⟩
    rw [hlog, log_record]
    show t.shutDown.log ++ [t.shutDown.entry .closing] ++ _ = _
    rw [hmark]
    simp
  | false =>
    -- Without a stream the session ends at once.
    rw [hpeer, if_neg (by decide)] at hended
    rw [if_neg (by decide)]
    obtain ⟨hrun, added, hlog, hadded⟩ := shut_finish hshut told
    have htask' := task_finish t.shutDown told
    rw [run_of_halted (by simp only [isHalted, htask'])]
    refine ⟨hrun, t.log, t.shutDown.entry (.entered .closed), added, ?_, rfl, hbefore, hadded⟩
    rw [hlog, hmark, List.append_assoc]
    rfl

/-! ### The parts of a life -/

/-- A session has not been wound up, or it is shut and does not begin anything. -/
inductive Phase (s : Session) : Prop where
  | inWork (h : s.InWork)
  | shut (h : s.Shut) (task : s.task.isOver = true ∨ s.task = .stuck)

/-- Coming to an outcome leaves the session shut. -/
theorem phase_finish (h : s.Shut) (outcome : Outcome) : (s.finish outcome).Phase :=
  .shut (shut_finish h outcome).1 (.inl (by rw [task_finish]; rfl))

/-- Winding up leaves the session shut. -/
theorem phase_stepConclusion (s : Session) (ending : Ending) : (s.stepConclusion ending).Phase := by
  rw [stepConclusion_eq]
  generalize outcomeOf s.stopRequested s.state ending = outcome
  have hshut := shut_shutDown (s.notifyEnd outcome)
  split
  · exact .shut ⟨hshut.state, hshut.uplink⟩ (.inl rfl)
  · exact phase_finish hshut outcome

/-- A session at work has not been wound up. -/
theorem Phase.inWork_of_isWorking (h : s.Phase) (hworks : s.task.isWorking = true) :
    s.InWork := by
  cases h with
  | inWork h => exact h
  | shut _ task =>
    -- Neither a task that is over nor being stuck is work.
    rcases task with hover | hstuck
    · cases htask : s.task with
      | closing outcome => rw [htask] at hworks; cases hworks
      | ended outcome => rw [htask] at hworks; cases hworks
      | _ => rw [htask] at hover; cases hover
    · rw [hstuck] at hworks
      cases hworks

/-- A session that closes its stream has been wound up. -/
theorem Phase.shut_of_closing (h : s.Phase) {outcome : Outcome}
    (htask : s.task = .closing outcome) : s.Shut := by
  cases h with
  | inWork h =>
    have hover := h.task
    rw [htask] at hover
    cases hover
  | shut h => exact h

/-- No move leads back from the teardown to the work. -/
theorem phase_step (h : s.Phase) : s.step.Phase := by
  have hwork : s.task.isWorking = true → s.step.Phase := by
    intro hworks
    exact .inWork ((h.inWork_of_isWorking hworks).works (works_step hworks))
  cases htask : s.task with
  | attempting operation => exact hwork (by rw [htask]; rfl)
  | decoding => exact hwork (by rw [htask]; rfl)
  | concluding ending =>
    rw [step_concluding htask]
    exact phase_stepConclusion s ending
  | closing outcome =>
    have hshut := h.shut_of_closing htask
    rcases step_closing htask with ⟨result, rest, -, hstep⟩ | hlull | ⟨-, hstep⟩
    · have hclosed : ({ s.putCloses rest with peer := none }.record (.closed result)).Shut :=
        ⟨hshut.state, hshut.uplink⟩
      rw [hstep]
      exact phase_finish hclosed outcome
    · exact .shut (hlull.shut hshut).1 (.inl (by rw [hlull.kept.task, htask]; rfl))
    · rw [hstep]
      exact .shut ⟨hshut.state, hshut.uplink⟩ (.inr rfl)
  | ended outcome => rwa [step_of_halted (by simp only [isHalted, htask])]
  | stuck => rwa [step_of_halted (by simp only [isHalted, htask])]

/-- A session starts in work. -/
theorem inWork_start (connection : Connection) (plan : Plan) : (start connection plan).InWork :=
  (inWork_blank connection plan).works (works_start connection plan)

/-- A run goes from the work to the teardown. -/
theorem phase_runFor (connection : Connection) (plan : Plan) (moves : Nat) :
    ((start connection plan).runFor moves).Phase :=
  keeps_runFor (P := Phase) (fun _ => phase_step) moves (.inWork (inWork_start connection plan))

/-- What is sent is accepted until the state is closed, and refused from then on. -/
theorem Phase.respond_send (h : s.Phase) (hheld : s.held.sender = true) (message : Bytes) :
    (s.respond (.send message)).2
      = if s.state.isClosed then .refused Error.ended else .accepted := by
  cases h with
  | inWork h => simp only [respond, hheld, if_true, Uplink.send, h.uplink, h.state]; rfl
  | shut h => simp only [respond, hheld, if_true, Uplink.send, h.uplink, h.state]; rfl

/-- No work is done in the closed state. -/
theorem Phase.isWorking (h : s.Phase) (hclosed : s.state = .closed) :
    s.task.isWorking = false := by
  cases hworks : s.task.isWorking with
  | false => rfl
  | true =>
    have hopen := (h.inWork_of_isWorking hworks).state
    rw [hclosed] at hopen
    cases hopen

/-! ### The stream -/

/-- Work does not lose the stream. -/
theorem Works.isSome_peer (h : Works s t) (hpeer : s.peer.isSome = true) :
    t.peer.isSome = true := by
  induction h with
  | refl => exact hpeer
  | steady _ same ih => exact same.peer ih
  | record event _ early ih => exact ih
  | act action _ ih =>
    obtain ⟨held, reply, heq⟩ := act_eq _ action
    rw [heq]
    exact ih
  | wake _ later ahead ih => exact ih

/-- What is kept of a stream includes that there is one. -/
theorem Kept.isSome_peer (h : Kept s t) : t.peer.isSome = s.peer.isSome := by
  have hpeer := congrArg Option.isSome h.peer
  rwa [Option.isSome_map, Option.isSome_map] at hpeer

/-- Coming to an outcome leaves the stream where it is. -/
theorem isSome_peer_finish (s : Session) (outcome : Outcome) :
    (s.finish outcome).peer.isSome = s.peer.isSome :=
  (lull_finish s outcome).kept.isSome_peer

/-- A session that has stopped working gets no stream any more. -/
theorem isSome_peer_step (hstopped : s.task.isWorking = false) (hnone : s.peer.isSome = false) :
    s.step.peer.isSome = false := by
  cases htask : s.task with
  | attempting operation => rw [htask] at hstopped; cases hstopped
  | decoding => rw [htask] at hstopped; cases hstopped
  | concluding ending =>
    rw [step_concluding htask, stepConclusion_eq, hnone, if_neg (by decide), isSome_peer_finish]
    exact (isSome_peer_notifyEnd s _).trans hnone
  | closing outcome =>
    rcases step_closing htask with ⟨result, rest, -, hstep⟩ | hlull | ⟨-, hstep⟩
    · rw [hstep, isSome_peer_finish]
      rfl
    · exact hlull.kept.isSome_peer.trans hnone
    · rw [hstep]
      exact hnone
  | ended outcome => rwa [step_of_halted (by simp only [isHalted, htask])]
  | stuck => rwa [step_of_halted (by simp only [isHalted, htask])]

/-- A stream that a session ever has is there when it stops working. -/
theorem isSome_peer_of_stopped {moves other : Nat}
    (hstopped : (s.runFor moves).task.isWorking = false)
    (hbefore : ∀ earlier < moves, (s.runFor earlier).task.isWorking = true)
    (hpeer : (s.runFor other).peer.isSome = true) : (s.runFor moves).peer.isSome = true := by
  rcases Nat.le_total other moves with hle | hle
  · -- From there on it works.
    obtain ⟨more, rfl⟩ := Nat.exists_eq_add_of_le hle
    clear hstopped hle
    induction more with
    | zero => exact hpeer
    | succ more ih =>
      rw [← Nat.add_assoc, runFor_succ']
      exact (works_step (hbefore _ (by omega))).isSome_peer
        (ih fun earlier hlt => hbefore earlier (by omega))
  · -- It has stopped before, so it had the stream already.
    obtain ⟨more, rfl⟩ := Nat.exists_eq_add_of_le hle
    rw [runFor_add] at hpeer
    cases hnone : (s.runFor moves).peer.isSome with
    | true => rfl
    | false =>
      have hnever : ((s.runFor moves).runFor more).task.isWorking = false ∧
          ((s.runFor moves).runFor more).peer.isSome = false :=
        keeps_runFor (P := fun t => t.task.isWorking = false ∧ t.peer.isSome = false)
          (fun t ht => ⟨isWorking_step ht.1, isSome_peer_step ht.1 ht.2⟩) more ⟨hstopped, hnone⟩
      rw [hnever.2] at hpeer
      cases hpeer

/-! ### Every session that comes to an outcome -/

/-- A session that comes to an outcome has stopped working by winding up. -/
theorem exists_concluding {connection : Connection} {plan : Plan} {outcome : Outcome}
    (h : (start connection plan).run.outcome? = some outcome) :
    ∃ moves ending, ((start connection plan).runFor moves).InWork ∧
      ((start connection plan).runFor moves).task = .concluding ending ∧
      ∀ earlier < moves, ((start connection plan).runFor earlier).task.isWorking = true := by
  obtain ⟨moves, hwork, hstopped, hbefore⟩ := exists_stopped (P := InWork)
    (fun s hworks h => h.works (works_step hworks)) (inWork_start connection plan)
  have hover := hwork.task
  cases htask : ((start connection plan).runFor moves).task with
  | attempting operation => rw [htask] at hstopped; cases hstopped
  | decoding => rw [htask] at hstopped; cases hstopped
  | concluding ending => exact ⟨moves, ending, hwork, htask, hbefore⟩
  | closing outcome' => rw [htask] at hover; cases hover
  | ended outcome' => rw [htask] at hover; cases hover
  | stuck =>
    rw [← run_runFor moves, run_of_halted (by simp only [isHalted, htask]), outcome?, htask] at h
    cases h

/-- How a session is torn down that comes to an outcome. -/
structure TearsDown (connection : Connection) (plan : Plan) (outcome : Outcome) : Prop where
  /-- There is one teardown. It closes a stream, and does it once, exactly if an attempt to
  connect ever gave one. -/
  once : ∃ hasStream,
    (hasStream = true ↔
      ∃ moves, ((start connection plan).runFor moves).peer.isSome = true) ∧
    IsTornDown hasStream (start connection plan).run.log
  /-- Once the state is closed, no guarded operation is under way. -/
  idle : ∀ moves, ((start connection plan).runFor moves).state = .closed →
    ((start connection plan).runFor moves).task.isWorking = false
  /-- What is sent is accepted until the state is closed, and refused from then on. -/
  sends : ∀ moves message, ((start connection plan).runFor moves).held.sender = true →
    (((start connection plan).runFor moves).respond (.send message)).2
      = if ((start connection plan).runFor moves).state.isClosed then .refused Error.ended
        else .accepted
  /-- It is refused for ever, whatever the owner does. -/
  forever : ∀ actions message, ∃ cause,
    ((start connection plan).run.actAll actions).uplink.send message = .error (.io cause) ∧
    cause.kind = .notConnected
  /-- While the stream is being closed, the state and the uplink are closed, and however else it
  is closed, well or not, the outcome and the calls are the same. -/
  closing : ∀ moves closed,
    ((start connection plan).runFor moves).task = .closing closed →
    closed = outcome ∧ ((start connection plan).runFor moves).state = .closed ∧
    ((start connection plan).runFor moves).uplink.isOpen = false ∧
    ∀ closes : Script (Except IoError Unit), closes.completes = true →
      (((start connection plan).runFor moves).putCloses closes).run.outcome? = some outcome ∧
      (((start connection plan).runFor moves).putCloses closes).run.notices
        = (start connection plan).run.notices

/-- A script that completes does so once it is put in place, with or without a stream. -/
theorem completes_putCloses (s : Session) {closes : Script (Except IoError Unit)}
    (h : closes.completes = true) : (s.putCloses closes).closes.completes = true := by
  unfold putCloses Session.closes
  cases s.peer with
  | none => rfl
  | some peer => exact h

/-- A session that closes its stream and comes to an outcome had this outcome already. It comes
to the same one, with the same calls, with every other script that completes the closing. -/
theorem outcome_of_closing {closed outcome : Outcome} (htask : s.task = .closing closed)
    (hended : s.run.outcome? = some outcome) :
    closed = outcome ∧ ∀ closes : Script (Except IoError Unit), closes.completes = true →
      (s.putCloses closes).run.outcome? = some outcome ∧
      (s.putCloses closes).run.notices = s.run.notices := by
  obtain ⟨hnotices, -, houtcome⟩ := run_closing s htask
  have hsame : closed = outcome := by
    rw [hended] at houtcome
    split at houtcome
    · exact (Option.some.inj houtcome).symm
    · cases houtcome
  refine ⟨hsame, ?_⟩
  intro closes hcloses
  obtain ⟨hnotices', -, houtcome'⟩ := run_closing (s.putCloses closes) htask
  rw [completes_putCloses s hcloses, if_pos rfl, hsame] at houtcome'
  exact ⟨houtcome', hnotices'.trans hnotices.symm⟩

/-- **The teardown happens once, last and everywhere**: in every session that comes to an
outcome, whatever the outcome and wherever the session has stopped. -/
theorem teardown_of_outcome (connection : Connection) (plan : Plan) {outcome : Outcome}
    (h : (start connection plan).run.outcome? = some outcome) :
    TearsDown connection plan outcome := by
  obtain ⟨moves, ending, hwork, htask, hbefore⟩ := exists_concluding h
  have hended := h
  rw [← run_runFor moves] at hended
  obtain ⟨hshut, htorn⟩ := teardown_of_concluding hwork htask hended
  rw [run_runFor] at hshut htorn
  refine ⟨⟨_, ⟨fun hsome => ⟨moves, hsome⟩, ?_⟩, htorn⟩, ?_, ?_, ?_, ?_⟩
  · rintro ⟨other, hpeer⟩
    exact isSome_peer_of_stopped (by rw [htask]; rfl) hbefore hpeer
  · intro other hclosed
    exact (phase_runFor connection plan other).isWorking hclosed
  · intro other message hheld
    exact (phase_runFor connection plan other).respond_send hheld message
  · intro actions message
    have hlast := ((lull_actAll _ actions).shut hshut).1.uplink
    have hrefused : ((start connection plan).run.actAll actions).uplink.send message
        = .error Error.ended := by
      rw [Uplink.send, hlast]
      rfl
    exact ⟨_, hrefused, rfl⟩
  · intro other closed hclosing
    have hshut' := (phase_runFor connection plan other).shut_of_closing hclosing
    obtain ⟨hsame, hcloses⟩ := outcome_of_closing hclosing (by rw [run_runFor]; exact h)
    rw [run_runFor] at hcloses
    exact ⟨hsame, hshut'.state, hshut'.uplink, hcloses⟩

/-- The server sends a body and closes, and then the stream cannot be closed well. The owner
sends data on the last call and after the end. -/
def brokenClose : Plan where
  lookup := [.result (.ok [{ address := .v4 ⟨10, 0, 0, 1⟩, port := 0 }])]
  attempts := [[.result (.ok {
    reads := [.result (.ok (Utf8.encode "HTTP/1.1 200 OK\r\n\r\nHELLO"))]
    closes := [.delay 5, .result (.error { kind := .brokenPipe })] })]]
  reactions := { eof := [.send [1]] }
  after := [.send [2]]

/-- The failure to close the stream does not show: the body is over, the stream is closed once,
and the first of the two messages was accepted. -/
theorem teardown_of_outcome_brokenClose :
    (start .sample brokenClose).run.outcome? = some .eof ∧
    IsTornDown true (start .sample brokenClose).run.log ∧
    (start .sample brokenClose).run.log.flatMap (·.event.sent) = [[1]] := by
  have houtcome : (start .sample brokenClose).run.outcome? = some .eof := by decide +kernel
  have hstream : ((start .sample brokenClose).runFor 4).peer.isSome = true := by decide +kernel
  obtain ⟨hasStream, hiff, htorn⟩ := (teardown_of_outcome .sample brokenClose houtcome).once
  rw [hiff.2 ⟨4, hstream⟩] at htorn
  exact ⟨houtcome, htorn, by decide +kernel⟩

end Session

end NtripClient
