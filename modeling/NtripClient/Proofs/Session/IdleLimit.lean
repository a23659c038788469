import NtripClient.Proofs.Session.Closing
import NtripClient.Proofs.Session.Pace
import NtripClient.Proofs.Session.Unlimited

/-!
# `NtripClient.Proofs.Session.IdleLimit`: when a session times out

`idle_limit_exact` is the main statement. A session with an idle limit is compared with the same
session without it. It times out exactly if an operation of the latter is overdue: not complete
when the limit has passed since it began, which is when the operation before it was complete.
Up to then the two logs are the same, and the owner is told at exactly that instant. If no
operation is overdue, the limit makes no difference at all.

`Stop` says how the work of a session ends, with regard to its limit. `exists_stop` follows a
session to that point by the invariant `Pace`. Behind it, nothing happens that belongs to an
operation (`adds_run`).
-/

set_option autoImplicit false

namespace NtripClient

open History

/-! ### Operations that are overdue -/

/-- The operation that begins here is not complete when the limit has passed. -/
def Entry.IsOverdue (start : Entry) (limit : Nat) (later : List Entry) : Prop :=
  start.event.isBeginning = true ∧
    ∀ entry ∈ later, entry.event.isSettled = true → start.time + limit < entry.time

/-- An operation of a log is overdue. -/
def HasOverdue (limit : Nat) (log : List Entry) : Prop :=
  ∃ before start after, log = before ++ start :: after ∧ start.IsOverdue limit after

/-- The entry is no part of a guarded operation. -/
def Entry.IsUnguarded (entry : Entry) : Prop :=
  entry.event.isGuarded = false

/-- A log read backwards. -/
theorem reverse_eq_of_split {history before after : List Entry} {entry : Entry}
    (h : history.reverse = before ++ entry :: after) :
    history = after.reverse ++ entry :: before.reverse := by
  have hreverse := congrArg List.reverse h
  rw [List.reverse_reverse, List.reverse_append, List.reverse_cons, List.append_assoc] at hreverse
  exact hreverse

/-- In a log that keeps a limit nothing is overdue, unless it is still under way. -/
theorem History.Paced.not_hasOverdue {limit : Nat} {history : List Entry}
    (h : Paced (some limit) history) (hpending : pending? history = none) :
    ¬ HasOverdue limit history.reverse := by
  rintro ⟨before, start, after, hlog, hbegins, hlate⟩
  have hhistory := reverse_eq_of_split hlog
  rw [hhistory] at h hpending
  rcases h.pending_or_settled hbegins with hsome | ⟨entry, hmem, hsettled, hwithin⟩
  · rw [hpending] at hsome
    cases hsome
  · have hlt := hlate entry (List.mem_reverse.1 hmem) hsettled
    have hle := hwithin limit rfl
    omega

/-- Operations begin without a gap. -/
theorem History.Paced.time_of_begins {limit? : Option Nat} {history : List Entry}
    (h : Paced limit? history) {before after : List Entry} {start : Entry}
    (hlog : history.reverse = before ++ start :: after)
    (hbegins : start.event.isBeginning = true) : start.time = lastSettled before.reverse := by
  rw [reverse_eq_of_split hlog] at h
  exact (h.of_append.2.begins hbegins).2

/-- Operations are complete within the limit. -/
theorem History.Paced.time_of_settled {limit? : Option Nat} {history : List Entry}
    (h : Paced limit? history) {before after : List Entry} {entry : Entry}
    (hlog : history.reverse = before ++ entry :: after)
    (hsettled : entry.event.isSettled = true) :
    IsWithin limit? (lastSettled before.reverse) entry.time := by
  rw [reverse_eq_of_split hlog] at h
  obtain ⟨hearlier, hentry⟩ := h.of_append
  obtain ⟨start, hpending, hwithin⟩ := hentry.settles hsettled
  rwa [← (hearlier.pending?_eq_some hpending).2]

namespace Session

variable {s t : Session} {limit? : Option Nat}

/-! ### After the work -/

/-- What the owner does is no part of an operation. -/
theorem Lull.adds (h : Lull s t) : Adds Entry.IsUnguarded s t := by
  induction h with
  | refl => exact adds_of_history rfl
  | act action _ ih => exact ih.trans (adds_act _ rfl)
  | alike _ same ih => exact ih.trans (adds_of_history same.history)

/-- An event that belongs to no operation adds its entry. -/
theorem adds_unguarded (s : Session) {event : Event} (h : event.isGuarded = false) :
    Adds Entry.IsUnguarded s (s.record event) :=
  adds_record s h

/-- Coming to an outcome logs no operation. -/
theorem adds_finish (s : Session) (outcome : Outcome) :
    Adds Entry.IsUnguarded s (s.finish outcome) :=
  (adds_unguarded { s with after := [], task := .ended outcome } rfl).trans
    (lull_finish s outcome).adds

/-- Calling the owner logs no operation. -/
theorem adds_notify (s : Session) (notice : Notice) :
    Adds Entry.IsUnguarded s (s.notify notice) :=
  (adds_unguarded { s with reactions := (s.reactions.take notice).2 } rfl).trans
    (lull_notify s notice).adds

/-- Winding up logs no operation. -/
theorem adds_stepConclusion (s : Session) (ending : Ending) :
    Adds Entry.IsUnguarded s (s.stepConclusion ending) := by
  rw [stepConclusion_eq]
  generalize outcomeOf s.stopRequested s.state ending = outcome
  have htold : Adds Entry.IsUnguarded s (s.notifyEnd outcome) := by
    cases outcome with
    | shutdown => exact adds_of_history rfl
    | eof => exact adds_notify s .eof
    | failed error => exact adds_notify s (.error error)
  generalize s.notifyEnd outcome = t at htold ⊢
  have hshut : Adds Entry.IsUnguarded t t.shutDown :=
    adds_unguarded { t with uplink := t.uplink.close, state := t.state.moveTo .closed } rfl
  refine htold.trans (hshut.trans ?_)
  split
  · exact adds_unguarded { t.shutDown with task := .closing outcome } rfl
  · exact adds_finish t.shutDown outcome

/-- A session that has stopped working logs no more operations. -/
theorem adds_step (h : s.task.isWorking = false) : Adds Entry.IsUnguarded s s.step := by
  cases htask : s.task with
  | attempting operation => rw [htask] at h; cases h
  | decoding => rw [htask] at h; cases h
  | concluding ending =>
    rw [step_concluding htask]
    exact adds_stepConclusion s ending
  | closing outcome =>
    rcases step_closing htask with ⟨result, rest, -, hstep⟩ | hlull | ⟨-, hstep⟩
    · rw [hstep]
      exact (adds_unguarded { s.putCloses rest with peer := none } rfl).trans
        (adds_finish _ outcome)
    · exact hlull.adds
    · rw [hstep]
      exact adds_of_history rfl
  | ended outcome =>
    rw [step_of_halted (by simp only [isHalted, htask])]
    exact adds_of_history rfl
  | stuck =>
    rw [step_of_halted (by simp only [isHalted, htask])]
    exact adds_of_history rfl

/-- Nor does the rest of the run. -/
theorem adds_run (h : s.task.isWorking = false) : Adds Entry.IsUnguarded s s.run := by
  have hrun : s.run.task.isWorking = false ∧ Adds Entry.IsUnguarded s s.run :=
    keeps_runFor (P := fun t => t.task.isWorking = false ∧ Adds Entry.IsUnguarded s t)
      (fun t ht => ⟨isWorking_step ht.1, ht.2.trans (adds_step ht.1)⟩) s.work
      ⟨h, adds_of_history rfl⟩
  exact hrun.2

/-- The operations of a whole log are those of the work. -/
theorem Ticks.run (h : s.Ticks limit?) (hstopped : s.task.isWorking = false) :
    Paced limit? s.run.history ∧ pending? s.run.history = pending? s.history := by
  obtain ⟨rest, hlog, hguarded⟩ := adds_run hstopped
  have hhistory : s.run.history = rest.reverse ++ s.history := by
    rw [← List.reverse_reverse s.run.history]
    exact (congrArg List.reverse hlog).trans
      (by rw [List.reverse_append, log, List.reverse_reverse])
  rw [hhistory]
  exact h.paced.append fun entry hmem => hguarded entry (List.mem_reverse.1 hmem)

/-- Once it has stopped working, the limit makes no difference to a session. -/
theorem EndsLike.of_stopped (h : EndsLike s t) (hstopped : s.task.isWorking = false) :
    s.run.log = t.run.log ∧ s.run.outcome? = t.run.outcome? := by
  have hsame : ∀ moves, (s.runFor moves).task.isWorking = false ∧
      (s.runFor moves).unlimited = s.unlimited.runFor moves := by
    intro moves
    induction moves with
    | zero => exact ⟨hstopped, rfl⟩
    | succ moves ih =>
      rw [runFor_succ', runFor_succ', ← ih.2]
      -- A session that has stopped working does not wait in an operation any more.
      refine ⟨isWorking_step ih.1, unlimited_step ?_⟩
      intro operation until? hawaits
      have hstopped' := ih.1
      rw [hawaits.task] at hstopped'
      cases hstopped'
  have hrun : s.run.unlimited = s.unlimited.run := by
    have hhalted : s.run.unlimited.isHalted = true := isHalted_run s
    rw [← run_of_halted hhalted, show s.run.unlimited = s.unlimited.runFor s.work from
      (hsame s.work).2, run_runFor]
  exact ⟨(congrArg Session.log hrun).trans h.log, (congrArg Session.outcome? hrun).trans h.outcome⟩

/-! ### How the work ends -/

/-- How the work of a session ends, compared with the same session without its limit. -/
inductive Stop (limit? : Option Nat) (s t : Session) : Prop where
  /-- Nothing is pending, unless a shutdown was requested. -/
  | stopped {ending : Ending} (task : s.task = .concluding ending) (ticks : s.Ticks limit?)
      (other : ending ≠ .failed .connectionTimeout)
      (pending : ending ≠ .cancelled → pending? s.history = none) (same : EndsLike s t)
  /-- The limit is reached. Without it, whatever comes next comes later. -/
  | expired {limit : Nat} {start : Entry} {later : List Entry}
      (task : s.task = .concluding (.failed .connectionTimeout)) (ticks : s.Ticks limit?)
      (limited : limit? = some limit) (pending : pending? s.history = some start)
      (now : s.now = start.time + limit) (log : t.run.log = s.log ++ later)
      (late : ∀ entry ∈ later, s.now < entry.time)
  /-- Nothing happens any more. -/
  | stuck (task : s.task = .stuck) (ticks : s.Ticks limit?) (unlimited : limit? = none)
      (same : EndsLike s t)

/-- A session whose work has ended does not work. -/
theorem Stop.isWorking (h : Stop limit? s t) : s.task.isWorking = false := by
  cases h with
  | stopped task => rw [task]; rfl
  | expired task => rw [task]; rfl
  | stuck task => rw [task]; rfl

/-- However its work ends, the watchdog and the clock agree with the log. -/
theorem Stop.ticks (h : Stop limit? s t) : s.Ticks limit? := by
  cases h with
  | stopped _ ticks => exact ticks
  | expired _ ticks => exact ticks
  | stuck _ ticks => exact ticks

/-- A session is in time and comes to the same end as without its limit, or its work has ended. -/
inductive Pace (limit? : Option Nat) (s t : Session) : Prop where
  | going (timed : s.Timed limit?) (prompt : s.Prompt) (ends : EndsLike s t)
  | stopped (h : Stop limit? s t)

/-- A session at work goes on in time, or the limit stops it. -/
theorem pace_step (hpos : ∀ limit, limit? = some limit → 0 < limit)
    (hworks : s.task.isWorking = true) (h : Pace limit? s t) : Pace limit? s.step t := by
  cases h with
  | stopped h =>
    rw [h.isWorking] at hworks
    cases hworks
  | going htimed hprompt hends =>
    by_cases hexpired : ∃ operation until?, Awaits s operation until? ∧
        (s.watchdog.poll s.now).1 = true
    · obtain ⟨operation, until?, hawaits, hpoll⟩ := hexpired
      have hunderway := htimed.underway hawaits.task
      obtain ⟨hstep, limit, hlimit, hnow⟩ := expires_of_poll hawaits hunderway hpoll
      obtain ⟨start, hpending, -⟩ := hunderway.pending
      have hstart := (hunderway.ticks.paced.pending?_eq_some hpending).2
      -- The limit is not zero, so nothing that the owner has planned is due.
      have hahead : IsAhead s.schedule s.now := by
        rcases hprompt with hzero | hahead
        · have := hpos limit hlimit
          omega
        · exact hahead
      obtain ⟨later, hlog, hlate⟩ := later_of_awaits hawaits hahead
      rw [hstep]
      exact .stopped (.expired rfl (hunderway.ticks.congr rfl rfl rfl) hlimit hpending
        (hnow.trans (by rw [hstart])) (hends.log.symm.trans hlog) hlate)
    · have hpoll : ∀ operation until?, Awaits s operation until? →
          (s.watchdog.poll s.now).1 = false := by
        intro operation until? hawaits
        cases hp : (s.watchdog.poll s.now).1 with
        | false => rfl
        | true => exact absurd ⟨operation, until?, hawaits, hp⟩ hexpired
      exact .going (timed_step hworks htimed hpoll) (hprompt.works (works_step hworks))
        (hends.step hpoll)

/-- A configuration has an idle limit if it sets one that is not zero. -/
theorem idleTimeout_eq_some {config : Config} {limit : Nat} :
    config.idleTimeout = some limit ↔ config.timeout = some limit ∧ 0 < limit := by
  simp only [Config.idleTimeout, Option.filter_eq_some_iff, bne_iff_ne, Nat.pos_iff_ne_zero]

/-- At the start nothing has taken any time. -/
theorem pace_start (connection : Connection) (plan : Plan) :
    Pace connection.config.idleTimeout (start connection plan)
      (start connection.unlimited plan) := by
  have hprompt : (start connection plan).Prompt :=
    Prompt.works (.inl rfl) (works_start connection plan)
  refine .going (timed_start connection plan) hprompt ?_
  constructor <;> rw [unlimited_start]

/-- Every session gets to the end of its work, with its limit kept so far. -/
theorem exists_stop (connection : Connection) (plan : Plan) :
    ∃ moves, Stop connection.config.idleTimeout ((start connection plan).runFor moves)
      (start connection.unlimited plan) := by
  -- Every session stops working, and up to then the invariant is kept.
  obtain ⟨moves, hpace, hstopped, -⟩ := exists_stopped
    (fun _ => pace_step fun _ h => (idleTimeout_eq_some.1 h).2) (pace_start connection plan)
  refine ⟨moves, ?_⟩
  cases hpace with
  | stopped h => exact h
  | going htimed _ hends =>
    cases htimed with
    | attempting htask => rw [htask] at hstopped; cases hstopped
    | decoding htask => rw [htask] at hstopped; cases hstopped
    | stopped htask ticks other pending => exact .stopped htask ticks other pending hends
    | stuck htask ticks unlimited => exact .stuck htask ticks unlimited hends

/-- A session is in time as long as it works. -/
theorem timed_of_working (connection : Connection) (plan : Plan) (moves : Nat)
    (hworks : ((start connection plan).runFor moves).task.isWorking = true) :
    ((start connection plan).runFor moves).Timed connection.config.idleTimeout := by
  have hpace := keeps_working (fun _ => pace_step fun _ h => (idleTimeout_eq_some.1 h).2)
    (pace_start connection plan) hworks
  cases hpace with
  | going htimed => exact htimed
  | stopped h =>
    rw [h.isWorking] at hworks
    cases hworks

/-- The operations of every session follow each other without a gap and within the limit. -/
theorem paced_run (connection : Connection) (plan : Plan) :
    Paced connection.config.idleTimeout (start connection plan).run.history := by
  obtain ⟨moves, hstop⟩ := exists_stop connection plan
  rw [← run_runFor moves]
  exact (hstop.ticks.run hstop.isWorking).1

/-! ### What the owner is told -/

/-- Every call of the owner stands in the log. -/
theorem exists_of_mem_notices {notice : Notice} (h : notice ∈ s.notices) :
    ∃ entry ∈ s.history, entry.event = .notified notice := by
  rw [notices_eq] at h
  obtain ⟨entry, hmem, hnotice⟩ := List.mem_filterMap.1 h
  refine ⟨entry, List.mem_reverse.1 hmem, ?_⟩
  cases hevent : entry.event <;> rw [hevent] at hnotice <;> cases hnotice
  rfl

/-- While a session works its owner is told no failure. -/
theorem Ticks.not_mem_notices (h : s.Ticks limit?) (error : Error) :
    Notice.error error ∉ s.notices := by
  intro hmem
  obtain ⟨entry, hentry, hevent⟩ := exists_of_mem_notices hmem
  have hcall := h.calls entry hentry
  rw [hevent] at hcall
  cases hcall

/-- Only a session that was timed out has a timeout for its outcome. -/
theorem outcomeOf_ne_connectionTimeout (stopRequested : Bool) (state : State) {ending : Ending}
    (h : ending ≠ .failed .connectionTimeout) :
    outcomeOf stopRequested state ending ≠ .failed .connectionTimeout := by
  unfold outcomeOf
  split
  · simp
  · split
    · simp
    · split <;> simp [Error.closedEarly]
    · simp
    · intro heq
      cases heq
      exact h rfl

/-- A session that the limit does not stop does not time out. -/
theorem not_timedOut_of_concluding (hticks : s.Ticks limit?) {ending : Ending}
    (htask : s.task = .concluding ending) (hother : ending ≠ .failed .connectionTimeout) :
    .error .connectionTimeout ∉ s.run.notices ∧
      s.run.outcome? ≠ some (.failed .connectionTimeout) := by
  obtain ⟨hnotices, -, houtcome⟩ := run_concluding s htask
  have hne := outcomeOf_ne_connectionTimeout s.stopRequested s.state hother
  rw [hnotices, houtcome]
  -- The last call tells the outcome, and so neither of them is a timeout.
  generalize outcomeOf s.stopRequested s.state ending = outcome at hne
  refine ⟨?_, ?_⟩
  · rw [List.mem_append, not_or]
    refine ⟨hticks.not_mem_notices _, ?_⟩
    cases outcome with
    | eof => simp [Outcome.lastCalls]
    | shutdown => simp [Outcome.lastCalls]
    | failed error =>
      simp only [Outcome.lastCalls, List.mem_singleton, Notice.error.injEq]
      rintro rfl
      exact hne rfl
  · split
    · exact fun heq => hne (Option.some.inj heq)
    · simp

/-- A session that nobody has stopped and that fails tells so at once. -/
theorem log_of_failed {error : Error} (htask : s.task = .concluding (.failed error))
    (hcalm : s.stopRequested = false) :
    ∃ call after, s.run.log = s.log ++ call :: after ∧
      call.event = .notified (.error error) ∧ call.time = s.now := by
  have houtcome : outcomeOf s.stopRequested s.state (.failed error) = .failed error := by
    rw [hcalm]
    rfl
  have hflow : Flow ({ s with reactions := (s.reactions.take (.error error)).2 }.record
      (.notified (.error error))) s.run := by
    rw [← run_step, step_concluding htask]
    have hend := flow_notifyEnd s (.failed error)
    rw [houtcome] at hend
    exact ((works_actAll _ _).flow.trans hend).trans (flow_runFor _ _)
  obtain ⟨added, hadded, -⟩ := hflow.history
  refine ⟨{ s with reactions := (s.reactions.take (.error error)).2 }.entry
    (.notified (.error error)), added.reverse, ?_, rfl, rfl⟩
  rw [log, hadded]
  simp [record, entry, log]

/-- A session that nobody has stopped and that fails comes to this outcome, unless its stream
never closes. -/
theorem outcome_of_failed {error : Error} (htask : s.task = .concluding (.failed error))
    (hcalm : s.stopRequested = false) :
    .error error ∈ s.run.notices ∧
      (s.run.outcome? = some (.failed error) ∨ s.run.ClosesForever) := by
  obtain ⟨hnotices, -, houtcome⟩ := run_concluding s htask
  have hfailed : outcomeOf s.stopRequested s.state (.failed error) = .failed error := by
    rw [hcalm]
    rfl
  rw [hfailed] at hnotices houtcome
  constructor
  · rw [hnotices]
    exact List.mem_append_right _ (List.mem_singleton_self _)
  · split at houtcome
    · exact .inl houtcome
    · exact .inr (closesForever_of_concluding htask houtcome)

/-! ### The limit -/

/-- What an idle limit does to a session. The other session is the same one without it. -/
structure KeepsLimit (limit : Nat) (session free : Session) : Prop where
  /-- The owner is told of a timeout exactly if an operation is overdue. -/
  told : .error .connectionTimeout ∈ session.run.notices ↔ HasOverdue limit free.run.log
  /-- The session then comes to this outcome, unless its stream never closes. -/
  outcome : HasOverdue limit free.run.log →
    session.run.outcome? = some (.failed .connectionTimeout) ∨ session.run.ClosesForever
  /-- It comes to this outcome for no other reason. -/
  only : session.run.outcome? = some (.failed .connectionTimeout) → HasOverdue limit free.run.log
  /-- Up to the instant at which the limit has passed since the beginning of the operation the
  logs are the same. At this instant the owner is told. -/
  instant : HasOverdue limit free.run.log → ∃ before start since call after later,
    session.run.log = before ++ start :: (since ++ call :: after) ∧
    free.run.log = before ++ start :: (since ++ later) ∧
    start.event.isBeginning = true ∧ (∀ entry ∈ since, entry.event.isSettled = false) ∧
    call.event = .notified (.error .connectionTimeout) ∧ call.time = start.time + limit ∧
    ∀ entry ∈ later, start.time + limit < entry.time
  /-- If nothing is overdue, the limit makes no difference. -/
  same : ¬ HasOverdue limit free.run.log →
    session.run.log = free.run.log ∧ session.run.outcome? = free.run.outcome?
  /-- An operation begins at the instant at which the one before it is complete. -/
  seamless : ∀ log, log = session.run.log ∨ log = free.run.log → ∀ before start after,
    log = before ++ start :: after → start.event.isBeginning = true →
    start.time = lastSettled before.reverse
  /-- An operation that is complete was so within the limit. -/
  inTime : ∀ before entry after, session.run.log = before ++ entry :: after →
    entry.event.isSettled = true → entry.time ≤ lastSettled before.reverse + limit
  /-- No wait lasts longer than the limit. -/
  waits : ∀ moves, (session.runFor moves).task.isWorking = true →
    (session.runFor moves).now ≤ lastSettled (session.runFor moves).history + limit

/-- A session that was stopped by its limit has a place in its log at which an operation began
that is overdue. -/
theorem exists_overdue {limit : Nat} {start : Entry} {later : List Entry}
    (hpending : pending? s.history = some start) (hnow : s.now = start.time + limit)
    (hlog : t.run.log = s.log ++ later) (hlate : ∀ entry ∈ later, s.now < entry.time) :
    ∃ before since, s.log = before ++ start :: since ∧ start.event.isBeginning = true ∧
      (∀ entry ∈ since, entry.event.isSettled = false) ∧ HasOverdue limit t.run.log := by
  obtain ⟨since, earlier, hhistory, hbegins, hsince⟩ := exists_of_pending? hpending
  have hsplit : s.log = earlier.reverse ++ start :: since.reverse := by
    rw [log, hhistory]
    simp
  have hunsettled : ∀ entry ∈ since.reverse, entry.event.isSettled = false := fun entry hmem =>
    hsince entry (List.mem_reverse.1 hmem)
  refine ⟨earlier.reverse, since.reverse, hsplit, hbegins, hunsettled, earlier.reverse, start,
    since.reverse ++ later, ?_, hbegins, ?_⟩
  · rw [hlog, hsplit, List.append_assoc]
    rfl
  · -- Up to now the operation was not complete, and whatever comes next comes too late.
    intro entry hmem hsettled
    rcases List.mem_append.1 hmem with hmem | hmem
    · rw [hunsettled entry hmem] at hsettled
      cases hsettled
    · have hlt := hlate entry hmem
      omega

/-- A session that nobody has stopped tells of its timeout when the limit has passed since the
operation began. Up to then its log is the one without the limit. -/
theorem instant_of_expired {limit : Nat} {start : Entry} {later : List Entry}
    (htask : s.task = .concluding (.failed .connectionTimeout))
    (hcalm : s.stopRequested = false) (hpending : pending? s.history = some start)
    (hnow : s.now = start.time + limit) (hlog : t.run.log = s.log ++ later)
    (hlate : ∀ entry ∈ later, s.now < entry.time) :
    ∃ before start since call after later,
      s.run.log = before ++ start :: (since ++ call :: after) ∧
      t.run.log = before ++ start :: (since ++ later) ∧
      start.event.isBeginning = true ∧ (∀ entry ∈ since, entry.event.isSettled = false) ∧
      call.event = .notified (.error .connectionTimeout) ∧ call.time = start.time + limit ∧
      ∀ entry ∈ later, start.time + limit < entry.time := by
  obtain ⟨before, since, hsplit, hbegins, hsince, -⟩ := exists_overdue hpending hnow hlog hlate
  obtain ⟨call, after, hfront, hcall, htime⟩ := log_of_failed htask hcalm
  refine ⟨before, start, since, call, after, later, ?_, ?_, hbegins, hsince, hcall,
    htime.trans hnow, hnow ▸ hlate⟩
  · rw [hfront, hsplit, List.append_assoc]
    rfl
  · rw [hlog, hsplit, List.append_assoc]
    rfl

/-- Nothing is overdue in a session that its limit does not stop. -/
theorem not_hasOverdue_of_stopped {limit : Nat} (hticks : s.Ticks (some limit))
    (hstopped : s.task.isWorking = false) (hpending : pending? s.history = none)
    (hsame : EndsLike s t) : ¬ HasOverdue limit t.run.log := by
  obtain ⟨hpaced, hnone⟩ := hticks.run hstopped
  rw [← (hsame.of_stopped hstopped).1]
  exact hpaced.not_hasOverdue (hnone.trans hpending)

/-- A session that times out has an operation that is overdue, whoever requests what. -/
theorem hasOverdue_of_told (connection : Connection) (plan : Plan) {limit : Nat}
    (hlimit : connection.config.idleTimeout = some limit)
    (htold : .error .connectionTimeout ∈ (start connection plan).run.notices) :
    HasOverdue limit (start connection.unlimited plan).run.log := by
  obtain ⟨moves, hstop⟩ := exists_stop connection plan
  rw [← run_runFor moves] at htold
  cases hstop with
  | stopped htask ticks other => exact absurd htold (not_timedOut_of_concluding ticks htask other).1
  | expired _ _ hlimited hpending hnow hlog hlate =>
    cases hlimit.symm.trans hlimited
    obtain ⟨-, -, -, -, -, hoverdue⟩ := exists_overdue hpending hnow hlog hlate
    exact hoverdue
  | stuck _ _ hunlimited =>
    rw [hlimit] at hunlimited
    cases hunlimited

/-- Nobody has requested a shutdown up to some moment if nobody does in the whole session. -/
theorem calm_of_stopped (connection : Connection) (plan : Plan) {moves : Nat}
    (hstopped : ((start connection plan).runFor moves).task.isWorking = false)
    (hcalm : ∀ entry ∈ (start connection plan).run.log, entry.event.isRequest = false) :
    ((start connection plan).runFor moves).stopRequested = false := by
  obtain ⟨rest, hlog, -⟩ := adds_run hstopped
  rw [run_runFor] at hlog
  rw [(obeys_runFor connection plan moves).requested]
  refine List.any_eq_false.2 ?_
  intro entry hmem
  rw [hcalm entry (hlog ▸ List.mem_append_left _ (List.mem_reverse.2 hmem))]
  decide

/-- In every session that nobody shuts down the limit is kept. -/
theorem keepsLimit (connection : Connection) (plan : Plan) {limit : Nat}
    (hlimit : connection.config.idleTimeout = some limit)
    (hcalm : ∀ entry ∈ (start connection plan).run.log, entry.event.isRequest = false) :
    KeepsLimit limit (start connection plan) (start connection.unlimited plan) := by
  have hpaced := paced_run connection plan
  rw [hlimit] at hpaced
  -- What does not depend on how the session ends.
  have hseamless : ∀ log, log = (start connection plan).run.log ∨
      log = (start connection.unlimited plan).run.log → ∀ before start after,
      log = before ++ start :: after → start.event.isBeginning = true →
      start.time = lastSettled before.reverse := by
    rintro log (rfl | rfl) before start after hsplit hbegins
    · exact hpaced.time_of_begins hsplit hbegins
    · exact (paced_run connection.unlimited plan).time_of_begins hsplit hbegins
  have hinTime : ∀ before entry after,
      (start connection plan).run.log = before ++ entry :: after →
      entry.event.isSettled = true → entry.time ≤ lastSettled before.reverse + limit :=
    fun before entry after hsplit hsettled => hpaced.time_of_settled hsplit hsettled limit rfl
  have hwaits : ∀ moves, ((start connection plan).runFor moves).task.isWorking = true →
      ((start connection plan).runFor moves).now
        ≤ lastSettled ((start connection plan).runFor moves).history + limit :=
    fun moves hworks => (timed_of_working connection plan moves hworks).ticks.inTime limit hlimit
  -- The rest is said of the session at the moment at which its work ends.
  obtain ⟨moves, hstop⟩ := exists_stop connection plan
  rw [hlimit] at hstop
  have hrun := run_runFor moves (start connection plan)
  have hquiet := calm_of_stopped connection plan hstop.isWorking hcalm
  have hattentive := (obeys_runFor connection plan moves).task
  generalize (start connection plan).runFor moves = s at hstop hrun hquiet hattentive
  cases hstop with
  | @stopped ending htask ticks other pending same =>
    have hnone : pending? s.history = none := by
      refine pending ?_
      intro hcancelled
      rw [Attentive, htask] at hattentive
      rw [hattentive hcancelled] at hquiet
      cases hquiet
    have hstopped : s.task.isWorking = false := by rw [htask]; rfl
    have hnot := not_hasOverdue_of_stopped ticks hstopped hnone same
    have hends := same.of_stopped hstopped
    obtain ⟨htold, hnever⟩ := not_timedOut_of_concluding ticks htask other
    rw [hrun] at hends htold hnever
    constructor
    · exact iff_of_false htold hnot
    · exact fun hoverdue => absurd hoverdue hnot
    · exact fun houtcome => absurd houtcome hnever
    · exact fun hoverdue => absurd hoverdue hnot
    · exact fun _ => hends
    · exact hseamless
    · exact hinTime
    · exact hwaits
  | @expired limit' start later htask _ hlimited hpending hnow hlog hlate =>
    cases hlimited
    obtain ⟨-, -, -, -, -, hoverdue⟩ := exists_overdue hpending hnow hlog hlate
    have hinstant := instant_of_expired htask hquiet hpending hnow hlog hlate
    obtain ⟨htold, houtcome⟩ := outcome_of_failed htask hquiet
    rw [hrun] at hinstant htold houtcome
    constructor
    · exact iff_of_true htold hoverdue
    · exact fun _ => houtcome
    · exact fun _ => hoverdue
    · exact fun _ => hinstant
    · exact fun hnot => absurd hoverdue hnot
    · exact hseamless
    · exact hinTime
    · exact hwaits
  | stuck _ _ hunlimited => cases hunlimited

/-- Without a limit no session times out. -/
theorem not_timedOut_of_unlimited (connection : Connection) (plan : Plan)
    (hlimit : connection.config.idleTimeout = none) :
    .error .connectionTimeout ∉ (start connection plan).run.notices ∧
      (start connection plan).run.outcome? ≠ some (.failed .connectionTimeout) := by
  obtain ⟨moves, hstop⟩ := exists_stop connection plan
  rw [← run_runFor moves]
  cases hstop with
  | stopped htask ticks other => exact not_timedOut_of_concluding ticks htask other
  | expired _ _ hlimited =>
    rw [hlimit] at hlimited
    cases hlimited
  | stuck htask ticks =>
    rw [run_of_halted (by simp only [isHalted, htask]), outcome?, htask]
    exact ⟨ticks.not_mem_notices _, by simp⟩

/-- **The idle limit fires exactly when it must.** In a session without a shutdown request, and
with a limit that is not zero, the owner is told of a timeout if and only if an operation is not
complete when the limit has passed since the one before it was complete, and it is told at
exactly that instant; an operation that is complete at that instant is not late. Without a
limit, or with a limit of zero, there are no timeouts. -/
theorem idle_limit_exact (connection : Connection) (plan : Plan) :
    (∀ limit, connection.config.timeout = some limit → 0 < limit →
      (∀ entry ∈ (start connection plan).run.log, entry.event.isRequest = false) →
      KeepsLimit limit (start connection plan) (start connection.unlimited plan)) ∧
    (connection.config.timeout = none ∨ connection.config.timeout = some 0 →
      .error .connectionTimeout ∉ (start connection plan).run.notices ∧
      (start connection plan).run.outcome? ≠ some (.failed .connectionTimeout)) := by
  constructor
  · intro limit hlimit hpos hcalm
    exact keepsLimit connection plan (idleTimeout_eq_some.2 ⟨hlimit, hpos⟩) hcalm
  · intro hnone
    refine not_timedOut_of_unlimited connection plan ?_
    rcases hnone with hnone | hzero
    · rw [Config.idleTimeout, hnone]
      rfl
    · rw [Config.idleTimeout, hzero]
      rfl

/-- A server whose reads take as long as a limit of ten allows, twice, and then longer. -/
def lateServer : Plan :=
  .serving [.delay 10, .result (.ok (Utf8.encode "HTTP/1.1 200 OK\r\n\r\n")),
    .delay 10, .result (.ok (Utf8.encode "HELLO")), .delay 11]

/-- With the limit, the third read is overdue, and so nothing else can have been the reason for
the timeout that the owner is told of. Without a limit, the body comes to its end. -/
theorem idle_limit_exact_lateServer :
    (start (Connection.sample.withTimeout 10) lateServer).run.outcome?
      = some (.failed .connectionTimeout) ∧
    HasOverdue 10 (start (Connection.sample.withTimeout 10).unlimited lateServer).run.log ∧
    (start .sample lateServer).run.outcome? = some .eof ∧
    .error .connectionTimeout ∉ (start .sample lateServer).run.notices := by
  have houtcome : (start (Connection.sample.withTimeout 10) lateServer).run.outcome?
      = some (.failed .connectionTimeout) := by decide +kernel
  have hcalm : ∀ entry ∈ (start (Connection.sample.withTimeout 10) lateServer).run.log,
      entry.event.isRequest = false := by decide +kernel
  have hkeeps := (idle_limit_exact (Connection.sample.withTimeout 10) lateServer).1 10 rfl
    (by decide) hcalm
  exact ⟨houtcome, hkeeps.only houtcome, by decide +kernel,
    ((idle_limit_exact .sample lateServer).2 (.inl rfl)).1⟩

end Session

end NtripClient
