import NtripClient.Proofs.Session.Clock

/-!
# `NtripClient.Proofs.Session.Unlimited`: a session without its idle limit

What an idle limit does is said by comparing two sessions: one with the limit, and the same one
without it, `Session.unlimited`. Both make the same moves as long as no operation waits
(`unlimited_step`). An operation that waits may be woken up by its limit. If the limit has not
been reached, that was for nothing: the session waits on, and comes to the same end
(`EndsLike.step`). If it has been reached, nothing would have happened up to now without the
limit either, and whatever would happen comes later (`later_of_awaits`).
-/

set_option autoImplicit false

namespace NtripClient

/-- The connection without its idle limit, which the request does not depend on. -/
def Connection.unlimited (connection : Connection) : Connection :=
  { connection with
    config := { connection.config with timeout := none }
    request_eq := connection.request_eq }

namespace Session

variable {s t : Session}

/-- The session without its idle limit. -/
def unlimited (s : Session) : Session :=
  { s with connection := s.connection.unlimited, watchdog := Watchdog.new none 0 }

/-! ### What the limit does not matter for -/

/-- The owner gets the same reply. -/
theorem unlimited_respond (s : Session) (action : Action) :
    s.unlimited.respond action = ((s.respond action).1.unlimited, (s.respond action).2) := by
  -- The owner's handles and the uplink are the same.
  have hheld : s.unlimited.held = s.held := rfl
  have huplink : s.unlimited.uplink = s.uplink := rfl
  cases action with
  | send message =>
    simp only [respond, hheld, huplink]
    cases s.held.sender with
    | false => rfl
    | true => cases s.uplink.send message <;> rfl
  | shutdown =>
    simp only [respond, hheld]
    cases s.held.stopper <;> rfl
  | isShutdown => rfl
  | isActive => rfl
  | release handle => rfl

/-- The owner does the same. -/
theorem unlimited_act (s : Session) (action : Action) :
    (s.act action).unlimited = s.unlimited.act action := by
  simp only [act, unlimited_respond]
  rfl

/-- The owner does all the same, one after the other. -/
theorem unlimited_actAll (s : Session) (actions : List Action) :
    (s.actAll actions).unlimited = s.unlimited.actAll actions := by
  induction actions generalizing s with
  | nil => rfl
  | cons action rest ih =>
    show ((s.act action).actAll rest).unlimited = (s.unlimited.act action).actAll rest
    rw [ih, unlimited_act]

/-- The owner is told the same, and does the same in return. -/
theorem unlimited_notify (s : Session) (notice : Notice) :
    (s.notify notice).unlimited = s.unlimited.notify notice :=
  unlimited_actAll _ _

/-- The session comes to the same outcome. -/
theorem unlimited_finish (s : Session) (outcome : Outcome) :
    (s.finish outcome).unlimited = s.unlimited.finish outcome :=
  unlimited_actAll _ _

/-- The same operation begins, or is turned away. -/
theorem unlimited_attempt (s : Session) (operation : Operation) :
    (s.attempt operation).unlimited = s.unlimited.attempt operation := by
  simp only [attempt, apply_ite unlimited]
  rfl

/-- The same shutdown requests are noticed. -/
theorem unlimited_heed (s : Session) : s.heed.unlimited = s.unlimited.heed := by
  simp only [heed, apply_ite unlimited]
  rfl

/-- The owner does the same at an instant. -/
theorem unlimited_actAt (s : Session) (instant : Nat) :
    (s.actAt instant).unlimited = s.unlimited.actAt instant :=
  unlimited_actAll _ _

/-- A sleep that ends at the same instant is the same. -/
theorem unlimited_sleep (s : Session) (wake? : Option Nat) :
    (s.sleep wake?).unlimited = s.unlimited.sleep wake? := by
  have hschedule : s.unlimited.schedule = s.schedule := rfl
  unfold sleep
  rw [hschedule]
  cases s.schedule with
  | nil => cases wake? <;> rfl
  | cons entry rest =>
    cases wake? with
    | none => exact unlimited_actAt _ _
    | some wake =>
      simp only [apply_ite unlimited, unlimited_actAt]
      rfl

/-! ### Results -/

/-- The same candidate is tried next. -/
theorem unlimited_connectNext (s : Session) (candidate : Nat) (last : IoError)
    (candidates : Candidates) :
    (s.connectNext candidate last candidates).unlimited
      = s.unlimited.connectNext candidate last candidates := by
  cases candidates with
  | nil => rfl
  | cons endpoint others => exact unlimited_attempt _ _

/-- The lookup is used in the same way. -/
theorem unlimited_resolved (s : Session) (result : Except IoError Candidates) :
    (s.resolved result).unlimited = s.unlimited.resolved result := by
  cases result with
  | error cause => rfl
  | ok candidates =>
    cases candidates with
    | nil => rfl
    | cons endpoint others => exact unlimited_connectNext _ _ _ _

/-- An attempt is used in the same way. -/
theorem unlimited_connected (s : Session) (candidate : Nat) (others : Candidates)
    (result : Except IoError Peer) :
    (s.connected candidate others result).unlimited
      = s.unlimited.connected candidate others result := by
  cases result with
  | error cause => exact unlimited_connectNext _ _ _ _
  | ok peer => exact unlimited_attempt _ _

/-- A write is used in the same way. -/
theorem unlimited_written (s : Session) (purpose : Purpose) (bytes : Bytes)
    (result : Except IoError Nat) :
    (s.written purpose bytes result).unlimited = s.unlimited.written purpose bytes result := by
  cases result with
  | error cause =>
    simp only [written, apply_ite unlimited]
    rfl
  | ok limit =>
    simp only [written, apply_ite unlimited]
    rfl

/-- A flush is used in the same way. -/
theorem unlimited_flushed (s : Session) (purpose : Purpose) (result : Except IoError Unit) :
    (s.flushed purpose result).unlimited = s.unlimited.flushed purpose result := by
  cases result with
  | error cause => rfl
  | ok u =>
    cases purpose with
    | request => rfl
    | uplink => exact unlimited_attempt _ _

/-- A read is used in the same way. -/
theorem unlimited_readable (s : Session) (result : Except IoError Bytes) :
    (s.readable result).unlimited = s.unlimited.readable result := by
  cases result with
  | error cause => rfl
  | ok bytes =>
    simp only [readable, apply_ite unlimited]
    rfl

/-- The same is decoded: the sizes that the decoder allows are no matter of time. -/
theorem unlimited_stepDecoder (s : Session) :
    s.stepDecoder.unlimited = s.unlimited.stepDecoder := by
  have hsame : s.unlimited.decoder.advance s.unlimited.limits = s.decoder.advance s.limits := rfl
  unfold stepDecoder
  rw [hsame]
  cases s.decoder.advance s.limits with
  | mk signal decoder =>
    cases signal with
    | more => exact unlimited_attempt _ _
    | proceed => rfl
    | accepted status =>
      simp only [apply_ite unlimited]
      rfl
    | headers map =>
      simp only [apply_ite unlimited]
      show (if s.stopRequested then _ else _) = if s.stopRequested then _ else _
      split
      · rfl
      · exact congrArg (fun t : Session => t.enter _) (unlimited_notify { s with decoder } _)
    | data bytes =>
      simp only [apply_ite unlimited]
      show (if s.stopRequested then _ else _) = if s.stopRequested then _ else _
      split
      · rfl
      · exact unlimited_notify { s with decoder } _
    | finished => rfl
    | failed error => rfl

/-- The owner gets the same last call. -/
theorem unlimited_notifyEnd (s : Session) (outcome : Outcome) :
    (s.notifyEnd outcome).unlimited = s.unlimited.notifyEnd outcome := by
  cases outcome with
  | shutdown => rfl
  | eof => exact unlimited_notify s .eof
  | failed error => exact unlimited_notify s (.error error)

/-- The session winds up in the same way. -/
theorem unlimited_stepConclusion (s : Session) (ending : Ending) :
    (s.stepConclusion ending).unlimited = s.unlimited.stepConclusion ending := by
  have hsame : outcomeOf s.unlimited.stopRequested s.unlimited.state ending
      = outcomeOf s.stopRequested s.state ending := rfl
  rw [stepConclusion, stepConclusion, hsame, ← unlimited_notifyEnd]
  generalize s.notifyEnd (outcomeOf s.stopRequested s.state ending) = t
  simp only [apply_ite unlimited, unlimited_finish]
  rfl

/-! ### Moves -/

/-- Following a script commutes if using its result and waiting do. -/
theorem unlimited_follow {α : Type} (s : Session) (script : Script α) (final : α)
    (store : Session → Script α → Session) (finish : Session → α → Session)
    (wait : Session → Option Nat → Session)
    (hstore : ∀ t rest, (store t rest).unlimited = store t.unlimited rest)
    (hfinish : ∀ t value, (finish t value).unlimited = finish t.unlimited value)
    (hwait : ∀ until?, script.Waits s.now until? →
      (wait s until?).unlimited = wait s.unlimited until?) :
    (s.follow script final store finish wait).unlimited
      = s.unlimited.follow script final store finish wait := by
  have hnow : s.unlimited.now = s.now := rfl
  unfold follow
  rw [hnow]
  cases hturn : script.turn final s.now with
  | result value rest =>
    show (finish (store s rest) value).unlimited = finish (store s.unlimited rest) value
    rw [hfinish, hstore]
  | act actions rest =>
    show ((store s rest).actAll actions).unlimited = (store s.unlimited rest).actAll actions
    rw [unlimited_actAll, hstore]
  | proceed next => exact hstore s next
  | wait until? => exact hwait until? (Script.waits_of_turn hturn)

/-- An operation commutes unless it waits. -/
theorem unlimited_stepOperation {operation : Operation} (htask : s.task = .attempting operation)
    (h : ∀ until?, ¬ Awaits s operation until?) :
    (s.stepOperation operation).unlimited = s.unlimited.stepOperation operation := by
  -- If the script has to wait, a shutdown request must have been made.
  have hwait : ∀ until?, s.WaitsFor until? operation →
      (s.wait until?).unlimited = s.unlimited.wait until? := by
    intro until? hwaits
    cases hstop : s.stopRequested with
    | true =>
      have hstop' : s.unlimited.stopRequested = true := hstop
      rw [wait, wait, if_pos hstop, if_pos hstop']
      rfl
    | false => exact absurd ⟨htask, hstop, hwaits⟩ (h until?)
  cases operation with
  | resolve => exact unlimited_follow s _ _ _ _ _ (fun _ _ => rfl) unlimited_resolved hwait
  | connect candidate endpoint others =>
    exact unlimited_follow s _ _ _ _ _ (fun _ _ => rfl)
      (fun t result => unlimited_connected t candidate others result) hwait
  | write purpose bytes =>
    cases bytes with
    | nil => rfl
    | cons b bs =>
      exact unlimited_follow s _ _ _ _ _ (fun _ _ => rfl)
        (fun t result => unlimited_written t purpose (b :: bs) result)
        fun until? hwaits => hwait until? ⟨List.cons_ne_nil b bs, hwaits⟩
  | flush purpose =>
    exact unlimited_follow s _ _ _ _ _ (fun _ _ => rfl)
      (fun t result => unlimited_flushed t purpose result) hwait
  | read =>
    simp only [stepOperation, apply_ite unlimited]
    show (if s.arrived.isEmpty then _ else _) = if s.arrived.isEmpty then _ else _
    split
    · rename_i hempty
      refine unlimited_follow s _ _ _ _ _ (fun _ _ => rfl) unlimited_readable ?_
      intro until? hwaits
      cases hstop : s.stopRequested with
      | true =>
        have hstop' : s.unlimited.stopRequested = true := hstop
        rw [waitForBytes, waitForBytes, if_pos hstop, if_pos hstop']
        rfl
      | false =>
        by_cases hquiet : s.state.isActive = true → s.uplink.queue = []
        · exact absurd ⟨htask, hstop, List.isEmpty_iff.1 hempty, hwaits, hquiet⟩ (h until?)
        · obtain ⟨hactive, message, uplink, htake⟩ := exists_take hquiet
          have htaken : s.unlimited.waitForBytes until?
              = ({ s with uplink }.unlimited.settle).attempt (.write .uplink message) :=
            waitForBytes_of_message (s := s.unlimited) hstop hactive htake until?
          rw [waitForBytes_of_message hstop hactive htake, htaken]
          exact unlimited_attempt _ _
    · rfl

/-- A move does not depend on the limit unless an operation waits. -/
theorem unlimited_step (h : ∀ operation until?, ¬ Awaits s operation until?) :
    s.step.unlimited = s.unlimited.step := by
  have htask' : s.unlimited.task = s.task := rfl
  unfold step
  rw [htask']
  cases htask : s.task with
  | attempting operation => exact unlimited_stepOperation htask (h operation)
  | decoding => exact unlimited_stepDecoder s
  | concluding ending => exact unlimited_stepConclusion s ending
  | closing outcome =>
    exact unlimited_follow s _ _ _ _ _ (fun _ _ => rfl) (fun _ _ => unlimited_finish _ _)
      fun until? _ => unlimited_sleep s until?
  | ended outcome => rfl
  | stuck => rfl

/-- The session starts in the same way. -/
theorem unlimited_start (connection : Connection) (plan : Plan) :
    (start connection plan).unlimited = start connection.unlimited plan := by
  have hblank : (blank connection plan).unlimited = blank connection.unlimited plan := rfl
  rw [start_eq, start_eq, unlimited_attempt, ← hblank, ← unlimited_actAll]
  rfl

/-! ### Waiting with and without the limit -/

/-- Without its limit the session comes to the same end as the other one. -/
structure EndsLike (s t : Session) : Prop where
  log : s.unlimited.run.log = t.run.log
  outcome : s.unlimited.run.outcome? = t.run.outcome?

/-- A move that is the same without the limit does not change the end. -/
theorem EndsLike.of_eq {next : Session} (h : EndsLike s t)
    (heq : next.unlimited = s.unlimited.step) : EndsLike next t := by
  have hrun : next.unlimited.run = s.unlimited.run := by rw [heq, run_step]
  exact ⟨hrun ▸ h.log, hrun ▸ h.outcome⟩

/-- A wait that has begun goes on at a later instant, before its end. -/
theorem Awaits.later {operation : Operation} {until? : Option Nat} (h : Awaits s operation until?)
    {now : Nat} (hnow : ∀ instant, until? = some instant → now < instant) (watchdog : Watchdog) :
    Awaits { s with now, watchdog } operation until? := by
  obtain ⟨htask, hcalm, hwaits⟩ := h
  refine ⟨htask, hcalm, ?_⟩
  cases operation with
  | resolve => exact Script.Waits.later hwaits hnow
  | connect candidate endpoint others => exact Script.Waits.later hwaits hnow
  | write purpose bytes => exact ⟨hwaits.1, hwaits.2.later hnow⟩
  | flush purpose => exact Script.Waits.later hwaits hnow
  | read => exact ⟨hwaits.1, hwaits.2.1.later hnow, hwaits.2.2⟩

/-- It does not depend on the limit whether a session waits. -/
theorem Awaits.unlimited {operation : Operation} {until? : Option Nat}
    (h : Awaits s operation until?) : Awaits s.unlimited operation until? := by
  obtain ⟨htask, hcalm, hwaits⟩ := h
  refine ⟨htask, hcalm, ?_⟩
  cases operation <;> exact hwaits

/-- Without a limit a session sleeps as long as its wait. -/
theorem step_unlimited_of_awaits {operation : Operation} {until? : Option Nat}
    (h : Awaits s operation until?) :
    s.unlimited.step = (s.unlimited.sleep until?).heed := by
  have hearliest : earliest until? none = until? := by cases until? <;> rfl
  have hidle : s.unlimited.idle until?
      = (s.unlimited.sleep (earliest until? none)).heed := rfl
  rw [step_of_awaits h.unlimited, hidle, hearliest]

/-- A session that is woken up on its way sleeps on to the same instant. Only if nothing
happens any more is it stuck at another one. -/
theorem sleep_again (wake? : Option Nat) {now : Nat} (hlater : s.now ≤ now)
    (hahead : IsAhead s.schedule now) :
    { s with now }.sleep wake? = s.sleep wake? ∨ (wake? = none ∧ s.schedule = []) := by
  rcases wake_cases s.schedule wake? with
    ⟨instant, action, rest, hs, hle⟩ | ⟨wake, rfl, hwake⟩ | hnothing
  · have hlt : now < instant := hahead (instant, action) (by rw [hs]; rfl)
    have hmax : max now instant = max s.now instant := by omega
    have hagain : { s with now }.sleep wake? = { s with now }.actAt (max now instant) :=
      sleep_of_due hs hle
    rw [hagain, sleep_of_due hs hle, hmax]
    exact .inl rfl
  · have hagain : { s with now }.sleep (some wake) = { s with now := wake } :=
      sleep_of_ahead hwake
    rw [hagain, sleep_of_ahead hwake]
    exact .inl rfl
  · exact .inr hnothing

/-- A request that nobody has made is not heeded. -/
theorem heed_of_calm (h : s.stopRequested = false) : s.heed = s :=
  if_neg (by rw [h]; decide)

/-- A session that is woken up by its limit too early comes to the same end. -/
theorem endsLike_early {operation : Operation} {until? : Option Nat}
    (h : Awaits s operation until?) {now : Nat} (hlater : s.now ≤ now)
    (hnow : ∀ instant, until? = some instant → now < instant)
    (hahead : IsAhead s.schedule now) (hends : EndsLike s t) (watchdog : Watchdog) :
    EndsLike { s with now, watchdog } t := by
  have hstep := step_unlimited_of_awaits h
  have hagain : ({ s with now, watchdog } : Session).unlimited.step
      = (({ s.unlimited with now } : Session).sleep until?).heed :=
    step_unlimited_of_awaits (h.later hnow watchdog)
  have hwoken : IsAhead s.unlimited.schedule now := hahead
  -- Waking early and sleeping again ends at the same instant, unless nothing is to come.
  rcases sleep_again (s := s.unlimited) until? hlater hwoken with heq | ⟨rfl, hnil⟩
  · have hrun : ({ s with now, watchdog } : Session).unlimited.run = s.unlimited.run := by
      rw [← run_step, hagain, heq, ← hstep, run_step]
    exact ⟨hrun ▸ hends.log, hrun ▸ hends.outcome⟩
  · -- Nothing happens any more, and the two sessions are stuck with the same log.
    have hstuck : ∀ u : Session, u.schedule = [] → u.stopRequested = false →
        (u.sleep none).heed = { u with task := .stuck } := by
      intro u hu hcalm
      rw [sleep_of_nothing hu]
      exact heed_of_calm hcalm
    have hrun : s.unlimited.run = { s.unlimited with task := .stuck } := by
      rw [← run_step, hstep.trans (hstuck _ hnil h.calm)]
      exact run_of_halted rfl
    have hrun' : ({ s with now, watchdog } : Session).unlimited.run
        = { s.unlimited with now, task := .stuck } := by
      rw [← run_step, hagain.trans (hstuck _ hnil h.calm)]
      exact run_of_halted rfl
    constructor
    · rw [hrun', ← hends.log, hrun]
      rfl
    · rw [hrun', ← hends.outcome, hrun]
      rfl

/-- An alarm that goes off before the end of the wait comes first. -/
theorem earliest_alarm {until? : Option Nat} {alarm : Nat}
    (h : ∀ instant, until? = some instant → alarm < instant) :
    earliest until? (some alarm) = some alarm := by
  cases until? with
  | none => rfl
  | some instant => exact congrArg some (Nat.min_eq_right (Nat.le_of_lt (h instant rfl)))

/-- An alarm that goes off later does not count. -/
theorem earliest_until {until? : Option Nat} {alarm : Nat}
    (h : ¬ ∀ instant, until? = some instant → alarm < instant) :
    earliest until? (some alarm) = until? := by
  rw [Classical.not_forall] at h
  obtain ⟨instant, h⟩ := h
  rw [Classical.not_imp] at h
  obtain ⟨rfl, hnot⟩ := h
  exact congrArg some (Nat.min_eq_left (Nat.le_of_not_lt hnot))

/-- A session that waits, and has not reached its limit, comes to the same end as without it. -/
theorem endsLike_idle {operation : Operation} {until? : Option Nat} {watchdog : Watchdog}
    (hawaits : Awaits s operation until?) (hpoll : s.watchdog.poll s.now = (false, watchdog))
    (h : EndsLike s t) : EndsLike s.step t := by
  have hidle : s.step = ({ s with watchdog }.sleep (earliest until? watchdog.alarm?)).heed := by
    rw [step_of_awaits hawaits, idle, hpoll]
    rfl
  have hfree := step_unlimited_of_awaits hawaits
  -- If the limit does not come first, it makes no difference.
  have hwhole : earliest until? watchdog.alarm? = until? → EndsLike s.step t := by
    intro heq
    refine h.of_eq ?_
    rw [hidle, heq, unlimited_heed, unlimited_sleep, hfree]
    rfl
  cases halarm : watchdog.alarm? with
  | none => exact hwhole (by rw [halarm]; cases until? <;> rfl)
  | some alarm =>
    have hlater := Watchdog.lt_alarm_of_poll hpoll halarm
    by_cases hends : ∀ instant, until? = some instant → alarm < instant
    · rw [halarm, earliest_alarm hends] at hidle
      rcases wake_cases s.schedule (some alarm) with
        ⟨instant, action, rest, hs, hle⟩ | ⟨wake, hsome, hahead⟩ | ⟨hnone, -⟩
      · -- The owner acts first, with the limit and without it.
        have hdue : ({ s with watchdog } : Session).sleep (some alarm)
            = ({ s with watchdog } : Session).actAt (max s.now instant) := sleep_of_due hs hle
        have hdue' : s.unlimited.sleep until? = s.unlimited.actAt (max s.now instant) := by
          refine sleep_of_due hs ?_
          intro wake hwake
          exact Nat.le_of_lt (Nat.lt_of_le_of_lt (hle alarm rfl) (hends wake hwake))
        refine h.of_eq ?_
        rw [hidle, hdue, unlimited_heed, unlimited_actAt, hfree, hdue']
        rfl
      · -- The limit wakes the session up, and has moved on meanwhile.
        cases hsome
        have hwoken : s.step = { s with now := alarm, watchdog } := by
          rw [hidle, show ({ s with watchdog } : Session).sleep (some alarm)
            = { s with now := alarm, watchdog } from sleep_of_ahead hahead]
          exact heed_of_calm hawaits.calm
        rw [hwoken]
        exact endsLike_early hawaits (Nat.le_of_lt hlater) hends hahead h watchdog
      · cases hnone
    · exact hwhole (by rw [halarm, earliest_until hends])

/-- As long as the limit is not reached, a session comes to the same end as without it. -/
theorem EndsLike.step (h : EndsLike s t)
    (hpoll : ∀ operation until?, Awaits s operation until? →
      (s.watchdog.poll s.now).1 = false) : EndsLike s.step t := by
  by_cases hwaits : ∃ operation until?, Awaits s operation until?
  · obtain ⟨operation, until?, hawaits⟩ := hwaits
    exact endsLike_idle hawaits (Prod.ext (hpoll operation until? hawaits) rfl) h
  · refine h.of_eq (unlimited_step ?_)
    intro operation until? hawaits
    exact hwaits ⟨operation, until?, hawaits⟩

/-- Without the limit, whatever happens after a wait that has begun comes later than now. -/
theorem later_of_awaits {operation : Operation} {until? : Option Nat}
    (h : Awaits s operation until?) (hahead : IsAhead s.schedule s.now) :
    ∃ later, s.unlimited.run.log = s.log ++ later ∧ ∀ entry ∈ later, s.now < entry.time := by
  have hstep := step_unlimited_of_awaits h
  rw [← run_step]
  rcases sleep_wakes s.unlimited fun _ => h.waits.lt with
    ⟨-, -, hstuck⟩ | ⟨now, schedule, due, hwakes⟩
  · refine ⟨[], ?_, fun entry hmem => by cases hmem⟩
    have hcalm : ({ s.unlimited with task := .stuck } : Session).stopRequested = false := h.calm
    rw [hstep, hstuck, heed_of_calm hcalm, run_of_halted rfl]
    exact (List.append_nil _).symm
  · have hlt : s.now < now := hwakes.takesTime hahead
    have hflow : Flow { s.unlimited with now, schedule } s.unlimited.step.run := by
      rw [hstep, hwakes.eq]
      exact ((works_actAll _ due).flow.trans (works_heed _).flow).trans (flow_runFor _ _)
    obtain ⟨added, hadded, -, htimes⟩ := hflow.history
    refine ⟨added.reverse, ?_, ?_⟩
    · exact (congrArg List.reverse hadded).trans List.reverse_append
    · intro entry hmem
      have := (htimes entry (List.mem_reverse.1 hmem)).1
      exact Nat.lt_of_lt_of_le hlt this

end Session

end NtripClient
