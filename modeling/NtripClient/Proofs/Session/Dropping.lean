import NtripClient.Proofs.Session.Keeping
import NtripClient.Proofs.Session.Sending
import NtripClient.Session.Select

/-!
# `NtripClient.Proofs.Session.Dropping`: dropping handles changes nothing

A session whose owner drops handles, and the same session with an owner who keeps them, make the
same moves as long as nothing is waited for. In a wait the first one may be woken up only to drop
a handle. Then it is ahead of the second one in time, and waits on. `Trails` relates the two: the
second one may still be asleep at an earlier instant, and will sleep past the instant of the first
(`Sleeps`). Every move of the first one is a move of the second one, or was made in vain
(`Trails.step`). At the end both have done the same, at the same instants (`Trails.run`).
-/

set_option autoImplicit false

namespace NtripClient

namespace Session

variable {a b : Session}

/-! ### Sleeping -/

/-- Time may go on in both sessions. -/
theorem Together.setNow (h : Together a b) {now : Nat} (hlater : a.now ≤ now) :
    Together { a with now } { b with now } :=
  { h with
    same := congrArg (fun s : Session => { s with now }) h.same
    reach := fun limit hlimit =>
      Nat.le_trans (h.reach limit hlimit) (Nat.add_le_add_right hlater limit) }

/-- If nothing is due at an instant, going there is all. -/
theorem actAt_of_ahead {s : Session} {now : Nat} (h : IsAhead s.schedule now) :
    s.actAt now = { s with now } := by
  unfold actAt
  cases hs : s.schedule with
  | nil => rfl
  | cons entry rest =>
    have hlt := h entry (by rw [hs]; rfl)
    have hnot : ¬ decide (entry.1 ≤ now) = true := by simpa using hlt
    rw [List.takeWhile_cons, if_neg hnot, List.dropWhile_cons, if_neg hnot, ← hs]
    rfl

/-- A session that fell asleep earlier, and has something to do by the later of two instants,
wakes up then. -/
theorem sleep_of_not_ahead {s : Session} {now first : Nat} {wake? : Option Nat}
    (hasleep : s.now = now ∨ (s.now ≤ now ∧ IsAhead s.schedule now))
    (hfirst : ∀ entry ∈ s.schedule, first ≤ entry.1)
    (hbefore : ∀ wake, wake? = some wake → max now first ≤ wake)
    (hdue : ¬ IsAhead s.schedule (max now first)) :
    s.sleep wake? = s.actAt (max now first) := by
  obtain ⟨entry, hhead, hentry⟩ : ∃ entry, s.schedule.head? = some entry ∧
      ¬ max now first < entry.1 := by
    simpa only [IsAhead, Classical.not_forall, Classical.not_imp, exists_prop] using hdue
  obtain ⟨others, hcons⟩ := List.head?_eq_some_iff.1 hhead
  have hle := hfirst entry (List.mem_of_mem_head? hhead)
  have hmax : max s.now entry.1 = max now first := by
    rcases hasleep with heq | ⟨hnow, hlater⟩
    · omega
    · have := hlater entry hhead
      omega
  rw [sleep_of_due hcons fun wake hsome => ?_, hmax]
  have := hbefore wake hsome
  omega

/-- What comes of sleeping, if the second session may have fallen asleep earlier. -/
inductive Slept (a b : Session) (wake? : Option Nat) : Prop where
  /-- Both wake up at the same instant. -/
  | together (h : Together (a.sleep wake?) (b.sleep wake?))
  /-- The first one wakes up only to drop handles, and the second one sleeps on. -/
  | early {now : Nat} (h : Together (a.sleep wake?) { b with now }) (later : a.now ≤ now)
      (wake : ∀ instant, wake? = some instant → now < instant) (ahead : IsAhead b.schedule now)
  /-- Nothing happens to either of them any more. -/
  | stuck (first : a.sleep wake? = { a with task := .stuck })
      (second : b.sleep wake? = { b with task := .stuck })

/-- Both sessions sleep, and what wakes only one of them is that its owner drops handles. -/
theorem sleeps (h : Together a { b with now := a.now }) {wake? : Option Nat}
    (hasleep : b.now = a.now ∨ (b.now ≤ a.now ∧ IsAhead b.schedule a.now))
    (hwake : ∀ instant, wake? = some instant → a.now < instant)
    (hfair : (a.sleep wake?).HandlesSuffice) : Slept a b wake? := by
  have hschedule : b.schedule = restrictTimed Action.keepsHandles a.schedule := h.schedule
  rcases wake_cases a.schedule wake? with
    ⟨instant, action, rest, hs, hle⟩ | ⟨wake, rfl, hahead⟩ | ⟨rfl, hs⟩
  · -- The owner of the first session acts, and maybe that of the second one as well.
    have hsleep := sleep_of_due hs hle
    rw [hsleep] at hfair
    have hboth : Together (a.actAt (max a.now instant)) (b.actAt (max a.now instant)) :=
      h.actAt (Nat.le_max_left _ _) hfair
    have hbefore : ∀ wake, wake? = some wake → max a.now instant ≤ wake := by
      intro wake hsome
      exact Nat.max_le.2 ⟨Nat.le_of_lt (hwake wake hsome), hle wake hsome⟩
    by_cases hahead : IsAhead b.schedule (max a.now instant)
    · rw [actAt_of_ahead hahead, ← hsleep] at hboth
      by_cases hends : wake? = some (max a.now instant)
      · -- The wait is over at the same instant.
        refine .together ?_
        rw [show b.sleep wake? = { b with now := max a.now instant } by
          rw [hends]
          exact sleep_of_ahead hahead]
        exact hboth
      · -- The wait of the second one goes on, and nothing was due for it.
        refine .early hboth (Nat.le_max_left _ _) ?_ hahead
        intro wake hsome
        have hne : wake ≠ max a.now instant := fun heq => hends (heq ▸ hsome)
        have := hbefore wake hsome
        omega
    · -- Something is due for the second session, too, and this is the instant.
      have hfirst : ∀ entry ∈ b.schedule, instant ≤ entry.1 := by
        intro entry hmem
        have htimely : IsTimely ((instant, action) :: rest) := hs ▸ h.timely
        exact htimely.first_le entry (hs ▸ (List.mem_filter.1 (hschedule ▸ hmem)).1)
      refine .together ?_
      rw [hsleep, sleep_of_not_ahead hasleep hfirst hbefore hahead]
      exact hboth
  · -- The wait is over before the owners act.
    have hahead' : IsAhead b.schedule wake := by
      rw [hschedule]
      exact isAhead_restrictTimed h.timely hahead
    refine .together ?_
    rw [sleep_of_ahead hahead, sleep_of_ahead hahead']
    exact h.setNow (Nat.le_of_lt (hwake wake rfl))
  · -- Nobody acts any more.
    have hnone : b.schedule = [] := by
      rw [hschedule, hs]
      rfl
    exact .stuck (sleep_of_nothing hs) (sleep_of_nothing hnone)

/-! ### Two sessions at different instants -/

/-- The session waits, and will sleep past an instant. -/
inductive Sleeps (s : Session) (now : Nat) : Prop where
  | awaits {operation : Operation} {until? : Option Nat} (h : Awaits s operation until?)
      (wait : ∀ instant, until? = some instant → now < instant)
      (alarm : ∀ instant, s.watchdog.alarm? = some instant → now < instant)
  | lingers {until? : Option Nat} (h : s.LingersFor until?)
      (wait : ∀ instant, until? = some instant → now < instant)

/-- The two sessions do the same. The second one may still be asleep at an earlier instant. -/
structure Trails (a b : Session) : Prop where
  together : Together a { b with now := a.now }
  now : b.now ≤ a.now
  asleep : b.now = a.now ∨ (IsAhead b.schedule a.now ∧ b.Sleeps a.now)

/-- Neither session makes another move, and both have done the same. -/
structure BothStuck (a b : Session) : Prop where
  first : a.task = .stuck
  second : b.task = .stuck
  effects : b.effects = a.effects

/-- Sessions that do the same at the same instant are not apart. -/
theorem Together.trails (h : Together a b) : Trails a b := by
  have hnow : { b with now := a.now } = b := by
    rw [← h.now]
  exact ⟨hnow.symm ▸ h, Nat.le_of_eq h.now, .inl h.now⟩

/-- A session that waits with closing its stream sleeps. -/
theorem step_of_lingers {s : Session} {until? : Option Nat} (h : s.LingersFor until?) :
    s.step = s.sleep until? := by
  obtain ⟨⟨outcome, htask⟩, hwaits⟩ := h
  have hturn := hwaits.turn (.ok ())
  simp only [step, htask, stepClosing, follow, hturn]

/-- What comes of a move of the first session. -/
inductive Paired (a b : Session) : Prop where
  | both (h : Trails a.step b.step)
  | first (h : Trails a.step b)
  | stuck (h : BothStuck a.step b.step)

/-- At the same instant the second session is not asleep any more. -/
theorem Trails.together_of_now (h : Trails a b) (heq : b.now = a.now) : Together a b := by
  have hsame := h.together
  rw [← heq] at hsame
  exact hsame

/-- A wait that is over later than an instant, with its limit, ends later without it, too. -/
theorem lt_of_lt_earliest {until? alarm? : Option Nat} {now : Nat}
    (h : ∀ wake, earliest until? alarm? = some wake → now < wake) :
    (∀ instant, until? = some instant → now < instant) ∧
      (∀ alarm, alarm? = some alarm → now < alarm) := by
  cases until? with
  | none => exact ⟨nofun, h⟩
  | some instant =>
    cases alarm? with
    | none => exact ⟨h, nofun⟩
    | some alarm =>
      have hlt : now < min instant alarm := h _ rfl
      refine ⟨?_, ?_⟩
      · intro _ hsome
        cases hsome
        omega
      · intro _ hsome
        cases hsome
        omega

/-- A session whose limit is reached fails instead of waiting. -/
theorem idle_of_expired {s : Session} (h : (s.watchdog.poll s.now).1 = true)
    (until? : Option Nat) : s.idle until? = s.fail .connectionTimeout := by
  have hpoll : s.watchdog.poll s.now = (true, (s.watchdog.poll s.now).2) := Prod.ext h rfl
  rw [idle, hpoll]
  rfl

/-- The session after it has asked its watchdog. -/
def polled (s : Session) : Session :=
  { s with watchdog := (s.watchdog.poll s.now).2 }

/-- A session whose limit has not been reached sleeps, until then at most. -/
theorem step_of_unexpired {s : Session} {operation : Operation} {until? : Option Nat}
    (hawaits : Awaits s operation until?) (h : (s.watchdog.poll s.now).1 = false) :
    s.step = (s.polled.sleep (earliest until? s.watchdog.alarm?)).heed := by
  have hpoll : s.watchdog.poll s.now = (false, s.polled.watchdog) := Prod.ext h rfl
  rw [step_of_awaits hawaits, idle, ← Watchdog.alarm?_poll hpoll, hpoll]
  rfl

/-- A move in which both wait for an operation, and the limit has not been reached. -/
theorem paired_of_unexpired (h : Trails a b) {operation : Operation} {until? : Option Nat}
    (ha : Awaits a operation until?) (hb : Awaits b operation until?)
    (hasleep : b.now = a.now ∨ IsAhead b.schedule a.now)
    (hpoll : (a.watchdog.poll a.now).1 = false) (hpoll' : (b.watchdog.poll b.now).1 = false)
    (hfair : a.step.HandlesSuffice) : Paired a b := by
  have hsame := h.together
  have hwound : b.polled.watchdog.wound = a.polled.watchdog.wound := by
    show (b.watchdog.poll b.now).2.wound = (a.watchdog.poll a.now).2.wound
    rw [Watchdog.wound_poll hpoll, Watchdog.wound_poll hpoll']
    exact hsame.watchdog
  have halarm : b.watchdog.alarm? = a.watchdog.alarm? :=
    Watchdog.alarm?_congr hsame.watchdog
  have hpolled : Together a.polled { b.polled with now := a.polled.now } :=
    hsame.setWatchdog hwound (hsame.reach.congr (Watchdog.wound_poll hpoll).symm)
  have hstep := step_of_unexpired ha hpoll
  have hstep' := step_of_unexpired hb hpoll'
  rw [halarm] at hstep'
  -- Both watchdogs have the same alarm, so both sessions sleep until the same instant.
  have hwake : ∀ wake, earliest until? a.watchdog.alarm? = some wake → a.now < wake := by
    have hset : a.watchdog.poll a.now = (false, a.polled.watchdog) := Prod.ext hpoll rfl
    rw [← Watchdog.alarm?_poll hset]
    exact earliest_later (fun _ => ha.waits.lt) hset
  generalize hwake? : earliest until? a.watchdog.alarm? = wake? at hstep hstep' hwake
  rw [hstep] at hfair
  have hfair' : (a.polled.sleep wake?).HandlesSuffice := hfair.of_flow (works_heed _).flow
  rcases sleeps (b := b.polled) hpolled (hasleep.imp id fun hahead => ⟨h.now, hahead⟩) hwake
    hfair' with hboth | @⟨now, hearly, hlater, hwake', hahead⟩ | ⟨hs, hs'⟩
  · refine .both ?_
    rw [hstep, hstep']
    exact hboth.heed.trails
  · -- The first one has only dropped handles, and waits on.
    have hcalm : (a.polled.sleep wake?).stopRequested = false :=
      hearly.stopRequested.symm.trans hb.calm
    rw [heed_of_calm hcalm] at hstep
    have hnow : a.step.now = now := (congrArg Session.now hstep).trans hearly.now.symm
    rw [← hwake?, ← halarm] at hwake'
    obtain ⟨hwait, hlimit⟩ := lt_of_lt_earliest hwake'
    refine .first ⟨?_, ?_, .inr ⟨?_, .awaits hb ?_ ?_⟩⟩
    · rw [hnow, hstep]
      exact hearly.setWatchdog ((Watchdog.wound_poll hpoll').symm.trans hearly.watchdog)
        hearly.reach
    · rw [hnow]
      exact Nat.le_trans h.now hlater
    · rw [hnow]
      exact hahead
    · rw [hnow]
      exact hwait
    · rw [hnow]
      exact hlimit
  · -- Both are stuck, and a request that nobody has made is not heeded.
    rw [hs, heed_of_calm (s := { a.polled with task := .stuck }) ha.calm] at hstep
    rw [hs', heed_of_calm (s := { b.polled with task := .stuck }) hb.calm] at hstep'
    refine .stuck ⟨by rw [hstep], by rw [hstep'], ?_⟩
    rw [hstep, hstep']
    exact hsame.effects

/-- A move in which both wait for an operation. -/
theorem paired_of_awaits (h : Trails a b) {operation : Operation} {until? : Option Nat}
    (ha : Awaits a operation until?) (hb : Awaits b operation until?)
    (hasleep : b.now = a.now ∨ (IsAhead b.schedule a.now ∧
      ∀ alarm, b.watchdog.alarm? = some alarm → a.now < alarm))
    (hfair : a.step.HandlesSuffice) : Paired a b := by
  have hsame := h.together
  have halarm : b.watchdog.alarm? = a.watchdog.alarm? :=
    Watchdog.alarm?_congr hsame.watchdog
  -- Both have reached their limit, or neither has.
  have hpoll : (b.watchdog.poll b.now).1 = (a.watchdog.poll a.now).1 := by
    rw [Watchdog.poll_fst, Watchdog.poll_fst, halarm]
    rcases hasleep with heq | ⟨-, hlater⟩
    · rw [heq]
    · cases hsome : a.watchdog.alarm? with
      | none => rfl
      | some alarm =>
        have hlt := hlater alarm (halarm.trans hsome)
        have hnow := h.now
        exact decide_eq_decide.2 (by omega)
  cases hexpired : (a.watchdog.poll a.now).1 with
  | true =>
    have heq : b.now = a.now := by
      rcases hasleep with heq | ⟨-, hlater⟩
      · exact heq
      · rw [Watchdog.poll_fst, Option.any_eq_true] at hexpired
        obtain ⟨alarm, hsome, hle⟩ := hexpired
        have hlt := hlater alarm (halarm.trans hsome)
        exact absurd (of_decide_eq_true hle) (by omega)
    refine .both ?_
    rw [step_of_awaits ha, step_of_awaits hb, idle_of_expired hexpired,
      idle_of_expired (hpoll.trans hexpired)]
    exact ((h.together_of_now heq).fail _).trails
  | false =>
    exact paired_of_unexpired h ha hb (hasleep.imp id fun hlater => hlater.1) hexpired
      (hpoll.trans hexpired) hfair

/-- A move in which both wait with closing their streams. -/
theorem paired_of_lingers (h : Trails a b) {until? : Option Nat}
    (ha : a.LingersFor until?) (hb : b.LingersFor until?)
    (hasleep : b.now = a.now ∨ IsAhead b.schedule a.now)
    (hfair : a.step.HandlesSuffice) : Paired a b := by
  have hsame := h.together
  have hstep := step_of_lingers ha
  have hstep' := step_of_lingers hb
  rw [hstep] at hfair
  have hasleep' := hasleep.imp id fun hahead => And.intro h.now hahead
  rcases sleeps hsame hasleep' (fun _ => ha.2.lt) hfair with
    hboth | @⟨now, hearly, hlater, hwake, hahead⟩ | ⟨hs, hs'⟩
  · refine .both ?_
    rw [hstep, hstep']
    exact hboth.trails
  · -- The first one has only dropped handles, and goes on closing.
    have hnow : a.step.now = now := (congrArg Session.now hstep).trans hearly.now.symm
    refine .first ⟨?_, ?_, .inr ⟨?_, .lingers hb ?_⟩⟩
    · rw [hnow, hstep]
      exact hearly
    · rw [hnow]
      exact Nat.le_trans h.now hlater
    · rw [hnow]
      exact hahead
    · rw [hnow]
      exact hwake
  · refine .stuck ⟨by rw [hstep, hs], by rw [hstep', hs'], ?_⟩
    rw [hstep, hs, hstep', hs']
    exact hsame.effects

/-- Every move of the first session is a move of the second one, or was made in vain. -/
theorem Trails.step (h : Trails a b) (hfair : a.step.HandlesSuffice) : Paired a b := by
  rcases h.asleep with heq | ⟨hahead, hsleeps⟩
  · -- At the same instant both wait in an operation, or in the closing, or make the same move.
    have hsame := h.together_of_now heq
    by_cases hawaits : ∃ operation until?, Awaits a operation until?
    · obtain ⟨operation, until?, ha⟩ := hawaits
      exact paired_of_awaits h ha (hsame.awaits.2 ha) (.inl heq) hfair
    · by_cases hlingers : ∃ until?, a.LingersFor until?
      · obtain ⟨until?, ha⟩ := hlingers
        exact paired_of_lingers h ha (hsame.lingers.2 ha) (.inl heq) hfair
      · refine .both (hsame.step ?_ ?_ hfair).trails
        · exact fun operation until? ha => hawaits ⟨operation, until?, ha⟩
        · exact fun until? ha => hlingers ⟨until?, ha⟩
  · -- What the second one waits for, the first one waits for as well.
    cases hsleeps with
    | awaits hb hwait halarm =>
      have ha := h.together.awaits.1 (hb.later hwait b.watchdog)
      exact paired_of_awaits h ha hb (.inr ⟨hahead, halarm⟩) hfair
    | lingers hb hwait =>
      have ha := h.together.lingers.1 ⟨hb.1, hb.2.later hwait⟩
      exact paired_of_lingers h ha hb (.inr hahead) hfair

/-- At the end both sessions have done the same, and come to the same. -/
theorem Trails.run (h : Trails a b) (hfair : a.run.HandlesSuffice) :
    b.run.effects = a.run.effects ∧ b.run.outcome? = a.run.outcome? := by
  -- Induction over the moves of the first session; the second one makes some of them.
  induction a using move_induction generalizing b with
  | hhalted a hhalted =>
    have htask : b.task = a.task := h.together.task
    have hhalted' : b.isHalted = true := by
      unfold isHalted at hhalted ⊢
      rw [htask]
      exact hhalted
    rw [run_of_halted hhalted, run_of_halted hhalted']
    refine ⟨h.together.effects, ?_⟩
    rw [outcome?, outcome?, htask]
  | hmove a _ ih =>
    rw [← run_step] at hfair
    rw [← run_step a]
    have hfair' : a.step.HandlesSuffice := hfair.of_flow (flow_runFor _ _)
    cases h.step hfair' with
    | both hnext =>
      rw [← run_step b]
      exact ih hnext hfair
    | first hnext => exact ih hnext hfair
    | stuck hstuck =>
      have hend : ∀ s : Session, s.task = .stuck → s.run = s := fun s hs =>
        run_of_halted (by simp only [isHalted, hs])
      rw [← run_step b, hend _ hstuck.first, hend _ hstuck.second]
      refine ⟨hstuck.effects, ?_⟩
      rw [outcome?, outcome?, hstuck.first, hstuck.second]

/-! ### From the start -/

/-- Before anything happens both sessions are the same, but for the handles. -/
theorem together_blank (connection : Connection) (plan : Plan) :
    Together (blank connection plan) (blank connection plan.keeping) where
  same := by
    have hschedule : plan.keeping.schedule
        = restrictTimed Action.keepsHandles plan.schedule := plan.schedule_restrict
    unfold blank bare restrict
    rw [hschedule]
    rfl
  stopper := rfl
  sender := rfl
  timely := isTimely_schedule plan
  reach := by
    intro limit hlimit
    have hlimit' : connection.config.idleTimeout.filter (· != 0) = some limit := hlimit
    show max (0 + (connection.config.idleTimeout.filter (· != 0)).getD 0)
      (0 + (connection.config.idleTimeout.filter (· != 0)).getD 0) ≤ 0 + limit
    rw [hlimit', Nat.max_self]
    exact Nat.le_refl _

/-- It makes no difference whether the state can be seen. -/
theorem Together.setStatus (h : Together a b) (shows shows' : Bool) :
    Together { a with held := { a.held with status := shows } }
      { b with held := { b.held with status := shows' } } :=
  { h with }

/-- What the owner does before the start leaves the sessions together. -/
theorem together_start (connection : Connection) (plan : Plan)
    (hfair : (start connection plan).HandlesSuffice) :
    Together (start connection plan) (start connection plan.keeping) := by
  rw [start_eq] at hfair
  have hshown : ∀ s : Session, Flow s { s with
      held := { s.held with status := plan.access.showsState } } :=
    fun _ => flow_of_still rfl rfl
  have hbefore := (together_blank connection plan).actAll plan.before (hfair.of_flow
    ((hshown _).trans ((flow_record _ _).trans ((flow_enter _ _).trans
      (works_attempt _ _).flow))))
  rw [start_eq, start_eq]
  exact (((hbefore.setStatus _ _).record .started rfl).enter .resolving).attempt .resolve

/-! ### What the effects show -/

/-- The calls of the owner are among what a session does itself. -/
theorem notices_eq_effects (s : Session) :
    s.notices = s.effects.filterMap fun entry => entry.event.notice? := by
  rw [notices_eq, effects, log, List.filterMap_filterMap]
  congr 1
  funext entry
  obtain ⟨time, state, isWatched, event⟩ := entry
  cases event <;> rfl

/-- The bytes that a stream accepts are among what a session does itself. -/
theorem accepted_eq_effects (s : Session) :
    History.accepted s.history = s.effects.flatMap fun entry => entry.event.accepted := by
  unfold effects log
  induction s.history with
  | nil => rfl
  | cons entry earlier ih =>
    rw [History.accepted, ih, List.reverse_cons, List.filterMap_append, List.flatMap_append]
    congr 1
    obtain ⟨time, state, isWatched, event⟩ := entry
    cases event <;> simp [Entry.effect?, Event.accepted]

/-- Whether handles are dropped makes no difference. -/
structure DropsUnnoticed (connection : Connection) (plan : Plan) : Prop where
  /-- The session does the same as with an owner who keeps all handles, at the same instants and
  in the same states: operations, accepted writes and flushes, arrivals, calls of the owner, and
  the teardown. -/
  effects : (start connection plan).run.effects = (start connection plan.keeping).run.effects
  /-- It comes to the same. -/
  outcome : (start connection plan).run.outcome? = (start connection plan.keeping).run.outcome?
  /-- The owner gets the same calls. -/
  calls : (start connection plan).run.notices = (start connection plan.keeping).run.notices
  /-- The stream accepts the same bytes, of the request and of the messages. -/
  written : History.accepted (start connection plan).run.history
    = History.accepted (start connection plan.keeping).run.history
  /-- At every moment, however many handles are left then and when the session is woken up, a flag
  that nobody can raise any more is no shutdown request, and a queue that nobody can fill any more
  does not end a wait. -/
  waits : ∀ moves stoppers senders woken until?, let s := (start connection plan).runFor moves
    (∀ operation, s.attemptWith stoppers operation = s.attempt operation) ∧
      s.heedWith woken = s.heed ∧
      s.waitWith stoppers woken until? = s.wait until? ∧
      s.waitForBytesWith stoppers senders woken until? = s.waitForBytes until?

/-- An owner may drop handles at any moment, as long as none is used that was dropped: the session
goes on as if all of them were kept. -/
theorem drops_unnoticed (connection : Connection) (plan : Plan)
    (hfair : (start connection plan).run.HandlesSuffice) : DropsUnnoticed connection plan := by
  have hstart := together_start connection plan (hfair.of_flow (flow_runFor _ _))
  obtain ⟨heffects, houtcome⟩ := hstart.trails.run hfair
  refine ⟨heffects.symm, houtcome.symm, ?_, ?_, ?_⟩
  · rw [notices_eq_effects, notices_eq_effects, heffects]
  · rw [accepted_eq_effects, accepted_eq_effects, heffects]
  · intro moves stoppers senders woken until?
    exact ⟨attemptWith_eq _ _, heedWith_eq _ _, waitWith_eq _ _ _ _,
      waitForBytesWith_eq _ _ _ _ _⟩

/-- The owner drops the handle that shows the state when the first data comes, the ones that
request a shutdown while the session waits for more, and the ones that send data right after
sending some. -/
def lettingGo : Plan where
  lookup := [.result (.ok [{ address := .v4 ⟨10, 0, 0, 1⟩, port := 0 }])]
  attempts := [[.result (.ok
    { reads := [.result (.ok (Utf8.encode "ICY 200 OK\r\nabc")), .delay 10,
        .act [.send [1, 2], .release .sender], .delay 10, .result (.ok (Utf8.encode "def"))] })]]
  timed := [(15, .release .stopper)]
  reactions := { data := [[.release .status]] }

/-- The message is written although nobody could send another one by then, and the body ends as
the server ends it. -/
theorem drops_unnoticed_lettingGo :
    (start .sample lettingGo).run.HandlesSuffice ∧
    DropsUnnoticed .sample lettingGo ∧
    (start .sample lettingGo.keeping).run.outcome? = some .eof ∧
    History.accepted (start .sample lettingGo.keeping).run.history
      = Connection.sample.request ++ [1, 2] := by
  have hfair : (start .sample lettingGo).run.HandlesSuffice := by
    unfold HandlesSuffice
    decide +kernel
  exact ⟨hfair, drops_unnoticed .sample lettingGo hfair, by decide +kernel, by decide +kernel⟩

end Session

end NtripClient
