import NtripClient.Answer.Progress
import NtripClient.Session.Run

/-!
# `NtripClient.Session.Progress`: every session halts

`work` bounds the moves of a session. `work_step_lt` says that every move uses up some
of it, hence `isHalted_run`: after `run` the session is over, or it waits and nothing
can happen to it any more.

The bound has three parts. The load counts what cues, bytes, actions and messages may
still cause, the watchdog counts for one while its alarm lies ahead, and the rank is
the distance of the task from the end. Finishing an operation sets the alarm again, so
the rank falls by two at least whenever an operation is finished.
-/

set_option autoImplicit false

namespace NtripClient

/-! ### The idle limit -/

/-- The idle limit counts for one move at most. -/
theorem Watchdog.work_le_one (watchdog : Watchdog) (now : Nat) : watchdog.work now ≤ 1 := by
  unfold Watchdog.work
  split
  · split <;> omega
  · omega

/-- An alarm that lies ahead comes nearer. -/
theorem Watchdog.work_mono (watchdog : Watchdog) {now later : Nat} (h : now ≤ later) :
    watchdog.work later ≤ watchdog.work now := by
  unfold Watchdog.work
  split
  · split <;> split <;> omega
  · exact Nat.le_refl 0

/-! ### Scripts -/

/-- Time takes away from the work of a cue, and adds nothing. -/
theorem Cue.work_mono {α : Type} {f g : α → Nat} (hfg : ∀ a, g a ≤ f a) {now later : Nat}
    (h : now ≤ later) (cue : Cue α) : cue.work g later ≤ cue.work f now := by
  cases cue with
  | due instant => simp only [Cue.work]; split <;> split <;> omega
  | result value => simp only [Cue.work]; exact Nat.add_le_add_left (hfg value) 1
  | _ => simp [Cue.work]

/-- Time takes away from the work of a script, and adds nothing. -/
theorem Script.work_mono {α : Type} {f g : α → Nat} (hfg : ∀ a, g a ≤ f a) {now later : Nat}
    (h : now ≤ later) (script : Script α) : script.work g later ≤ script.work f now := by
  unfold Script.work
  induction script with
  | nil => simp
  | cons cue rest ih =>
    simp only [List.map_cons, List.foldr_cons]
    exact Nat.add_le_add (Cue.work_mono hfg h cue) ih

/-- A script that has run out causes no work. -/
theorem Script.work_nil {α : Type} (f : α → Nat) (now : Nat) : Script.work f now [] = 0 := rfl

/-- The work of a script is that of its cues. -/
theorem Script.work_cons {α : Type} (f : α → Nat) (now : Nat) (cue : Cue α) (rest : Script α) :
    Script.work f now (cue :: rest) = cue.work f now + Script.work f now rest := by
  simp [Script.work]

/-- When a script reaches the end of a wait, its work falls. -/
theorem Script.work_due_lt {α : Type} {f g : α → Nat} (hfg : ∀ a, g a ≤ f a)
    {now instant : Nat} (h : now < instant) (rest : Script α) :
    Script.work g instant (.due instant :: rest) < Script.work f now (.due instant :: rest) := by
  have := Script.work_mono hfg (Nat.le_of_lt h) rest
  simp only [Script.work_cons, Cue.work, h, if_true, Nat.lt_irrefl, if_false]
  omega

/-- Time takes away from the work of a stream, and adds nothing. -/
theorem Peer.work_mono {now later : Nat} (h : now ≤ later) (peer : Peer) :
    peer.work later ≤ peer.work now := by
  unfold Peer.work
  have h1 := Script.work_mono (f := readWork) (g := readWork) (fun _ => Nat.le_refl _) h peer.reads
  have h2 := Script.work_mono (f := fun _ => 0) (g := fun _ => 0) (fun _ => Nat.le_refl _) h
    peer.writes
  have h3 := Script.work_mono (f := fun _ => 0) (g := fun _ => 0) (fun _ => Nat.le_refl _) h
    peer.flushes
  have h4 := Script.work_mono (f := fun _ => 0) (g := fun _ => 0) (fun _ => Nat.le_refl _) h
    peer.closes
  omega

/-- One of the scripts of a stream counts in the work of the stream, whatever it is. -/
def Peer.Weighs {α : Type} (part : Peer → Script α) (put : Peer → Script α → Peer)
    (f : α → Nat) : Prop :=
  ∀ peer script now,
    (put peer script).work now + Script.work f now (part peer)
      = peer.work now + Script.work f now script

/-- The arriving bytes count in the work of a stream. -/
theorem Peer.weighs_reads :
    Peer.Weighs Peer.reads (fun peer reads => { peer with reads }) readWork := by
  intro peer script now
  simp only [Peer.work]
  omega

/-- The writes count in the work of a stream. -/
theorem Peer.weighs_writes :
    Peer.Weighs Peer.writes (fun peer writes => { peer with writes }) (fun _ => 0) := by
  intro peer script now
  simp only [Peer.work]
  omega

/-- The flushes count in the work of a stream. -/
theorem Peer.weighs_flushes :
    Peer.Weighs Peer.flushes (fun peer flushes => { peer with flushes }) (fun _ => 0) := by
  intro peer script now
  simp only [Peer.work]
  omega

/-- The closing counts in the work of a stream. -/
theorem Peer.weighs_closes :
    Peer.Weighs Peer.closes (fun peer closes => { peer with closes }) (fun _ => 0) := by
  intro peer script now
  simp only [Peer.work]
  omega

/-- Time takes away from the work of an attempt to connect, and adds nothing. -/
theorem attemptWork_mono {now later : Nat} (h : now ≤ later) (result : Except IoError Peer) :
    attemptWork later result ≤ attemptWork now result := by
  cases result with
  | ok peer => exact Peer.work_mono h peer
  | error _ => exact Nat.le_refl 0

/-- Time takes away from the work of all attempts to connect, and adds nothing. -/
theorem attempts_work_mono {now later : Nat} (h : now ≤ later)
    (attempts : List (Script (Except IoError Peer))) :
    (attempts.map (Script.work (attemptWork later) later)).foldr (· + ·) 0
      ≤ (attempts.map (Script.work (attemptWork now) now)).foldr (· + ·) 0 := by
  induction attempts with
  | nil => simp
  | cons script rest ih =>
    simp only [List.map_cons, List.foldr_cons]
    exact Nat.add_le_add (Script.work_mono (attemptWork_mono h) h script) ih

namespace Session

/-! ### What the parts of a move do to the load -/

/-- Recording an event does not change the task. -/
theorem task_record (s : Session) (event : Event) : (s.record event).task = s.task := rfl

/-- A change of state does not change the task. -/
theorem task_enter (s : Session) (state : State) : (s.enter state).task = s.task := rfl

/-- An action adds one message at most. -/
theorem load_act_le (s : Session) (action : Action) : (s.act action).load ≤ s.load + 7 := by
  have key : (s.respond action).1.load ≤ s.load + 7 := by
    cases action with
    | shutdown => simp only [respond]; split <;> simp [load]
    | isShutdown => simp [respond]
    | isActive => simp [respond]
    | release handle => simp [respond, load]
    | send message =>
      simp only [respond, Uplink.send]
      split
      · by_cases hopen : s.uplink.isOpen
        · simp only [hopen, if_true, load, List.length_append, List.length_singleton]
          omega
        · simp [hopen]
      · simp
  exact key

/-- An action does not change the task. -/
theorem task_act (s : Session) (action : Action) : (s.act action).task = s.task := by
  have key : (s.respond action).1.task = s.task := by
    cases action with
    | send message => simp only [respond]; split <;> (try split) <;> rfl
    | shutdown => simp only [respond]; split <;> rfl
    | _ => rfl
  exact key

/-- Each action adds one message at most. -/
theorem load_actAll_le (s : Session) (actions : List Action) :
    (s.actAll actions).load ≤ s.load + 7 * actions.length := by
  induction actions generalizing s with
  | nil => simp [actAll]
  | cons action rest ih =>
    have h1 := ih (s.act action)
    have h2 := load_act_le s action
    simp only [actAll, List.foldl_cons, List.length_cons] at h1 ⊢
    omega

/-- Actions do not change the task. -/
theorem task_actAll (s : Session) (actions : List Action) : (s.actAll actions).task = s.task := by
  induction actions generalizing s with
  | nil => rfl
  | cons action rest ih =>
    exact (ih (s.act action)).trans (task_act s action)

/-- The reactions to a notice are taken out of those that are left. -/
theorem take_work_le (reactions : Reactions) (notice : Notice) :
    (reactions.take notice).2.work + actionsWork (reactions.take notice).1 ≤ reactions.work := by
  cases notice with
  | data bytes =>
    cases h : reactions.data with
    | nil => simp [Reactions.take, Reactions.work, h, actionsWork]
    | cons first rest => simp [Reactions.take, Reactions.work, h]; omega
  | _ => simp [Reactions.take, Reactions.work, actionsWork] <;> omega

/-- Calling the owner uses up the reactions that it sets off. -/
theorem load_notify_le (s : Session) (notice : Notice) : (s.notify notice).load ≤ s.load := by
  have h1 := take_work_le s.reactions notice
  have h2 := load_actAll_le
    ({ s with reactions := (s.reactions.take notice).2 }.record (.notified notice))
    (s.reactions.take notice).1
  have h3 : ({ s with reactions := (s.reactions.take notice).2 }.record (.notified notice)).load
      + s.reactions.work = s.load + (s.reactions.take notice).2.work := by
    simp only [load, record]
    omega
  simp only [notify, actionsWork] at h1 h2 ⊢
  omega

/-- Calling the owner does not change the task. -/
theorem task_notify (s : Session) (notice : Notice) : (s.notify notice).task = s.task := by
  simp only [notify, task_actAll, task_record]

/-- An action takes no time and does not touch the idle limit. -/
theorem watchdog_act (s : Session) (action : Action) :
    (s.act action).watchdog = s.watchdog ∧ (s.act action).now = s.now := by
  have key : (s.respond action).1.watchdog = s.watchdog ∧ (s.respond action).1.now = s.now := by
    cases action with
    | send message => simp only [respond]; split <;> (try split) <;> exact ⟨rfl, rfl⟩
    | shutdown => simp only [respond]; split <;> exact ⟨rfl, rfl⟩
    | _ => exact ⟨rfl, rfl⟩
  exact key

/-- Actions take no time and do not touch the idle limit. -/
theorem watchdog_actAll (s : Session) (actions : List Action) :
    (s.actAll actions).watchdog = s.watchdog ∧ (s.actAll actions).now = s.now := by
  induction actions generalizing s with
  | nil => exact ⟨rfl, rfl⟩
  | cons action rest ih =>
    obtain ⟨h1, h2⟩ := ih (s.act action)
    obtain ⟨h3, h4⟩ := watchdog_act s action
    exact ⟨h1.trans h3, h2.trans h4⟩

/-- Calling the owner takes no time and does not touch the idle limit. -/
theorem watchdog_notify (s : Session) (notice : Notice) :
    (s.notify notice).watchdog = s.watchdog ∧ (s.notify notice).now = s.now := by
  simp only [notify]
  exact watchdog_actAll _ _

/-! ### Time -/

/-- Time takes away from the load, and adds nothing. -/
theorem load_later_le (s : Session) {later : Nat} (h : s.now ≤ later) :
    { s with now := later }.load ≤ s.load := by
  have h1 : Script.work lookupWork later s.lookup ≤ Script.work lookupWork s.now s.lookup :=
    Script.work_mono (fun _ => Nat.le_refl _) h s.lookup
  have h2 := attempts_work_mono h s.attempts
  have h3 : (s.peer.map (Peer.work later)).getD 0 ≤ (s.peer.map (Peer.work s.now)).getD 0 := by
    cases s.peer with
    | none => simp
    | some peer => simpa using Peer.work_mono h peer
  simp only [load]
  omega

/-- A wait that ends at a later instant, if it ends, and what its end takes away. -/
def Ends (s : Session) (until? : Option Nat) : Prop :=
  ∀ instant, until? = some instant →
    s.now < instant ∧
      { s with now := instant }.load + s.watchdog.work instant < s.load + s.watchdog.work s.now

/-- Every action that is due weighs more than the message that it may add. -/
theorem load_actAt_lt (s : Session) {instant later : Nat} {action : Action}
    {schedule : List (Nat × Action)} (h : s.schedule = (instant, action) :: schedule)
    (hnow : s.now ≤ later) (hdue : instant ≤ later) :
    (s.actAt later).load + (s.actAt later).watchdog.work (s.actAt later).now
        < s.load + s.watchdog.work s.now ∧ (s.actAt later).task = s.task := by
  let rest := { s with schedule := s.schedule.dropWhile (·.1 ≤ later), now := later }
  let due := s.schedule.takeWhile (·.1 ≤ later)
  have h1 : (rest.actAll (due.map Prod.snd)).load ≤ rest.load + 7 * due.length := by
    simpa using load_actAll_le rest (due.map Prod.snd)
  have h2 : rest.load + 8 * due.length = { s with now := later }.load := by
    have hlength : due.length + rest.schedule.length = s.schedule.length := by
      rw [← List.length_append]
      exact congrArg List.length List.takeWhile_append_dropWhile
    simp only [load, rest] at hlength ⊢
    omega
  -- The first action at least is due.
  have h3 : 0 < due.length := by
    simp only [due, h, List.takeWhile_cons, hdue, decide_true, if_true, List.length_cons]
    omega
  have h4 := load_later_le s hnow
  have h5 := Watchdog.work_mono s.watchdog hnow
  obtain ⟨h6, h7⟩ := watchdog_actAll rest (due.map Prod.snd)
  refine ⟨?_, task_actAll rest (due.map Prod.snd)⟩
  show (rest.actAll (due.map Prod.snd)).load
    + (rest.actAll (due.map Prod.snd)).watchdog.work (rest.actAll (due.map Prod.snd)).now < _
  rw [h6, h7]
  show _ + s.watchdog.work later < _
  omega

/-- Sleeping takes away from the work, or leaves nothing that can happen. -/
theorem load_sleep_lt (s : Session) {wake? : Option Nat} (h : s.Ends wake?) :
    ((s.sleep wake?).load + (s.sleep wake?).watchdog.work (s.sleep wake?).now
        < s.load + s.watchdog.work s.now ∧ (s.sleep wake?).task = s.task) ∨
      s.sleep wake? = { s with task := .stuck } := by
  unfold sleep
  split
  · exact .inr rfl
  · rename_i wake _
    exact .inl ⟨(h wake rfl).2, rfl⟩
  · rename_i hs
    exact .inl (load_actAt_lt s hs (Nat.le_max_left _ _) (Nat.le_max_right _ _))
  · rename_i hs
    split
    · exact .inl (load_actAt_lt s hs (Nat.le_max_left _ _) (Nat.le_max_right _ _))
    · exact .inl ⟨(h _ rfl).2, rfl⟩

/-- Sleeping uses up work. -/
theorem work_sleep_lt (s : Session) {wake? : Option Nat} (h : s.Ends wake?)
    (hrank : 0 < s.task.rank) : (s.sleep wake?).work < s.work := by
  rcases load_sleep_lt s h with ⟨hlt, htask⟩ | heq
  · simp only [work, htask]
    omega
  · rw [heq]
    show s.load + s.watchdog.work s.now + 0 < s.load + s.watchdog.work s.now + s.task.rank
    omega

/-- Sleeping uses up work, also when a shutdown request ends it. -/
theorem work_heed_sleep_lt (s : Session) {wake? : Option Nat} (h : s.Ends wake?)
    (hrank : 2 < s.task.rank) : (s.sleep wake?).heed.work < s.work := by
  unfold heed
  split
  · have hload : (s.sleep wake?).load + (s.sleep wake?).watchdog.work (s.sleep wake?).now
        ≤ s.load + s.watchdog.work s.now := by
      rcases load_sleep_lt s h with ⟨hlt, -⟩ | heq
      · omega
      · rw [heq]; exact Nat.le_refl _
    show (s.sleep wake?).load + (s.sleep wake?).watchdog.work (s.sleep wake?).now + 2 < s.work
    simp only [work]
    omega
  · exact work_sleep_lt s h (by omega)

/-- The earlier of two instants is one of them. -/
theorem earliest_eq_some {a? b? : Option Nat} {c : Nat} (h : earliest a? b? = some c) :
    a? = some c ∨ b? = some c := by
  unfold earliest at h
  split at h
  · rename_i a b
    simp only [Option.some.injEq] at h ⊢
    omega
  · exact .inl h
  · exact .inr h

/-- Idling uses up work. -/
theorem work_idle_lt (s : Session) {until? : Option Nat}
    (hends : ∀ instant, until? = some instant →
      s.now < instant ∧ { s with now := instant }.load < s.load)
    (hrank : 2 < s.task.rank) : (s.idle until?).work < s.work := by
  unfold idle
  cases hpoll : s.watchdog.poll s.now with
  | mk expired watchdog =>
    cases expired with
    | true =>
      show s.load + s.watchdog.work s.now + 2 < s.load + s.watchdog.work s.now + s.task.rank
      omega
    | false =>
      have halarm := Watchdog.alarm?_poll hpoll
      have hwork : ∀ now, watchdog.work now = s.watchdog.work now := fun now => by
        simp only [Watchdog.work, halarm]
      have hsame : { s with watchdog }.work = s.work := by
        simp only [work, load, hwork]
      simp only [Bool.false_eq_true, if_false]
      rw [← hsame]
      refine work_heed_sleep_lt { s with watchdog } ?_ hrank
      intro wake hwake
      show s.now < wake ∧ { s with now := wake }.load + watchdog.work wake
        < s.load + watchdog.work s.now
      rcases earliest_eq_some hwake with huntil | hal
      · -- The wait is over first.
        obtain ⟨hlt, hload⟩ := hends wake huntil
        have := Watchdog.work_mono watchdog (Nat.le_of_lt hlt)
        exact ⟨hlt, by omega⟩
      · -- The alarm goes off first. After that the timer needs no other turn.
        have hlt := Watchdog.lt_alarm_of_poll hpoll hal
        refine ⟨hlt, ?_⟩
        have h1 := load_later_le s (Nat.le_of_lt hlt)
        have h2 : watchdog.work s.now = 1 := by simp [Watchdog.work, hal, hlt]
        have h3 : watchdog.work wake = 0 := by simp [Watchdog.work, hal]
        omega

/-! ### Following a script -/

/-- What is known of a result and of the script after it. -/
def Follows {α : Type} (f : α → Nat) (now : Nat) (final : α) (script : Script α) (value : α)
    (rest : Script α) : Prop :=
  (script = [] ∧ rest = [] ∧ value = final) ∨
    Script.work f now rest + f value < Script.work f now script

/-- After a result a script has no more work than before. -/
theorem Follows.work_le {α : Type} {f : α → Nat} {now : Nat} {final : α} {script : Script α}
    {value : α} {rest : Script α} (h : Follows f now final script value rest) :
    Script.work f now rest ≤ Script.work f now script := by
  rcases h with ⟨hs, rfl, -⟩ | hlt
  · exact Nat.le_of_eq (by rw [hs])
  · omega

/-- Following a script uses up work, if using its result and waiting do. -/
theorem work_follow_lt {α : Type} (s : Session) {script : Script α} {final : α} (f : α → Nat)
    {store : Session → Script α → Session} {finish : Session → α → Session}
    {wait : Session → Option Nat → Session}
    (hstore : ∀ rest, Script.work f s.now rest ≤ Script.work f s.now script →
      (store s rest).load + Script.work f s.now script = s.load + Script.work f s.now rest)
    (hsame : ∀ rest, (store s rest).task = s.task ∧ (store s rest).now = s.now
      ∧ (store s rest).watchdog = s.watchdog)
    (hfinish : ∀ value rest, Follows f s.now final script value rest →
      (finish (store s rest) value).work < s.work)
    (hwait : ∀ until?, (∀ instant, until? = some instant →
        ∃ rest, script = .due instant :: rest ∧ s.now < instant) →
      (wait s until?).work < s.work) :
    (s.follow script final store finish wait).work < s.work := by
  unfold follow
  cases script with
  | nil =>
    exact hfinish final [] (.inl ⟨rfl, rfl, rfl⟩)
  | cons cue rest =>
    have hcons := Script.work_cons f s.now cue rest
    -- A script that only got lighter leaves the task and the instant as they are.
    have hput : ∀ script', Script.work f s.now script' < Script.work f s.now (cue :: rest) →
        (store s script').work < s.work := by
      intro script' hlt
      obtain ⟨h1, h2, h3⟩ := hsame script'
      have h4 := hstore script' (Nat.le_of_lt hlt)
      simp only [work, h1, h2, h3]
      omega
    cases cue with
    | delay ms =>
      -- The delay becomes a wait for an instant, which is lighter.
      refine hput _ ?_
      rw [Script.work_cons, Script.work_cons]
      simp only [Cue.work]
      split <;> omega
    | due instant =>
      simp only [Script.turn]
      split
      · rename_i hturn
        split at hturn <;> simp at hturn
      · rename_i hturn
        split at hturn <;> simp at hturn
      · rename_i hturn
        split at hturn
        · simp at hturn
        · -- The instant has come, and its cue goes.
          cases hturn
          refine hput _ ?_
          rw [hcons]
          simp only [Cue.work]
          split <;> omega
      · rename_i hturn
        split at hturn
        · -- The instant is still ahead.
          rename_i hlt
          cases hturn
          exact hwait _ fun instant h => by cases h; exact ⟨rest, rfl, hlt⟩
        · simp at hturn
    | never =>
      exact hwait none fun instant h => by simp at h
    | act actions =>
      show ((store s rest).actAll actions).work < s.work
      obtain ⟨h1, h2, h3⟩ := hsame rest
      have h4 := hstore rest (by rw [hcons]; omega)
      have h5 := load_actAll_le (store s rest) actions
      obtain ⟨h6, h7⟩ := watchdog_actAll (store s rest) actions
      rw [hcons] at h4
      simp only [Cue.work, actionsWork] at h4
      simp only [work, task_actAll, h6, h7, h1, h2, h3]
      omega
    | result value =>
      refine hfinish value rest (.inr ?_)
      rw [hcons]
      simp only [Cue.work]
      omega

/-! ### The moves -/

/-- A bound on the work of a session that begins an operation. -/
theorem work_attempt_le (s : Session) (operation : Operation)
    (h : 2 ≤ (Task.attempting operation).rank) :
    (s.attempt operation).work
      ≤ s.load + s.watchdog.work s.now + (Task.attempting operation).rank := by
  unfold attempt
  split
  · show s.load + s.watchdog.work s.now + 2 ≤ _
    omega
  · exact Nat.le_refl _

/-- The work of winding up after a failure. -/
theorem work_fail (s : Session) (error : Error) :
    (s.fail error).work = s.load + s.watchdog.work s.now + 2 := rfl

/-- A bound on the work of connecting to the next candidate. -/
theorem work_connectNext_le (s : Session) (candidate : Nat) (last : IoError)
    (candidates : Candidates) :
    (s.connectNext candidate last candidates).work
      ≤ s.load + s.watchdog.work s.now + 9 + 2 * candidates.length := by
  cases candidates with
  | nil => simp only [connectNext, work_fail]; omega
  | cons endpoint others =>
    have h := work_attempt_le (s.enter (.connecting candidate))
      (.connect candidate endpoint others) (by simp only [Task.rank]; omega)
    simp only [connectNext, List.length_cons] at h ⊢
    refine Nat.le_trans h ?_
    show s.load + s.watchdog.work s.now + (11 + 2 * others.length) ≤ _
    omega

/-- A bound on the work after a lookup. -/
theorem work_resolved_le (s : Session) (result : Except IoError Candidates) :
    (s.resolved result).work ≤ s.load + lookupWork result + 10 := by
  have hw := Watchdog.work_le_one s.settle.watchdog s.now
  unfold resolved
  split
  · show s.load + s.settle.watchdog.work s.now + 2 ≤ _
    omega
  · show s.load + s.settle.watchdog.work s.now + 2 ≤ _
    omega
  · rename_i candidates _
    refine Nat.le_trans (work_connectNext_le _ _ _ _) ?_
    show s.load + s.settle.watchdog.work s.now + 9 + 2 * (List.map _ candidates).length
      ≤ s.load + 2 * candidates.length + 10
    rw [List.length_map]
    omega

/-- A bound on the work after an attempt to connect. -/
theorem work_connected_le (s : Session) (candidate : Nat) (others : Candidates)
    (result : Except IoError Peer) :
    (s.connected candidate others result).work
      ≤ s.load + attemptWork s.now result + 10 + 2 * others.length := by
  have hw := Watchdog.work_le_one s.settle.watchdog s.now
  have htail : (s.attempts.tail.map (Script.work (attemptWork s.now) s.now)).foldr (· + ·) 0
      ≤ (s.attempts.map (Script.work (attemptWork s.now) s.now)).foldr (· + ·) 0 := by
    cases s.attempts with
    | nil => exact Nat.le_refl _
    | cons first rest => simp
  unfold connected
  cases result with
  | error cause =>
    refine Nat.le_trans (work_connectNext_le _ _ _ _) ?_
    show { s with attempts := s.attempts.tail }.load + s.settle.watchdog.work s.now + 9
      + 2 * others.length ≤ s.load + 0 + 10 + 2 * others.length
    simp only [load]
    omega
  | ok peer =>
    refine Nat.le_trans (work_attempt_le _ _ (by simp only [Task.rank]; split <;> omega)) ?_
    show { s with attempts := s.attempts.tail, peer := some peer }.load
      + s.settle.watchdog.work s.now + (Task.attempting (.write .request s.connection.request)).rank
        ≤ s.load + peer.work s.now + 10 + 2 * others.length
    simp only [load, Task.rank, Option.map_some, Option.getD_some]
    split <;> omega

/-- Waiting uses up work. -/
theorem work_wait_lt (s : Session) {until? : Option Nat}
    (hends : ∀ instant, until? = some instant →
      s.now < instant ∧ { s with now := instant }.load < s.load)
    (hrank : 2 < s.task.rank) : (s.wait until?).work < s.work := by
  unfold wait
  split
  · show s.load + s.watchdog.work s.now + 2 < s.load + s.watchdog.work s.now + s.task.rank
    omega
  · exact work_idle_lt s hends hrank

/-- A lookup uses up work. -/
theorem work_step_resolve_lt (s : Session) (h : s.task = .attempting .resolve) :
    (s.stepOperation .resolve).work < s.work := by
  have hwork : s.work = s.load + s.watchdog.work s.now + 11 := by simp only [work, h, Task.rank]
  have hstore : ∀ rest, (s.putLookup rest).load + Script.work lookupWork s.now s.lookup
      = s.load + Script.work lookupWork s.now rest := by
    intro rest
    simp only [load, putLookup]
    omega
  refine work_follow_lt s lookupWork (fun rest _ => hstore rest)
    (fun rest => ⟨rfl, rfl, rfl⟩) ?_ ?_
  · intro value rest hfollows
    have h1 := work_resolved_le (s.putLookup rest) value
    have h2 := hstore rest
    rcases hfollows with ⟨hs, rfl, rfl⟩ | hlt
    · rw [hs] at h2
      simp only [lookupWork, List.length_nil] at h1
      omega
    · omega
  · intro until? hdue
    refine work_wait_lt s ?_ (by simp only [h, Task.rank]; omega)
    intro instant hinstant
    obtain ⟨rest, hs, hlt⟩ := hdue instant hinstant
    refine ⟨hlt, ?_⟩
    have h1 := load_later_le { s with lookup := [] } (Nat.le_of_lt hlt)
    have h2 := Script.work_due_lt (f := lookupWork) (fun _ => Nat.le_refl _) hlt rest
    simp only [load, hs, Script.work, List.map_nil, List.foldr_nil] at h1 h2 ⊢
    omega

/-- An attempt to connect uses up work. -/
theorem work_step_connect_lt (s : Session) {candidate : Nat} {endpoint : Endpoint}
    {others : Candidates} (h : s.task = .attempting (.connect candidate endpoint others)) :
    (s.stepOperation (.connect candidate endpoint others)).work < s.work := by
  have hwork : s.work = s.load + s.watchdog.work s.now + (11 + 2 * others.length) := by
    simp only [work, h, Task.rank]
  -- The attempt that is under way weighs as much as its script, beside the others.
  have hsplit : ∀ now, (s.attempts.map (Script.work (attemptWork now) now)).foldr (· + ·) 0
      = Script.work (attemptWork now) now (s.attempts.headD [])
        + (s.attempts.tail.map (Script.work (attemptWork now) now)).foldr (· + ·) 0 := by
    intro now
    cases s.attempts with
    | nil => rfl
    | cons first rest => simp
  have hstore : ∀ rest, (s.putAttempt rest).load
      + Script.work (attemptWork s.now) s.now (s.attempts.headD [])
        = s.load + Script.work (attemptWork s.now) s.now rest := by
    intro rest
    simp only [load, putAttempt, hsplit, List.map_cons, List.foldr_cons]
    omega
  refine work_follow_lt s (attemptWork s.now) (fun rest _ => hstore rest)
    (fun rest => ⟨rfl, rfl, rfl⟩) ?_ ?_
  · intro value rest hfollows
    have h1 : ((s.putAttempt rest).connected candidate others value).work
        ≤ (s.putAttempt rest).load + attemptWork s.now value + 10 + 2 * others.length :=
      work_connected_le (s.putAttempt rest) candidate others value
    have h2 := hstore rest
    rcases hfollows with ⟨hs, rfl, rfl⟩ | hlt
    · rw [hs] at h2
      simp only [attemptWork] at h1
      omega
    · omega
  · intro until? hdue
    refine work_wait_lt s ?_ (by simp only [h, Task.rank]; omega)
    intro instant hinstant
    obtain ⟨rest, hs, hlt⟩ := hdue instant hinstant
    refine ⟨hlt, ?_⟩
    have h1 := load_later_le { s with attempts := s.attempts.tail } (Nat.le_of_lt hlt)
    have h2 := Script.work_due_lt (attemptWork_mono (Nat.le_of_lt hlt)) hlt rest
    simp only [load, hsplit] at h1 ⊢
    rw [hs]
    omega

section Stream

variable {α : Type} {f : α → Nat} {part : Peer → Script α} {put : Peer → Script α → Peer}

/-- Putting back a script of the stream changes the load by what was taken from it. -/
theorem load_put (s : Session) (hweighs : Peer.Weighs part put f) {rest : Script α}
    (hle : Script.work f s.now rest ≤ Script.work f s.now ((s.peer.map part).getD [])) :
    { s with peer := s.peer.map fun peer => put peer rest }.load
        + Script.work f s.now ((s.peer.map part).getD [])
      = s.load + Script.work f s.now rest := by
  cases hp : s.peer with
  | none =>
    -- Without a stream there is no script, and nothing is put back.
    simp only [hp, Option.map_none, Option.getD_none, Script.work_nil] at hle ⊢
    simp only [load, hp, Option.map_none, Option.getD_none]
    omega
  | some peer =>
    have hwork := hweighs peer rest s.now
    simp only [load, hp, Option.map_some, Option.getD_some]
    omega

/-- The load falls when a wait in a script of the stream ends. -/
theorem load_due_lt (s : Session) (hweighs : Peer.Weighs part put f) {instant : Nat}
    {rest : Script α} (hs : (s.peer.map part).getD [] = .due instant :: rest)
    (hlt : s.now < instant) : { s with now := instant }.load < s.load := by
  cases hp : s.peer with
  | none => simp [hp] at hs
  | some peer =>
    have hpart : part peer = .due instant :: rest := by simpa [hp] using hs
    have hfalls := Script.work_due_lt (f := f) (fun _ => Nat.le_refl _) hlt rest
    -- All that is beside the script gets no heavier.
    have hstream := Peer.work_mono (Nat.le_of_lt hlt) (put peer [])
    have hbeside := load_later_le { s with peer := none } (Nat.le_of_lt hlt)
    have hnow := hweighs peer [] s.now
    have hthen := hweighs peer [] instant
    rw [hpart, Script.work_nil] at hnow hthen
    simp only [load, hp, Option.map_some, Option.getD_some, Option.map_none, Option.getD_none]
      at hbeside ⊢
    omega

/-- Following a script of the stream uses up work, if using its result and waiting do. -/
theorem work_follow_stream_lt (s : Session) {script : Script α} {final : α}
    {store : Session → Script α → Session} {finish : Session → α → Session}
    {wait : Session → Option Nat → Session} (hweighs : Peer.Weighs part put f)
    (hscript : script = (s.peer.map part).getD [])
    (hstore : ∀ rest, store s rest = { s with peer := s.peer.map fun peer => put peer rest })
    (hfinish : ∀ value rest, Follows f s.now final script value rest →
      (store s rest).load + Script.work f s.now script = s.load + Script.work f s.now rest →
      (finish (store s rest) value).work < s.work)
    (hwait : ∀ until?, (∀ instant, until? = some instant →
        s.now < instant ∧ { s with now := instant }.load < s.load) →
      (wait s until?).work < s.work) :
    (s.follow script final store finish wait).work < s.work := by
  have hput : ∀ rest, Script.work f s.now rest ≤ Script.work f s.now script →
      (store s rest).load + Script.work f s.now script = s.load + Script.work f s.now rest := by
    intro rest hle
    rw [hstore, hscript]
    exact load_put s hweighs (hscript ▸ hle)
  refine work_follow_lt s f hput (fun rest => by rw [hstore]; exact ⟨rfl, rfl, rfl⟩) ?_ ?_
  · exact fun value rest hfollows => hfinish value rest hfollows (hput rest hfollows.work_le)
  · intro until? hdue
    refine hwait until? fun instant hinstant => ?_
    obtain ⟨rest, hs, hlt⟩ := hdue instant hinstant
    exact ⟨hlt, load_due_lt s hweighs (hscript.symm.trans hs) hlt⟩

end Stream

/-- A write uses up work. -/
theorem work_step_write_lt (s : Session) {purpose : Purpose} {bytes : Bytes}
    (h : s.task = .attempting (.write purpose bytes)) :
    (s.stepOperation (.write purpose bytes)).work < s.work := by
  cases bytes with
  | nil =>
    show s.load + s.watchdog.work s.now + 7 < s.work
    simp only [work, h, Task.rank, List.isEmpty_nil, if_true]
    omega
  | cons b bs =>
    have hwork : s.work = s.load + s.watchdog.work s.now + 9 := by
      simp [work, h, Task.rank]
    refine work_follow_stream_lt s Peer.weighs_writes rfl (fun _ => rfl) ?_ ?_
    · intro value rest hfollows hput
      have hle := hfollows.work_le
      have hw := Watchdog.work_le_one (s.putWrites rest).settle.watchdog s.now
      cases value with
      | error cause =>
        simp only [written]
        split
        · -- An interrupted write is made again, and its cue is gone.
          rcases hfollows with ⟨-, -, hv⟩ | hlt
          · cases hv
          · have htask : (s.putWrites rest).task.rank = 9 := by
              show s.task.rank = 9
              simp [h, Task.rank]
            show (s.putWrites rest).load + s.watchdog.work s.now + (s.putWrites rest).task.rank < _
            omega
        · show (s.putWrites rest).load + (s.putWrites rest).settle.watchdog.work s.now + 2 < _
          omega
      | ok limit =>
        simp only [written]
        split
        · show (s.putWrites rest).load + (s.putWrites rest).settle.watchdog.work s.now + 2 < _
          omega
        · show (s.putWrites rest).load + s.watchdog.work s.now
            + (if (List.drop limit (b :: bs)).isEmpty then 8 else 9) < _
          -- Either a cue is gone, or the script was empty and all bytes were accepted.
          rcases hfollows with ⟨-, -, hv⟩ | hlt
          · cases hv
            simp only [List.drop_length, List.isEmpty_nil, if_true]
            omega
          · split <;> omega
    · exact fun until? hends => work_wait_lt s hends (by simp [h, Task.rank])

/-- A flush uses up work. -/
theorem work_step_flush_lt (s : Session) {purpose : Purpose}
    (h : s.task = .attempting (.flush purpose)) :
    (s.stepOperation (.flush purpose)).work < s.work := by
  have hwork : s.work = s.load + s.watchdog.work s.now + 7 := by
    simp [work, h, Task.rank]
  refine work_follow_stream_lt s Peer.weighs_flushes rfl (fun _ => rfl) ?_ ?_
  · intro value rest hfollows hput
    have hle := hfollows.work_le
    have hw := Watchdog.work_le_one (s.putFlushes rest).settle.watchdog s.now
    cases value with
    | error cause =>
      show (s.putFlushes rest).load + (s.putFlushes rest).settle.watchdog.work s.now + 2 < _
      omega
    | ok u =>
      cases purpose with
      | request =>
        show (s.putFlushes rest).load + (s.putFlushes rest).settle.watchdog.work s.now + 5 < _
        omega
      | uplink =>
        refine Nat.lt_of_le_of_lt (work_attempt_le _ _ (by simp only [Task.rank]; omega)) ?_
        show (s.putFlushes rest).load + (s.putFlushes rest).settle.watchdog.work s.now + 4 < _
        omega
  · exact fun until? hends => work_wait_lt s hends (by simp [h, Task.rank])

/-- Waiting for bytes uses up work, also when a message ends it. -/
theorem work_waitForBytes_lt (s : Session) {until? : Option Nat}
    (hends : ∀ instant, until? = some instant →
      s.now < instant ∧ { s with now := instant }.load < s.load)
    (h : s.task = .attempting .read) : (s.waitForBytes until?).work < s.work := by
  have hwork : s.work = s.load + s.watchdog.work s.now + 4 := by simp only [work, h, Task.rank]
  unfold waitForBytes
  split
  · show s.load + s.watchdog.work s.now + 2 < s.work
    omega
  · split
    · -- A message is taken from the queue.
      rename_i message uplink htake
      have hq : s.uplink.queue.length = uplink.queue.length + 1 := by
        split at htake
        · unfold Uplink.take? at htake
          split at htake
          · simp at htake
          · rename_i hq
            cases htake
            rw [hq, List.length_cons]
        · simp at htake
      have hload : { s with uplink }.load + 7 = s.load := by
        simp only [load, hq]
        omega
      have hw := Watchdog.work_le_one { s with uplink }.settle.watchdog s.now
      refine Nat.lt_of_le_of_lt (work_attempt_le _ _ (by simp only [Task.rank]; split <;> omega)) ?_
      show { s with uplink }.load + { s with uplink }.settle.watchdog.work s.now
        + (if message.isEmpty then 8 else 9) < s.work
      split <;> omega
    · exact work_idle_lt s hends (by simp [h, Task.rank])

/-- A read takes at least one byte. -/
theorem readLimit_pos (config : Config) : 0 < config.readLimit := by
  simp only [Config.readLimit]
  omega

/-- Reading bytes that have arrived uses up work. -/
theorem work_receive_lt (s : Session) (h : s.task = .attempting .read)
    (harrived : s.arrived.isEmpty = false) : s.receive.work < s.work := by
  have hwork : s.work = s.load + s.watchdog.work s.now + 4 := by simp only [work, h, Task.rank]
  have hpos := readLimit_pos s.connection.config
  have hlen : 0 < s.arrived.length := by
    cases ha : s.arrived with
    | nil => simp [ha] at harrived
    | cons b bs => simp
  have hw := Watchdog.work_le_one s.settle.watchdog s.now
  have hload : s.receive.load + 3 * min s.connection.config.readLimit s.arrived.length
      = s.load := by
    simp only [load, receive, record, settle, Decoder.push, List.length_drop, List.length_append,
      List.length_take]
    omega
  show s.receive.load + s.settle.watchdog.work s.now + 5 < s.work
  omega

/-- Waiting for bytes and reading them uses up work. -/
theorem work_step_read_lt (s : Session) (h : s.task = .attempting .read) :
    (s.stepOperation .read).work < s.work := by
  have hwork : s.work = s.load + s.watchdog.work s.now + 4 := by simp only [work, h, Task.rank]
  rw [show s.stepOperation .read = if s.arrived.isEmpty then
      s.follow s.reads (.ok []) putReads readable waitForBytes else s.receive from rfl]
  split
  · rename_i harrived
    have hnil : s.arrived = [] := List.isEmpty_iff.1 harrived
    refine work_follow_stream_lt s Peer.weighs_reads rfl (fun _ => rfl) ?_ ?_
    · intro value rest hfollows hput
      have hle := hfollows.work_le
      have hw := Watchdog.work_le_one (s.putReads rest).settle.watchdog s.now
      cases value with
      | error cause =>
        show (s.putReads rest).load + (s.putReads rest).settle.watchdog.work s.now + 2 < _
        omega
      | ok bytes =>
        simp only [readable]
        split
        · show (s.putReads rest).load + (s.putReads rest).settle.watchdog.work s.now + 2 < _
          omega
        · -- Bytes have arrived that wait to be decoded.
          rename_i hne
          rcases hfollows with ⟨-, -, hv⟩ | hlt
          · cases hv
            simp at hne
          · -- The cue weighed as much as the bytes that it brought, and one more.
            have hload : { s.putReads rest with arrived := bytes }.load
                = (s.putReads rest).load + 4 * bytes.length := by
              simp only [load, putReads, hnil, List.length_nil]
              omega
            have htask : (s.putReads rest).task.rank = 4 := by
              show s.task.rank = 4
              simp [h, Task.rank]
            show { s.putReads rest with arrived := bytes }.load + s.watchdog.work s.now
              + (s.putReads rest).task.rank < _
            simp only [readWork] at hlt
            omega
    · exact fun until? hends => work_waitForBytes_lt s hends h
  · rename_i harrived
    exact work_receive_lt s h (by simpa using harrived)

/-- Calling the owner adds no work. -/
theorem work_notify_le (s : Session) (notice : Notice) : (s.notify notice).work ≤ s.work := by
  have h1 := load_notify_le s notice
  have h2 := task_notify s notice
  obtain ⟨h3, h4⟩ := watchdog_notify s notice
  simp only [work, h2, h3, h4]
  omega

/-- Going on with the bytes that were read uses up work. -/
theorem work_stepDecoder_lt (s : Session) (h : s.task = .decoding) :
    s.stepDecoder.work < s.work := by
  have hwork : s.work = s.load + s.watchdog.work s.now + 5 := by simp only [work, h, Task.rank]
  have hrank : s.task.rank = 5 := by simp only [h, Task.rank]
  have huses := Decoder.uses_advance s.limits s.decoder
  have hload : ∀ decoder, { s with decoder }.load + s.decoder.buffer.length
      = s.load + decoder.buffer.length := by
    intro decoder
    simp only [load]
    omega
  unfold stepDecoder
  cases hadv : s.decoder.advance s.limits with
  | mk signal decoder =>
    have hl := hload decoder
    rw [hadv] at huses
    cases signal with
    | more =>
      -- Nothing was used, and the read that follows is nearer to the end.
      have hle : decoder.buffer.length ≤ s.decoder.buffer.length := huses
      refine Nat.lt_of_le_of_lt (work_attempt_le _ _ (by simp only [Task.rank]; omega)) ?_
      show { s with decoder }.load + s.watchdog.work s.now + 4 < s.work
      omega
    | proceed =>
      -- Here and below, bytes were used.
      have hlt : decoder.buffer.length < s.decoder.buffer.length := huses
      show { s with decoder }.load + s.watchdog.work s.now + s.task.rank < s.work
      omega
    | accepted status =>
      have hlt : decoder.buffer.length < s.decoder.buffer.length := huses
      simp only
      split
      · show { s with decoder }.load + s.watchdog.work s.now + s.task.rank < s.work
        omega
      · show { s with decoder }.load + s.watchdog.work s.now + s.task.rank < s.work
        omega
    | headers map =>
      have hlt : decoder.buffer.length < s.decoder.buffer.length := huses
      simp only
      split
      · show { s with decoder }.load + s.watchdog.work s.now + 2 < s.work
        omega
      · refine Nat.lt_of_le_of_lt (work_notify_le { s with decoder } (.headers map)) ?_
        show { s with decoder }.load + s.watchdog.work s.now + s.task.rank < s.work
        omega
    | data bytes =>
      have hlt : decoder.buffer.length < s.decoder.buffer.length := huses
      simp only
      split
      · show { s with decoder }.load + s.watchdog.work s.now + 2 < s.work
        omega
      · refine Nat.lt_of_le_of_lt (work_notify_le { s with decoder } (.data bytes)) ?_
        show { s with decoder }.load + s.watchdog.work s.now + s.task.rank < s.work
        omega
    | finished =>
      have hle : decoder.buffer.length ≤ s.decoder.buffer.length := huses
      show { s with decoder }.load + s.watchdog.work s.now + 2 < s.work
      omega
    | failed error =>
      have hle : decoder.buffer.length ≤ s.decoder.buffer.length := huses
      show { s with decoder }.load + s.watchdog.work s.now + 2 < s.work
      omega

/-- At the end there is no more work than the load. -/
theorem work_finish_le (s : Session) (outcome : Outcome) :
    (s.finish outcome).work ≤ s.load + s.watchdog.work s.now := by
  have h1 := load_actAll_le
    ({ s with after := [], task := .ended outcome }.record .ended) s.after
  have h2 := task_actAll ({ s with after := [], task := .ended outcome }.record .ended) s.after
  obtain ⟨h3, h4⟩ := watchdog_actAll
    ({ s with after := [], task := .ended outcome }.record .ended) s.after
  have h5 : ({ s with after := [], task := .ended outcome }.record .ended).load
      + 7 * s.after.length = s.load := by
    simp only [load, record, actionsWork, List.length_nil]
    omega
  simp only [work, finish, h2, h3, h4]
  show _ + s.watchdog.work s.now + 0 ≤ s.load + s.watchdog.work s.now
  omega

/-- Calling the owner for the last time adds nothing to the load. -/
theorem load_notifyEnd_le (s : Session) (outcome : Outcome) :
    (s.notifyEnd outcome).load ≤ s.load := by
  cases outcome with
  | shutdown => exact Nat.le_refl _
  | eof => exact load_notify_le s .eof
  | failed error => exact load_notify_le s (.error error)

/-- Calling the owner for the last time takes no time. -/
theorem watchdog_notifyEnd (s : Session) (outcome : Outcome) :
    (s.notifyEnd outcome).watchdog = s.watchdog ∧ (s.notifyEnd outcome).now = s.now := by
  cases outcome with
  | shutdown => exact ⟨rfl, rfl⟩
  | eof => exact watchdog_notify s .eof
  | failed error => exact watchdog_notify s (.error error)

/-- Winding up uses up work. -/
theorem work_stepConclusion_lt (s : Session) {ending : Ending} (h : s.task = .concluding ending) :
    (s.stepConclusion ending).work < s.work := by
  have hwork : s.work = s.load + s.watchdog.work s.now + 2 := by simp only [work, h, Task.rank]
  have hload := load_notifyEnd_le s (outcomeOf s.stopRequested s.state ending)
  obtain ⟨hdog, hnow⟩ := watchdog_notifyEnd s (outcomeOf s.stopRequested s.state ending)
  unfold stepConclusion
  simp only
  split
  · show (s.notifyEnd _).load + (s.notifyEnd _).watchdog.work (s.notifyEnd _).now + 1 < s.work
    rw [hdog, hnow]
    omega
  · refine Nat.lt_of_le_of_lt (work_finish_le _ _) ?_
    show (s.notifyEnd _).load + (s.notifyEnd _).watchdog.work (s.notifyEnd _).now < s.work
    rw [hdog, hnow]
    omega

/-- Closing the stream uses up work. -/
theorem work_stepClosing_lt (s : Session) {outcome : Outcome} (h : s.task = .closing outcome) :
    (s.stepClosing outcome).work < s.work := by
  have hwork : s.work = s.load + s.watchdog.work s.now + 1 := by simp only [work, h, Task.rank]
  refine work_follow_stream_lt s Peer.weighs_closes rfl (fun _ => rfl) ?_ ?_
  · intro value rest hfollows hput
    have hle := hfollows.work_le
    refine Nat.lt_of_le_of_lt (work_finish_le _ _) ?_
    -- Without its stream the session weighs less.
    have hpeer : { s.putCloses rest with peer := none }.load ≤ (s.putCloses rest).load := by
      simp only [load, Option.map_none, Option.getD_none]
      omega
    show { s.putCloses rest with peer := none }.load + s.watchdog.work s.now < s.work
    omega
  · intro until? hends
    refine work_sleep_lt s ?_ (by simp [h, Task.rank])
    intro instant hinstant
    obtain ⟨hlt, hload⟩ := hends instant hinstant
    have hdog := Watchdog.work_mono s.watchdog (Nat.le_of_lt hlt)
    exact ⟨hlt, by omega⟩

/-- Every move uses up some of the work that is left. -/
theorem work_step_lt (s : Session) (h : s.isHalted = false) : s.step.work < s.work := by
  unfold step
  split
  · rename_i operation htask
    cases operation with
    | resolve => exact work_step_resolve_lt s htask
    | connect candidate endpoint others => exact work_step_connect_lt s htask
    | write purpose bytes => exact work_step_write_lt s htask
    | flush purpose => exact work_step_flush_lt s htask
    | read => exact work_step_read_lt s htask
  · rename_i htask
    exact work_stepDecoder_lt s htask
  · rename_i ending htask
    exact work_stepConclusion_lt s htask
  · rename_i outcome htask
    exact work_stepClosing_lt s htask
  · rename_i outcome htask
    simp [isHalted, htask] at h
  · rename_i htask
    simp [isHalted, htask] at h

/-- As many moves as there is work are enough. -/
theorem isHalted_runFor (fuel : Nat) (s : Session) (h : s.work ≤ fuel) :
    (s.runFor fuel).isHalted = true := by
  induction fuel generalizing s with
  | zero =>
    cases hs : s.isHalted with
    | true => exact hs
    | false =>
      have := work_step_lt s hs
      omega
  | succ fuel ih =>
    simp only [runFor]
    split
    · assumption
    · rename_i hs
      have := work_step_lt s (by simpa using hs)
      exact ih s.step (by omega)

/-- Running a session leaves nothing to be done. -/
theorem isHalted_run (s : Session) : s.run.isHalted = true :=
  isHalted_runFor s.work s (Nat.le_refl _)

end Session

end NtripClient
