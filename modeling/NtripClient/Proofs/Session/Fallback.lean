import NtripClient.Proofs.Session.Passage
import NtripClient.Proofs.Session.Sending

/-!
# `NtripClient.Proofs.Session.Fallback`: which candidates are tried, and which stream is used

A session looks up the host and tries the candidates from the front until one of them connects.
`fallback` says for every result of the lookup and every list of results of the attempts which
endpoints are tried, which stream is used, and what the session comes to if there is none. It is
about sessions that nothing cuts short (`Unhindered`); how long the results take, and what the
owner does meanwhile, makes no difference.

An operation whose script comes to a result gets it after some moves (`exists_result`), so that
the attempts are an induction over the candidates that are left: `exists_connection` if one of
them connects, `exists_failure` if none does. Behind the attempts nothing is tried any more
(`attempted_runFor`), and the stream stays what it is (`streams_runFor`).
-/

set_option autoImplicit false

namespace NtripClient

/-! ### Results -/

section
variable {α : Type} {script : Script α} {final value : α} {rest : Script α}

/-- The result that a script comes to, unless it waits for ever. -/
def Script.result? (script : Script α) (final : α) : Option α :=
  match script.essence with
  | [] => some final
  | .result value :: _ => some value
  | _ => none

/-- The result that a script gives is the one that it comes to. -/
theorem Script.result?_of_gives (h : script.Gives final value rest) :
    script.result? final = some value := by
  rcases h with ⟨rfl, rfl, rfl⟩ | rfl
  · rfl
  · rfl

/-- Pauses and the actions of the owner do not change the result. -/
theorem Script.result?_congr {other : Script α} (h : other.essence = script.essence) (final : α) :
    other.result? final = script.result? final := by
  unfold Script.result?
  rw [h]

/-- A result leaves the rest of the script. -/
theorem Script.Gives.isSuffix (h : script.Gives final value rest) :
    rest.essence <:+ script.essence := by
  rcases h with ⟨rfl, -, rfl⟩ | rfl
  · exact List.suffix_refl _
  · exact List.suffix_cons _ _

end

/-- The result of the attempt with this number. An attempt without a script is refused. -/
def attemptResult? (attempts : List (Script (Except IoError Peer))) (candidate : Nat) :
    Option (Except IoError Peer) :=
  (attempts[candidate]?.getD []).result? (.error { kind := .connectionRefused })

/-- The first attempt has the first script. -/
theorem attemptResult?_zero (attempts : List (Script (Except IoError Peer))) :
    attemptResult? attempts 0
      = (attempts.headD []).result? (.error { kind := .connectionRefused }) := by
  cases attempts <;> rfl

/-- The later attempts have the other scripts. -/
theorem attemptResult?_succ (attempts : List (Script (Except IoError Peer))) (candidate : Nat) :
    attemptResult? attempts (candidate + 1) = attemptResult? attempts.tail candidate := by
  cases attempts <;> rfl

/-- Pauses and the actions of the owner change the result of no attempt. -/
theorem attemptResult?_congr {attempts others : List (Script (Except IoError Peer))}
    (h : others.map Script.essence = attempts.map Script.essence) (candidate : Nat) :
    attemptResult? others candidate = attemptResult? attempts candidate := by
  refine Script.result?_congr ?_ _
  have hat : others[candidate]?.map Script.essence = attempts[candidate]?.map Script.essence := by
    rw [← List.getElem?_map, h, List.getElem?_map]
  cases hother : others[candidate]? <;> cases hattempt : attempts[candidate]? <;>
    rw [hother, hattempt] at hat <;> first | rfl | exact Option.some.inj hat | cases hat

namespace Plan

/-- What the resolver answers, if it does. -/
def answer? (plan : Plan) : Option (Except IoError Candidates) :=
  plan.lookup.result? (.ok [])

/-- What comes of the attempt to connect to the candidate with this number, if it ends. -/
def connects? (plan : Plan) (candidate : Nat) : Option (Except IoError Peer) :=
  attemptResult? plan.attempts candidate

/-- The attempt with this number fails. -/
def Refuses (plan : Plan) (candidate : Nat) : Prop :=
  ∃ cause, plan.connects? candidate = some (.error cause)

end Plan

/-! ### Attempts and streams -/

/-- The endpoint that an event begins to connect to. -/
def Event.attempted? : Event → Option Endpoint
  | .began (.connect _ endpoint _) => some endpoint
  | _ => none

/-- A plain event is no attempt to connect. -/
theorem Event.attempted?_of_isPlain {event : Event} (h : event.isPlain = true) :
    event.attempted? = none := by
  unfold Event.attempted?
  split
  · cases h
  · rfl

/-- At this place there is no stream yet. -/
def Place.isSeeking : Place → Bool
  | .lookup => true
  | .attempt _ _ _ => true
  | _ => false

/-- The session works, and there is no stream yet. -/
def Task.isSeeking (task : Task) : Bool :=
  task.place?.any Place.isSeeking

/-- A session whose work has stopped looks for no stream. -/
theorem Task.isSeeking_of_stopped {task : Task} (h : task.isWorking = false) :
    task.isSeeking = false := by
  cases task with
  | attempting operation => cases h
  | decoding => cases h
  | _ => rfl

/-- What may be left of a stream: the ends of its scripts, pauses aside. -/
structure Peer.IsRest (rest peer : Peer) : Prop where
  reads : rest.reads.essence <:+ peer.reads.essence
  writes : rest.writes.essence <:+ peer.writes.essence
  flushes : rest.flushes.essence <:+ peer.flushes.essence
  closes : rest.closes.essence <:+ peer.closes.essence

namespace Peer.IsRest

variable {peer rest other : Peer}

/-- Nothing of the stream is used yet. -/
theorem refl (peer : Peer) : peer.IsRest peer :=
  ⟨List.suffix_refl _, List.suffix_refl _, List.suffix_refl _, List.suffix_refl _⟩

/-- What is left of the rest is left of the stream. -/
theorem trans (h : rest.IsRest other) (k : other.IsRest peer) : rest.IsRest peer where
  reads := h.reads.trans k.reads
  writes := h.writes.trans k.writes
  flushes := h.flushes.trans k.flushes
  closes := h.closes.trans k.closes

/-- A pause more or less uses nothing of the stream. -/
theorem of_essence (h : rest.essence = peer.essence) : rest.IsRest peer where
  reads := ⟨[], congrArg Peer.reads h⟩
  writes := ⟨[], congrArg Peer.writes h⟩
  flushes := ⟨[], congrArg Peer.flushes h⟩
  closes := ⟨[], congrArg Peer.closes h⟩

end Peer.IsRest

namespace Session

variable {s t u : Session} {peer : Peer}

/-- The endpoints that the session has begun to connect to, oldest first. -/
def attempted (s : Session) : List Endpoint :=
  s.log.filterMap fun entry => entry.event.attempted?

/-- An event adds the endpoint that it begins to connect to. -/
@[simp] theorem attempted_record (s : Session) (event : Event) :
    (s.record event).attempted = s.attempted ++ event.attempted?.toList := by
  cases h : event.attempted? <;> simp [attempted, log, record, h]

/-- All other events add no endpoint. -/
theorem attempted_record_of_none (s : Session) {event : Event} (h : event.attempted? = none) :
    (s.record event).attempted = s.attempted := by
  rw [attempted_record, h]
  exact List.append_nil _

/-- Entering a state is no attempt. -/
theorem attempted_enter (s : Session) (state : State) :
    (s.enter state).attempted = s.attempted :=
  attempted_record_of_none { s with state := s.state.moveTo state } rfl

/-- What is plain tries nothing. -/
theorem Still.attempted (h : Still s t) : t.attempted = s.attempted := by
  obtain ⟨added, hlog, hplain⟩ := h.log
  have hnone : added.filterMap (fun entry => entry.event.attempted?) = [] :=
    List.filterMap_eq_nil_iff.2 fun entry hmem => Event.attempted?_of_isPlain (hplain entry hmem).2
  rw [Session.attempted, hlog, List.filterMap_append, hnone, List.append_nil]
  rfl

/-- Only beginning to connect is an attempt. -/
theorem attempted_attempt (s : Session) {operation : Operation}
    (h : (Event.began operation).attempted? = none) :
    (s.attempt operation).attempted = s.attempted := by
  unfold attempt
  split
  · rfl
  · exact attempted_record_of_none { s with task := .attempting operation } h

/-- Neither a call nor what the owner does in return is an attempt. -/
theorem attempted_notify (s : Session) (notice : Notice) :
    (s.notify notice).attempted = s.attempted := by
  rw [(lull_notify s notice).still.attempted]
  exact attempted_record_of_none { s with reactions := (s.reactions.take notice).2 } rfl

/-- The operations behind the attempts do not lead back to them. -/
theorem isSeeking_attempt (s : Session) {operation : Operation}
    (h : (Task.attempting operation).isSeeking = false) :
    (s.attempt operation).task.isSeeking = false := by
  unfold attempt
  split
  · rfl
  · exact h

/-! ### Behind the attempts -/

/-- Only the lookup and the attempts are places before the stream. -/
theorem isSeeking_of_place (h : s.task.isSeeking = false)
    (hplace : t.task.place? = s.task.place? ∨ t.task.IsInterrupted) :
    t.task.isSeeking = false := by
  unfold Task.isSeeking at h ⊢
  rcases hplace with hsame | hstopped
  · rw [hsame, h]
  · rw [hstopped.place?]
    rfl

/-- With a stream, no operation leads to another attempt. -/
theorem Leads.attempted (h : Leads s t) (hlate : s.task.isSeeking = false) :
    t.attempted = s.attempted ∧ t.task.isSeeking = false := by
  cases h with
  | rests hrests => exact ⟨hrests.toStill.attempted, isSeeking_of_place hlate hrests.place⟩
  | found hstill htask =>
    rw [htask] at hlate
    cases hlate
  | next hstill htask =>
    rw [htask] at hlate
    cases hlate
  | connected hstill htask =>
    rw [htask] at hlate
    cases hlate
  | asked hstill => exact ⟨(attempted_enter _ _).trans hstill.attempted, rfl⟩
  | received bytes hstill =>
    exact ⟨(attempted_record_of_none _ rfl).trans hstill.attempted, rfl⟩

/-- Decoding tries nothing. -/
theorem Decodes.attempted (h : Decodes s t) (htask : s.task = .decoding) :
    t.attempted = s.attempted ∧ t.task.isSeeking = false := by
  cases h with
  | @waits next =>
    exact ⟨attempted_attempt { s with decoder := next } rfl, isSeeking_attempt _ rfl⟩
  | proceeds => exact ⟨rfl, by rw [htask]; rfl⟩
  | @accepts status length stage stop line ok next eq =>
    exact ⟨attempted_enter { s with decoder := next } _, by rw [task_enter, htask]; rfl⟩
  | @tellsHeaders map length stage stop block next eq =>
    exact ⟨(attempted_enter _ _).trans (attempted_notify { s with decoder := next } _),
      by rw [task_enter, task_notify, htask]; rfl⟩
  | @tellsData next bytes =>
    exact ⟨attempted_notify { s with decoder := next } _, by rw [task_notify, htask]; rfl⟩
  | stops => exact ⟨rfl, rfl⟩

/-- With a stream, a move tries nothing, and does not lead back to the attempts. -/
theorem attempted_step (hsound : s.decoder.Sound) (hlate : s.task.isSeeking = false) :
    s.step.attempted = s.attempted ∧ s.step.task.isSeeking = false := by
  cases htask : s.task with
  | attempting operation => exact (leads_of_attempting htask).attempted hlate
  | decoding => exact (decodes_of_decoding htask hsound).attempted htask
  | concluding ending =>
    refine ⟨?_, Task.isSeeking_of_stopped (isWorking_step (by rw [htask]; rfl))⟩
    rw [(still_of_concluding htask).attempted, shutDown, attempted_enter]
    cases outcomeOf s.stopRequested s.state ending with
    | shutdown => rfl
    | eof => exact attempted_notify s .eof
    | failed error => exact attempted_notify s (.error error)
  | closing outcome =>
    exact ⟨(still_of_over (.inl (by rw [htask]; rfl))).attempted,
      Task.isSeeking_of_stopped (isWorking_step (by rw [htask]; rfl))⟩
  | ended outcome =>
    exact ⟨(still_of_over (.inl (by rw [htask]; rfl))).attempted,
      Task.isSeeking_of_stopped (isWorking_step (by rw [htask]; rfl))⟩
  | stuck =>
    exact ⟨(still_of_over (.inr htask)).attempted,
      Task.isSeeking_of_stopped (isWorking_step (by rw [htask]; rfl))⟩

/-- With a stream, no run tries another endpoint. -/
theorem attempted_runFor (moves : Nat) (hsound : s.decoder.Sound)
    (hlate : s.task.isSeeking = false) : (s.runFor moves).attempted = s.attempted := by
  induction moves generalizing s with
  | zero => rfl
  | succ moves ih =>
    obtain ⟨hsame, hlate'⟩ := attempted_step hsound hlate
    rw [runFor_succ, ih (sound_step hsound) hlate', hsame]

/-! ### The stream that is used -/

/-- The stream of the session, if it has one, is what is left of this one. -/
def Streams (s : Session) (peer : Peer) : Prop :=
  ∀ rest, s.peer = some rest → rest.IsRest peer

/-- Pauses of the stream do not matter. -/
theorem Streams.congr (h : s.Streams peer)
    (same : t.peer.map Peer.essence = s.peer.map Peer.essence) : t.Streams peer := by
  intro rest hrest
  rw [hrest] at same
  cases hs : s.peer with
  | none => rw [hs] at same; cases same
  | some other =>
    rw [hs] at same
    exact (Peer.IsRest.of_essence (Option.some.inj same)).trans (h other hs)

/-- The stream is the same one while nobody touches it. -/
theorem Streams.of_eq (h : s.Streams peer) (same : t.peer = s.peer) : t.Streams peer :=
  h.congr (congrArg _ same)

/-- Working off a script of the stream leaves the rest of the stream. -/
theorem Streams.mapPeer (h : s.Streams peer) {change : Peer → Peer}
    (hrest : ∀ rest, s.peer = some rest → (change rest).IsRest rest)
    (hpeer : t.peer = s.peer.map change) : t.Streams peer := by
  intro rest hsome
  cases hs : s.peer with
  | none =>
    rw [hpeer, hs] at hsome
    cases hsome
  | some other =>
    rw [hpeer, hs] at hsome
    cases hsome
    exact (hrest other hs).trans (h other hs)

/-- A pause leaves the stream alone. -/
theorem Streams.pause {α : Type} {script : Script α} (h : s.Streams peer)
    (hpause : Pause script s t) : t.Streams peer := by
  cases hpause with
  | on hlull => exact h.congr hlull.kept.peer
  | stuck hlull => exact h.congr hlull.kept.peer
  | cancelled hlull => exact h.congr hlull.kept.peer
  | expired hlull => exact h.congr hlull.kept.peer

/-- Beginning an operation uses nothing of the stream. -/
theorem peer_attempt (s : Session) (operation : Operation) :
    (s.attempt operation).peer = s.peer := by
  unfold attempt
  split <;> rfl

/-- The result of a write is taken from the script before the session looks at it. -/
theorem peer_written (s : Session) (purpose : Purpose) (bytes : Bytes)
    (result : Except IoError Nat) : (s.written purpose bytes result).peer = s.peer := by
  unfold written
  cases result with
  | error cause =>
    simp only
    split <;> rfl
  | ok limit =>
    simp only
    split <;> rfl

/-- So is the result of a flush. -/
theorem peer_flushed (s : Session) (purpose : Purpose) (result : Except IoError Unit) :
    (s.flushed purpose result).peer = s.peer := by
  unfold flushed
  cases result with
  | error cause => rfl
  | ok u =>
    cases purpose with
    | request => rfl
    | uplink => exact peer_attempt _ _

/-- So is the result of a read. -/
theorem peer_readable (s : Session) (result : Except IoError Bytes) :
    (s.readable result).peer = s.peer := by
  unfold readable
  cases result with
  | error cause => rfl
  | ok bytes =>
    simp only
    split <;> rfl

/-- A call leaves the stream as it is, up to the actions that have come due. -/
theorem peer_notify (s : Session) (notice : Notice) :
    (s.notify notice).peer.map Peer.essence = s.peer.map Peer.essence :=
  (lull_notify s notice).kept.peer

/-- Decoding does not touch the stream. -/
theorem streams_stepDecoder (h : s.Streams peer) : s.stepDecoder.Streams peer := by
  unfold stepDecoder
  cases s.decoder.advance s.limits with
  | mk signal decoder =>
    cases signal with
    | more => exact h.of_eq (peer_attempt { s with decoder } .read)
    | proceed => exact h.of_eq rfl
    | accepted status =>
      simp only
      split <;> exact h.of_eq rfl
    | headers map =>
      simp only
      split
      · exact h.of_eq rfl
      · exact h.congr (peer_notify { s with decoder } _)
    | data bytes =>
      simp only
      split
      · exact h.of_eq rfl
      · exact h.congr (peer_notify { s with decoder } _)
    | finished => exact h.of_eq rfl
    | failed error => exact h.of_eq rfl

/-- Coming to an outcome leaves the stream as it is. -/
theorem streams_finish (h : s.Streams peer) (outcome : Outcome) :
    (s.finish outcome).Streams peer :=
  h.congr (lull_finish s outcome).kept.peer

/-- Winding up leaves the stream as it is. -/
theorem streams_stepConclusion (h : s.Streams peer) (ending : Ending) :
    (s.stepConclusion ending).Streams peer := by
  have hshut : ∀ outcome, (s.notifyEnd outcome).shutDown.Streams peer :=
    fun outcome => h.congr (peer_notifyEnd s outcome)
  rw [stepConclusion_eq]
  split
  · exact (hshut _).of_eq rfl
  · exact streams_finish (hshut _) _

/-- A session with a stream keeps it. -/
theorem streams_step (h : s.Streams peer) (hlate : s.task.isSeeking = false) :
    s.step.Streams peer := by
  -- Over the tasks: an operation works off one script of the stream, and leaves the others.
  cases htask : s.task with
  | attempting operation =>
    cases operation with
    | resolve => rw [htask] at hlate; cases hlate
    | connect candidate endpoint others => rw [htask] at hlate; cases hlate
    | write purpose bytes =>
      by_cases hne : bytes = []
      · subst hne
        rw [step_write_nil htask]
        exact h.of_eq rfl
      · rcases step_write hne htask with ⟨result, rest, hgives, hstep⟩ | hpause
        · rw [hstep]
          refine h.mapPeer ?_ (peer_written (s.putWrites rest) purpose bytes result)
          intro other hother
          have hwrites : s.writes = other.writes := by simp [writes, hother]
          exact { Peer.IsRest.refl other with writes := hwrites ▸ hgives.isSuffix }
        · exact h.pause hpause
    | flush purpose =>
      rcases step_flush htask with ⟨result, rest, hgives, hstep⟩ | hpause
      · rw [hstep]
        refine h.mapPeer ?_ (peer_flushed (s.putFlushes rest) purpose result)
        intro other hother
        have hflushes : s.flushes = other.flushes := by simp [flushes, hother]
        exact { Peer.IsRest.refl other with flushes := hflushes ▸ hgives.isSuffix }
      · exact h.pause hpause
    | read =>
      by_cases harrived : s.arrived = []
      · rcases step_read htask harrived with
          ⟨result, rest, hgives, hstep⟩ | ⟨message, uplink, -, -, -, hstep⟩ | hpause
        · rw [hstep]
          refine h.mapPeer ?_ (peer_readable (s.putReads rest) result)
          intro other hother
          have hreads : s.reads = other.reads := by simp [reads, hother]
          exact { Peer.IsRest.refl other with reads := hreads ▸ hgives.isSuffix }
        · rw [hstep]
          exact h.of_eq (peer_attempt ({ s with uplink } : Session).settle _)
        · exact h.pause hpause
      · rw [step_receive htask harrived]
        exact h.of_eq rfl
  | decoding =>
    rw [step_decoding htask]
    exact streams_stepDecoder h
  | concluding ending =>
    rw [step_concluding htask]
    exact streams_stepConclusion h ending
  | closing outcome =>
    rcases step_closing htask with ⟨result, rest, -, hstep⟩ | hlull | ⟨-, hstep⟩
    · -- The stream is gone.
      rw [hstep]
      refine streams_finish ?_ outcome
      intro rest hnone
      cases hnone
    · exact h.congr hlull.kept.peer
    · rw [hstep]
      exact h.of_eq rfl
  | ended outcome => rw [step_of_halted (by simp only [isHalted, htask])]; exact h
  | stuck => rw [step_of_halted (by simp only [isHalted, htask])]; exact h

/-- However long a session with a stream goes on, it uses no other one. -/
theorem streams_runFor (moves : Nat) (h : s.Streams peer) (hsound : s.decoder.Sound)
    (hlate : s.task.isSeeking = false) : (s.runFor moves).Streams peer := by
  induction moves generalizing s with
  | zero => exact h
  | succ moves ih =>
    rw [runFor_succ]
    exact ih (streams_step h hlate) (sound_step hsound) (attempted_step hsound hlate).2

/-! ### Operations that come to a result -/

/-- Nobody ever requests a shutdown, and the idle limit is never reached. -/
def Unhindered (s : Session) : Prop :=
  ∀ moves, (s.runFor moves).stopRequested = false ∧
    (s.runFor moves).task ≠ .concluding (.failed .connectionTimeout)

/-- What never happens does not happen later. -/
theorem Unhindered.runFor (h : s.Unhindered) (moves : Nat) : (s.runFor moves).Unhindered := by
  intro more
  rw [← runFor_add]
  exact h (moves + more)

/-- Nor does it happen after one move. -/
theorem Unhindered.step (h : s.Unhindered) : s.step.Unhindered := by
  rw [← show s.runFor 1 = s.step from runFor_succ 0 s]
  exact h.runFor 1

/-- An operation gets the result that its script comes to. -/
theorem exists_result {α : Type} (script : Session → Script α) {final : α}
    (finish : Session → Script α → α → Session) {operation : Operation}
    (htask : s.task = .attempting operation) (hfree : s.Unhindered)
    (hstep : ∀ t : Session, t.task = .attempting operation →
      (∃ value rest, (script t).Gives final value rest ∧ t.step = finish t rest value) ∨
        Pause (script t) t t.step)
    (hlull : ∀ t u, Lull t u → (script u).essence = (script t).essence) {value : α}
    (hresult : (script s).result? final = some value) :
    ∃ moves t rest, Lull s t ∧ t.stopRequested = false ∧
      s.runFor moves = finish t rest value := by
  -- Induction over the moves left: until the result is there the operation pauses.
  induction s using move_induction with
  | hhalted s hs => simp [isHalted, htask] at hs
  | hmove s hs ih =>
    rcases hstep s htask with ⟨result, rest, hgives, hfinish⟩ | hpause
    · cases (Script.result?_of_gives hgives).symm.trans hresult
      exact ⟨1, s, rest, .refl s, (hfree 0).1, (runFor_succ 0 s).trans hfinish⟩
    · obtain ⟨hcalm, hintime⟩ := hfree.step 0
      change s.step.stopRequested = false at hcalm
      change s.step.task ≠ _ at hintime
      generalize hnext : s.step = next at hpause hcalm hintime ih
      cases hpause with
      | on hpause =>
        obtain ⟨moves, t, rest, hlull', hcalm', hfinish⟩ := ih (hpause.kept.task.trans htask)
          (hnext ▸ hfree.step) ((Script.result?_congr (hlull _ _ hpause) final).trans hresult)
        refine ⟨moves + 1, t, rest, hpause.trans hlull', hcalm', ?_⟩
        rw [runFor_succ, hnext, hfinish]
      | stuck hpause hnever =>
        -- The script waits for ever, so it has no result.
        rw [hnever] at hresult
        cases hresult
      | cancelled hpause hstop =>
        cases hstop.symm.trans hcalm
      | expired hpause => exact absurd rfl hintime

/-! ### One attempt after another -/

/-- The second session has begun to connect to these endpoints more. Nothing was read, and there
is no other stream. -/
structure Tries (s t : Session) (more : List Endpoint) : Prop where
  connection : t.connection = s.connection
  decoder : t.decoder = s.decoder
  peer : t.peer.map Peer.essence = s.peer.map Peer.essence
  attempted : t.attempted = s.attempted ++ more

/-- A pause tries nothing. -/
theorem Lull.tries (h : Lull s t) : Tries s t [] where
  connection := h.kept.connection
  decoder := h.kept.decoder
  peer := h.kept.peer
  attempted := by rw [h.still.attempted, List.append_nil]

/-- Endpoints tried one after the other. -/
theorem Tries.trans {first second : List Endpoint} (h : Tries s t first) (k : Tries t u second) :
    Tries s u (first ++ second) where
  connection := k.connection.trans h.connection
  decoder := k.decoder.trans h.decoder
  peer := k.peer.trans h.peer
  attempted := by rw [k.attempted, h.attempted, List.append_assoc]

/-- The relation does not speak of the task, of time, of the handles, or of what is left of the
other scripts. -/
theorem Tries.frame {more : List Endpoint} (h : Tries s t more) {task : Task}
    {watchdog : Watchdog} {held : Held} {lookup : Script (Except IoError Candidates)}
    {attempts : List (Script (Except IoError Peer))} :
    Tries s { t with task, watchdog, held, lookup, attempts } more :=
  ⟨h.connection, h.decoder, h.peer, h.attempted⟩

/-- What is recorded counts if it begins to connect. -/
theorem Tries.record {more : List Endpoint} (h : Tries s t more) (event : Event) :
    Tries s (t.record event) (more ++ event.attempted?.toList) where
  connection := h.connection
  decoder := h.decoder
  peer := h.peer
  attempted := by rw [attempted_record, h.attempted, List.append_assoc]

/-- Settling tries nothing. -/
theorem Tries.settle {more : List Endpoint} (h : Tries s t more) : Tries s t.settle more where
  connection := h.connection
  decoder := h.decoder
  peer := h.peer
  attempted := (attempted_record_of_none { t with watchdog := t.watchdog.reset t.now } rfl).trans
    h.attempted

/-- Entering a state tries nothing. -/
theorem Tries.enter {more : List Endpoint} (h : Tries s t more) (state : State) :
    Tries s (t.enter state) more where
  connection := h.connection
  decoder := h.decoder
  peer := h.peer
  attempted := (attempted_enter t state).trans h.attempted

/-- The next candidate is tried. -/
theorem tries_connectNext {more : List Endpoint} (h : Tries s t more)
    (hcalm : t.stopRequested = false) (candidate : Nat) (last : IoError) (endpoint : Endpoint)
    (others : Candidates) :
    (t.connectNext candidate last (endpoint :: others)).task
        = .attempting (.connect candidate endpoint others) ∧
      (t.connectNext candidate last (endpoint :: others)).attempts = t.attempts ∧
      Tries s (t.connectNext candidate last (endpoint :: others)) (more ++ [endpoint]) := by
  rw [connectNext, attempt_of_calm (s := t.enter _) hcalm]
  exact ⟨rfl, rfl, Tries.record (t := { t.enter _ with task := .attempting (.connect _ _ _) })
    (h.enter _).frame (.began (.connect candidate endpoint others))⟩

section
variable {candidate : Nat} {endpoint : Endpoint} {others : Candidates}

/-- An attempt gets the result that its script comes to. -/
theorem exists_attemptResult (htask : s.task = .attempting (.connect candidate endpoint others))
    (hfree : s.Unhindered) {result : Except IoError Peer}
    (hresult : attemptResult? s.attempts 0 = some result) :
    ∃ moves t rest, Tries s t [] ∧
      t.attempts.map Script.essence = s.attempts.map Script.essence ∧
      t.stopRequested = false ∧
      s.runFor moves = (t.putAttempt rest).connected candidate others result := by
  rw [attemptResult?_zero] at hresult
  have hessence : ∀ t u, Lull t u →
      Script.essence (u.attempts.headD []) = Script.essence (t.attempts.headD []) := by
    intro t u hlull
    have hhead := congrArg (fun scripts => scripts.headD []) hlull.kept.attempts
    cases ht : t.attempts <;> cases hu : u.attempts <;> rw [ht, hu] at hhead <;> exact hhead
  obtain ⟨moves, t, rest, hlull, hcalm, hrun⟩ := exists_result (fun s => s.attempts.headD [])
    (fun t rest result => (t.putAttempt rest).connected candidate others result) htask hfree
    (fun _ => step_connect) hessence hresult
  exact ⟨moves, t, rest, hlull.tries, hlull.kept.attempts, hcalm, hrun⟩

/-- After an attempt that fails the next candidate is tried. -/
theorem exists_next {next : Endpoint}
    (htask : s.task = .attempting (.connect candidate endpoint (next :: others)))
    (hfree : s.Unhindered) {cause : IoError}
    (hfails : attemptResult? s.attempts 0 = some (.error cause)) :
    ∃ moves, (s.runFor moves).task = .attempting (.connect (candidate + 1) next others) ∧
      (s.runFor moves).attempts.map Script.essence = s.attempts.tail.map Script.essence ∧
      Tries s (s.runFor moves) [next] := by
  obtain ⟨moves, t, rest, htries, hattempts, hcalm, hrun⟩ :=
    exists_attemptResult htask hfree hfails
  have hsettled : Tries s ({ t.putAttempt rest with attempts := t.attempts.tail } : Session).settle
      [] := Tries.settle htries.frame
  obtain ⟨hnext, hleft, hmore⟩ := tries_connectNext hsettled hcalm (candidate + 1) cause next others
  refine ⟨moves, hrun ▸ hnext, ?_, hrun ▸ hmore⟩
  rw [hrun]
  refine (congrArg (List.map Script.essence) hleft).trans ?_
  show t.attempts.tail.map Script.essence = _
  rw [List.map_tail, hattempts, List.map_tail]

/-- When the attempt to connect to the last candidate fails, the session does. -/
theorem exists_last (htask : s.task = .attempting (.connect candidate endpoint []))
    (hfree : s.Unhindered) {cause : IoError}
    (hfails : attemptResult? s.attempts 0 = some (.error cause)) :
    ∃ moves, (s.runFor moves).task = .concluding (.failed (.io cause)) ∧
      Tries s (s.runFor moves) [] := by
  obtain ⟨moves, t, rest, htries, -, -, hrun⟩ := exists_attemptResult htask hfree hfails
  have hsettled : Tries s ({ t.putAttempt rest with attempts := t.attempts.tail } : Session).settle
      [] := Tries.settle htries.frame
  rw [connected] at hrun
  exact ⟨moves, by rw [hrun]; rfl, by rw [hrun]; exact hsettled.frame⟩

/-- The session is about to write the request to this stream, of which nothing is used. -/
structure Gets (s : Session) (peer : Peer) : Prop where
  task : s.task = .attempting (.write .request s.connection.request)
  peer : s.peer = some peer

/-- With a connection the session turns to the request, and tries nothing more. -/
theorem gets_connected (hcalm : s.stopRequested = false) (candidate : Nat) (others : Candidates)
    (peer : Peer) :
    (s.connected candidate others (.ok peer)).Gets peer ∧
      (s.connected candidate others (.ok peer)).connection = s.connection ∧
      (s.connected candidate others (.ok peer)).decoder = s.decoder ∧
      (s.connected candidate others (.ok peer)).attempted = s.attempted := by
  have hstill : Still s
      { ({ s with attempts := s.attempts.tail } : Session).settle with peer := some peer } :=
    Still.frame (Still.settle (t := { s with attempts := s.attempts.tail }) (Still.refl s).frame)
  have hwrites : s.connected candidate others (.ok peer) = _ :=
    attempt_of_calm (s := Session.enter { ({ s with attempts := s.attempts.tail } :
        Session).settle with peer := some peer } .writing) hcalm
      (.write .request s.connection.request)
  rw [hwrites]
  refine ⟨⟨rfl, rfl⟩, rfl, rfl, ?_⟩
  rw [attempted_record_of_none _ rfl]
  exact (attempted_enter _ .writing).trans hstill.attempted

/-- After an attempt that succeeds the request is written to its stream. -/
theorem exists_gets (htask : s.task = .attempting (.connect candidate endpoint others))
    (hfree : s.Unhindered) (hconnects : attemptResult? s.attempts 0 = some (.ok peer)) :
    ∃ moves, (s.runFor moves).Gets peer ∧ (s.runFor moves).connection = s.connection ∧
      (s.runFor moves).decoder = s.decoder ∧ (s.runFor moves).attempted = s.attempted := by
  obtain ⟨moves, t, rest, htries, -, hcalm, hrun⟩ :=
    exists_attemptResult htask hfree hconnects
  obtain ⟨hgets, hconnection, hdecoder, hattempted⟩ := gets_connected (s := t.putAttempt rest) hcalm
    candidate others peer
  refine ⟨moves, ?_⟩
  rw [hrun]
  exact ⟨hgets, hconnection.trans htries.connection, hdecoder.trans htries.decoder,
    (hattempted.trans htries.attempted).trans (List.append_nil _)⟩

/-- What one of the candidates from here on comes to: the first one that connects. -/
theorem exists_connection (reached : Nat)
    (htask : s.task = .attempting (.connect candidate endpoint others)) (hfree : s.Unhindered)
    (hreached : reached ≤ others.length)
    (hfails : ∀ earlier < reached, ∃ cause, attemptResult? s.attempts earlier = some (.error cause))
    (hconnects : attemptResult? s.attempts reached = some (.ok peer)) :
    ∃ moves, (s.runFor moves).Gets peer ∧ (s.runFor moves).connection = s.connection ∧
      (s.runFor moves).decoder = s.decoder ∧
      (s.runFor moves).attempted = s.attempted ++ others.take reached := by
  -- Induction over the candidates left.
  induction others generalizing s candidate endpoint reached with
  | nil =>
    obtain rfl : reached = 0 := Nat.le_zero.1 hreached
    rw [List.take_zero, List.append_nil]
    exact exists_gets htask hfree hconnects
  | cons next others ih =>
    cases reached with
    | zero =>
      rw [List.take_zero, List.append_nil]
      exact exists_gets htask hfree hconnects
    | succ reached =>
      obtain ⟨cause, hcause⟩ := hfails 0 (Nat.succ_pos reached)
      obtain ⟨moves, hnext, hleft, htries⟩ := exists_next htask hfree hcause
      have hresult : ∀ number, attemptResult? (s.runFor moves).attempts number
          = attemptResult? s.attempts (number + 1) := fun number =>
        (attemptResult?_congr hleft number).trans (attemptResult?_succ _ _).symm
      obtain ⟨more, hgets, hconnection, hdecoder, hattempted⟩ := ih reached hnext
        (hfree.runFor moves)
        (Nat.le_of_succ_le_succ hreached)
        (fun earlier hlt => by
          rw [hresult]
          exact hfails _ (Nat.succ_lt_succ hlt))
        ((hresult reached).trans hconnects)
      refine ⟨moves + more, ?_⟩
      rw [runFor_add]
      refine ⟨hgets, hconnection.trans htries.connection, hdecoder.trans htries.decoder, ?_⟩
      rw [hattempted, htries.attempted, List.append_assoc]
      rfl

/-- If all attempts from here on fail, the session fails with the last one. -/
theorem exists_failure {last : IoError}
    (htask : s.task = .attempting (.connect candidate endpoint others)) (hfree : s.Unhindered)
    (hfails : ∀ number < others.length,
      ∃ cause, attemptResult? s.attempts number = some (.error cause))
    (hlast : attemptResult? s.attempts others.length = some (.error last)) :
    ∃ moves, (s.runFor moves).task = .concluding (.failed (.io last)) ∧
      Tries s (s.runFor moves) others := by
  induction others generalizing s candidate endpoint with
  | nil => exact exists_last htask hfree hlast
  | cons next others ih =>
    obtain ⟨cause, hcause⟩ := hfails 0 (Nat.succ_pos _)
    obtain ⟨moves, hnext, hleft, htries⟩ := exists_next htask hfree hcause
    have hresult : ∀ number, attemptResult? (s.runFor moves).attempts number
        = attemptResult? s.attempts (number + 1) := fun number =>
      (attemptResult?_congr hleft number).trans (attemptResult?_succ _ _).symm
    obtain ⟨more, hfailed, hmore⟩ := ih hnext (hfree.runFor moves)
      (fun number hlt => by
        rw [hresult]
        exact hfails _ (Nat.succ_lt_succ hlt))
      ((hresult _).trans hlast)
    refine ⟨moves + more, ?_⟩
    rw [runFor_add]
    exact ⟨hfailed, htries.trans hmore⟩

end

/-! ### Whole sessions -/

/-- Beginning an operation requests no shutdown. -/
theorem stopRequested_attempt (s : Session) (operation : Operation) :
    (s.attempt operation).stopRequested = s.stopRequested := by
  unfold attempt
  split <;> rfl

/-- A session that nothing cuts short starts with the lookup. -/
theorem starts_lookup {connection : Connection} {plan : Plan}
    (hcalm : (start connection plan).stopRequested = false) :
    (start connection plan).task = .attempting .resolve ∧
      (start connection plan).lookup.essence = plan.lookup.essence ∧
      (start connection plan).attempts.map Script.essence = plan.attempts.map Script.essence ∧
      Tries (blank connection plan) (start connection plan) [] := by
  have hbefore := lull_actAll (blank connection plan) plan.before
  have hheld : Tries (blank connection plan)
      { (blank connection plan).actAll plan.before with
        held := { ((blank connection plan).actAll plan.before).held with
          status := plan.access.showsState } } [] := hbefore.tries.frame
  obtain ⟨u, htries, hlookup, hattempts, hstart⟩ : ∃ u, Tries (blank connection plan) u [] ∧
      u.lookup.essence = plan.lookup.essence ∧
      u.attempts.map Script.essence = plan.attempts.map Script.essence ∧
      start connection plan = u.attempt .resolve :=
    ⟨_, (hheld.record .started).enter .resolving, hbefore.kept.lookup, hbefore.kept.attempts,
      start_eq connection plan⟩
  rw [hstart, stopRequested_attempt] at hcalm
  rw [hstart, attempt_of_calm hcalm]
  exact ⟨rfl, hlookup, hattempts,
    Tries.record (t := { u with task := .attempting .resolve }) htries.frame (.began .resolve)⟩

/-- A session uses what its resolver answers. -/
theorem exists_answer {connection : Connection} {plan : Plan}
    (hfree : (start connection plan).Unhindered) {answer : Except IoError Candidates}
    (hanswer : plan.answer? = some answer) :
    ∃ moves t, Tries (blank connection plan) t [] ∧
      t.attempts.map Script.essence = plan.attempts.map Script.essence ∧
      t.stopRequested = false ∧ (start connection plan).runFor moves = t.resolved answer := by
  obtain ⟨htask, hlookup, hattempts, hstart⟩ := starts_lookup (hfree 0).1
  obtain ⟨moves, t, rest, hlull, hcalm, hrun⟩ := exists_result Session.lookup
    (fun t rest answer => (t.putLookup rest).resolved answer) htask hfree
    (fun _ => step_resolve) (fun _ _ hlull => hlull.kept.lookup)
    ((Script.result?_congr hlookup _).trans hanswer)
  exact ⟨moves, t.putLookup rest, (hstart.trans hlull.tries).frame,
    hlull.kept.attempts.trans hattempts, hcalm, hrun⟩

/-- What a session comes to that fails before it has a stream. -/
theorem run_of_failed {connection : Connection} {plan : Plan} {error : Error}
    {tried : List Endpoint} (moves : Nat) (hfree : (start connection plan).Unhindered)
    (htask : ((start connection plan).runFor moves).task = .concluding (.failed error))
    (htries : Tries (blank connection plan) ((start connection plan).runFor moves) tried) :
    (start connection plan).run.attempted = tried ∧
      (start connection plan).run.outcome? = some (.failed error) := by
  obtain ⟨hsound, -⟩ := isInPlace_runFor connection plan moves
  have hpeer : ((start connection plan).runFor moves).peer = none :=
    Option.map_eq_none_iff.1 htries.peer
  obtain ⟨-, -, houtcome⟩ := run_concluding _ htask
  rw [completes_of_peer_none hpeer, (hfree moves).1, run_runFor] at houtcome
  refine ⟨?_, houtcome⟩
  rw [← run_runFor moves]
  refine (attempted_runFor _ hsound ?_).trans htries.attempted
  rw [htask]
  rfl

/-- If the answer of the resolver is of no use, the session fails with nothing tried. -/
theorem run_of_unresolved {connection : Connection} {plan : Plan} {error : Error}
    (hfree : (start connection plan).Unhindered) {answer : Except IoError Candidates}
    (hanswer : plan.answer? = some answer)
    (hfails : ∀ t : Session, t.settle.connection = connection →
      t.resolved answer = t.settle.fail error) :
    (start connection plan).run.attempted = [] ∧
      (start connection plan).run.outcome? = some (.failed error) := by
  obtain ⟨moves, t, htries, -, -, hrun⟩ := exists_answer hfree hanswer
  rw [hfails t htries.connection] at hrun
  refine run_of_failed moves hfree ?_ ?_
  · rw [hrun]
    rfl
  · rw [hrun]
    exact htries.settle.frame

/-- The candidates of a session are tried in turn. -/
structure TriesInTurn (connection : Connection) (plan : Plan) : Prop where
  /-- If the lookup fails, so does the session, and no connection is tried. -/
  unresolved : ∀ cause, plan.answer? = some (.error cause) →
    (start connection plan).run.attempted = [] ∧
      (start connection plan).run.outcome?
        = some (.failed (.resolve connection.config.host cause))
  /-- So it is if the host has no address. -/
  nowhere : plan.answer? = some (.ok []) →
    (start connection plan).run.attempted = [] ∧
      (start connection plan).run.outcome?
        = some (.failed (.noAddressFound connection.config.host))
  /-- The addresses are tried in their order, with the port number of the configuration, up to the
  first one that connects. The request is written to its stream, and no other stream is used
  from then on. -/
  connected : ∀ found reached peer, plan.answer? = some (.ok found) → reached < found.length →
    (∀ earlier < reached, plan.Refuses earlier) → plan.connects? reached = some (.ok peer) →
    (start connection plan).run.attempted
        = (Candidates.withPort found connection.config.port).take (reached + 1) ∧
      ∃ moves, ((start connection plan).runFor moves).Gets peer ∧
        ∀ more, ((start connection plan).runFor (moves + more)).Streams peer
  /-- If none connects, all are tried, and the session fails with the last one. -/
  exhausted : ∀ found last, plan.answer? = some (.ok found) → found ≠ [] →
    (∀ earlier < found.length, plan.Refuses earlier) →
    plan.connects? (found.length - 1) = some (.error last) →
    (start connection plan).run.attempted = Candidates.withPort found connection.config.port ∧
      (start connection plan).run.outcome? = some (.failed (.io last))

/-- The first candidate is tried if the lookup finds one. -/
theorem exists_first {connection : Connection} {plan : Plan}
    (hfree : (start connection plan).Unhindered) {first : Endpoint} {others : Candidates}
    (hanswer : plan.answer? = some (.ok (first :: others))) :
    ∃ moves, ((start connection plan).runFor moves).task
        = .attempting (.connect 0 { first with port := connection.config.port }
            (Candidates.withPort others connection.config.port)) ∧
      ((start connection plan).runFor moves).attempts.map Script.essence
        = plan.attempts.map Script.essence ∧
      Tries (blank connection plan) ((start connection plan).runFor moves)
        [{ first with port := connection.config.port }] := by
  obtain ⟨moves, t, htries, hattempts, hcalm, hrun⟩ := exists_answer hfree hanswer
  have hfirst := tries_connectNext htries.settle hcalm 0 { kind := .notConnected }
    { first with port := t.settle.connection.config.port }
    (Candidates.withPort others t.settle.connection.config.port)
  have hconnection : t.settle.connection = connection := htries.connection
  have hresolved : t.resolved (.ok (first :: others))
      = t.settle.connectNext 0 { kind := .notConnected }
        ({ first with port := t.settle.connection.config.port }
          :: Candidates.withPort others t.settle.connection.config.port) := rfl
  rw [← hresolved, hconnection] at hfirst
  refine ⟨moves, ?_⟩
  rw [hrun]
  exact ⟨hfirst.1, hfirst.2.1 ▸ hattempts, hfirst.2.2⟩

/-- **Candidates are tried in turn**, in every session that no shutdown request and no idle limit
cuts short: for every answer of the resolver and all results of the attempts, whatever time they
take and whatever else happens. -/
theorem fallback {connection : Connection} {plan : Plan}
    (hfree : (start connection plan).Unhindered) : TriesInTurn connection plan where
  unresolved cause hanswer := by
    refine run_of_unresolved hfree hanswer fun t hconnection => ?_
    rw [← hconnection]
    rfl
  nowhere hanswer := by
    refine run_of_unresolved hfree hanswer fun t hconnection => ?_
    rw [← hconnection]
    rfl
  connected found reached peer hanswer hreached hfails hconnects := by
    cases found with
    | nil => cases hreached
    | cons first others =>
      -- The candidates in front fail one after another, and this one is used.
      obtain ⟨begun, htask, hattempts, htries⟩ := exists_first hfree hanswer
      obtain ⟨moves, hgets, -, hdecoder, hattempted⟩ := exists_connection reached htask
        (hfree.runFor begun)
        (by rw [Candidates.withPort, List.length_map]; exact Nat.le_of_lt_succ hreached)
        (fun earlier hlt => by
          rw [attemptResult?_congr hattempts]
          exact hfails earlier hlt)
        ((attemptResult?_congr hattempts reached).trans hconnects)
      rw [← runFor_add] at hgets hdecoder hattempted
      obtain ⟨hsound, -⟩ := isInPlace_runFor connection plan (begun + moves)
      have hlate : ((start connection plan).runFor (begun + moves)).task.isSeeking = false := by
        rw [hgets.task]
        rfl
      refine ⟨?_, begun + moves, hgets, fun more => ?_⟩
      · -- Nothing is tried behind it.
        rw [← run_runFor (begun + moves)]
        refine (attempted_runFor _ hsound hlate).trans ?_
        rw [hattempted, htries.attempted]
        rfl
      · rw [runFor_add]
        refine streams_runFor more ?_ hsound hlate
        intro rest hrest
        cases hgets.peer.symm.trans hrest
        exact .refl peer
  exhausted found last hanswer hne hfails hlast := by
    cases found with
    | nil => exact absurd rfl hne
    | cons first others =>
      obtain ⟨begun, htask, hattempts, htries⟩ := exists_first hfree hanswer
      have hlength : (Candidates.withPort others connection.config.port).length = others.length :=
        List.length_map _
      obtain ⟨moves, hfailed, hmore⟩ := exists_failure htask (hfree.runFor begun)
        (fun number hlt => by
          rw [attemptResult?_congr hattempts]
          exact hfails number (Nat.lt_succ_of_lt (hlength ▸ hlt)))
        (by rw [hlength, attemptResult?_congr hattempts]; exact hlast)
      rw [← runFor_add] at hfailed hmore
      exact run_of_failed _ hfree hfailed (htries.trans hmore)

/-- The host has three addresses. The first one cannot be reached, which takes a while, and a
server answers at the second one. -/
def secondAnswers : Plan where
  lookup := [.delay 5, .result (.ok [{ address := .v4 ⟨10, 0, 0, 1⟩, port := 0 },
    { address := .v4 ⟨10, 0, 0, 2⟩, port := 0 }, { address := .v4 ⟨10, 0, 0, 3⟩, port := 0 }])]
  attempts := [[.delay 50, .result (.error { kind := .hostUnreachable })],
    [.result (.ok { reads := [.result (.error { kind := .connectionReset })] })]]

/-- The session is over within forty moves, and nothing cuts it short until then. -/
theorem unhindered_secondAnswers : (start .sample secondAnswers).Unhindered :=
  always_of_isHalted (n := 40)
    (P := fun s => s.stopRequested = false ∧ s.task ≠ .concluding (.failed .connectionTimeout))
    (by decide +kernel) (by decide +kernel)

/-- Two of the three addresses are tried, at the port of the configuration, and the request goes to
the server at the second one. -/
theorem fallback_secondAnswers :
    (start .sample secondAnswers).Unhindered ∧
    (start .sample secondAnswers).run.attempted = [{ address := .v4 ⟨10, 0, 0, 1⟩, port := 80 },
      { address := .v4 ⟨10, 0, 0, 2⟩, port := 80 }] ∧
    ∃ moves, ((start .sample secondAnswers).runFor moves).Gets
      { reads := [.result (.error { kind := .connectionReset })] } := by
  have hrefuses : ∀ earlier < 1, secondAnswers.Refuses earlier := by
    intro earlier hlt
    obtain rfl : earlier = 0 := Nat.lt_one_iff.1 hlt
    exact ⟨_, rfl⟩
  obtain ⟨hattempted, moves, hgets, -⟩ := (fallback unhindered_secondAnswers).connected _ 1 _ rfl
    (by decide) hrefuses rfl
  exact ⟨unhindered_secondAnswers, hattempted, moves, hgets⟩

end Session

end NtripClient
