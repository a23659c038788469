import NtripClient.Proofs.Answer.Advance
import NtripClient.Proofs.Session.Teardown

/-!
# `NtripClient.Proofs.Session.Calls`: in what order the owner is called

`calls_of_outcome` is the main statement. Whatever happens to a session that comes to an
outcome, its owner is called with the headers at most once, then with pieces of data, then
with the end that belongs to the outcome. The status line decides whether there is a call
with headers.

The invariant is `Reading`: the state, the stage of the decoder and the calls made so far
belong together. It is stated for the phases of an answer, so that a move that reports
nothing keeps it for the reason that the phase stays the same. Once the work of a session
has stopped, `run_concluding` says the rest.
-/

set_option autoImplicit false

namespace NtripClient

/-! ### Calls and the answer they are about -/

/-- Calls with headers, and then calls with data. -/
def Notice.ofAnswer (headers : List HeaderMap) (data : List Bytes) : List Notice :=
  headers.map .headers ++ data.map .data

/-- The calls that an answer leads to: the headers and the pieces of data, as the status
line in front of `bytes` demands. -/
structure Demanded (bytes : Bytes) (headers : List HeaderMap) (data : List Bytes) : Prop where
  /-- There is at most one call with headers. -/
  once : headers.length ≤ 1
  /-- Pieces of data are not empty. -/
  nonempty : ∀ piece ∈ data, piece ≠ []
  /-- There are calls only for an answer that was accepted. -/
  accepted : headers ≠ [] ∨ data ≠ [] →
    ∃ status, statusLine? bytes = some status ∧ status.isOk = true
  /-- Some status lines have no headers. -/
  skipped : ∀ status, statusLine? bytes = some status → status.skipsHeaders = true → headers = []
  /-- After all others the headers come before any data. -/
  first : ∀ status, statusLine? bytes = some status → status.skipsHeaders = false →
    data ≠ [] → headers ≠ []

namespace Task

/-- The answer has not been waited for yet. -/
def isEarly : Task → Bool
  | .attempting .resolve => true
  | .attempting (.connect _ _ _) => true
  | .attempting (.write .request _) => true
  | .attempting (.flush .request) => true
  | _ => false

/-- The session has not stopped working. -/
def isWorking : Task → Bool
  | .attempting _ => true
  | .decoding => true
  | _ => false

end Task

namespace Session

variable {s t : Session} {origin : Connection}

/-- The calls made so far are those that the bytes received demand. -/
def Calls (s : Session) : Prop :=
  ∃ headers data, s.notices = Notice.ofAnswer headers data ∧
    Demanded s.received headers data

/-- The calls made so far, phase by phase. -/
def CallsSoFar (s : Session) : Prop :=
  match s.decoder.stage.phase with
  | .status => s.notices = [] ∧ s.decoder.buffer = s.received
  | .headers => s.notices = [] ∧ ∃ status, statusLine? s.received = some status ∧
      status.isOk = true ∧ status.skipsHeaders = false
  | .body => ∃ status headers data, statusLine? s.received = some status ∧
      status.isOk = true ∧ s.notices = Notice.ofAnswer headers data ∧
      headers.length = (if status.skipsHeaders then 0 else 1) ∧ ∀ piece ∈ data, piece ≠ []

/-- The session is one of this connection. -/
def IsOf (s : Session) (origin : Connection) : Prop :=
  s.connection = origin ∧ s.watchdog.timeout = (Watchdog.new origin.config.idleTimeout 0).timeout

/-- The state, the decoder and the calls made so far belong together. -/
structure Reading (s : Session) (origin : Connection) : Prop where
  isOf : s.IsOf origin
  sound : s.decoder.Sound
  isOpen : s.state.isClosed = false
  active : s.state.isActive = true ↔ s.decoder.stage.phase = .body
  calls : s.CallsSoFar

/-- No calls are fine whatever was received. -/
theorem demanded_nil (bytes : Bytes) : Demanded bytes [] [] where
  once := Nat.zero_le 1
  nonempty _ hmem := by cases hmem
  accepted h := by simp at h
  skipped _ _ _ := rfl
  first _ _ _ h := absurd rfl h

/-- At any time the calls are in order. -/
theorem Reading.demanded (h : s.Reading origin) : s.Calls := by
  have hcalls := h.calls
  unfold CallsSoFar at hcalls
  split at hcalls
  · exact ⟨[], [], hcalls.1, demanded_nil _⟩
  · exact ⟨[], [], hcalls.1, demanded_nil _⟩
  · -- In a body the number of calls with headers tells which status line it was.
    obtain ⟨status, headers, data, hline, hok, hnotices, hlength, hdata⟩ := hcalls
    refine ⟨headers, data, hnotices, ⟨?_, hdata, fun _ => ⟨status, hline, hok⟩, ?_, ?_⟩⟩
    · rw [hlength]
      split <;> decide
    · intro other hother hskips
      cases hline.symm.trans hother
      exact List.length_eq_zero_iff.1 (by rw [hlength, if_pos hskips])
    · intro other hother hskips _ hnil
      cases hline.symm.trans hother
      rw [hnil, hskips] at hlength
      cases hlength

/-- The invariant speaks of the state, the decoder, and what was told and received. -/
theorem Reading.congr (h : s.Reading origin) (connection : t.connection = s.connection)
    (timeout : t.watchdog.timeout = s.watchdog.timeout) (decoder : t.decoder = s.decoder)
    (state : t.state = s.state) (notices : t.notices = s.notices)
    (received : t.received = s.received) : t.Reading origin where
  isOf := ⟨connection.trans h.isOf.1, timeout.trans h.isOf.2⟩
  sound := decoder ▸ h.sound
  isOpen := state ▸ h.isOpen
  active := by rw [state, decoder]; exact h.active
  calls := by
    have hcalls := h.calls
    unfold CallsSoFar at hcalls ⊢
    rwa [decoder, notices, received]

/-- Neither time nor the owner changes what belongs together. -/
theorem Reading.lull (h : s.Reading origin) (hlull : Lull s t) : t.Reading origin := by
  have hkept := hlull.kept
  exact h.congr hkept.connection hkept.timeout hkept.decoder hkept.state hlull.notices
    hlull.received

/-- It does not speak of the task, of the scripts, or of what the owner has and sends. -/
theorem Reading.frame (h : s.Reading origin) {task : Task} {held : Held}
    {lookup : Script (Except IoError Candidates)} {attempts : List (Script (Except IoError Peer))}
    {peer : Option Peer} {arrived : Bytes} {uplink : Uplink} :
    ({ s with task, held, lookup, attempts, peer, arrived, uplink } : Session).Reading origin :=
  h.congr rfl rfl rfl rfl rfl rfl

/-- Most of what is recorded is neither a call nor an arrival. -/
theorem Reading.record (h : s.Reading origin) (event : Event) (hnotice : event.notice? = none)
    (harrival : event.arrival = []) : (s.record event).Reading origin :=
  h.congr rfl rfl rfl rfl (notices_record_of_silent s hnotice)
    (received_record_of_silent s harrival)

/-- Setting the deadline anew leaves the limit as it is. -/
theorem timeout_reset (watchdog : Watchdog) (now : Nat) :
    (watchdog.reset now).timeout = watchdog.timeout := by
  unfold Watchdog.reset
  split <;> rfl

/-- Settling changes nothing of it. -/
theorem Reading.settle (h : s.Reading origin) : s.settle.Reading origin :=
  Reading.record (s := { s with watchdog := s.watchdog.reset s.now })
    (h.congr rfl (timeout_reset _ _) rfl rfl rfl rfl) .settled rfl rfl

/-- A session that is not closed gets to the state that it enters. -/
theorem state_enter (h : s.state.isClosed = false) (state : State) :
    (s.enter state).state = state := by
  show s.state.moveTo state = state
  rw [State.moveTo, h]
  rfl

/-- A state may be entered that belongs to the phase. -/
theorem Reading.enter (hof : s.IsOf origin) (hsound : s.decoder.Sound)
    (hopen : s.state.isClosed = false) (hcalls : s.CallsSoFar) {state : State}
    (hstate : state.isClosed = false)
    (hactive : state.isActive = true ↔ s.decoder.stage.phase = .body) :
    (s.enter state).Reading origin where
  isOf := hof
  sound := hsound
  isOpen := by rw [state_enter hopen, hstate]
  active := by rw [state_enter hopen]; exact hactive
  calls := by
    unfold CallsSoFar at hcalls ⊢
    rw [notices_enter, received_enter]
    exact hcalls

/-! ### The course of a session -/

/-- A session works in an orderly way, or has stopped in one, or nothing can happen to it. -/
inductive Course (s : Session) (origin : Connection) : Prop where
  | working (h : s.Reading origin) (task : s.task.isWorking = true)
      (early : s.task.isEarly = true → s.decoder.stage.phase = .status)
  | stopped {t : Session} {ending : Ending} (calls : t.Calls) (task : t.task = .concluding ending)
      (run : t.run = s.run) (idle : s.task.isWorking = false)
  | stuck (task : s.task = .stuck)

/-- A session that is at the answer works in an orderly way if all belongs together. -/
theorem course_of_late (h : s.Reading origin) (hworks : s.task.isWorking = true)
    (hlate : s.task.isEarly = false) : s.Course origin := by
  refine .working h hworks ?_
  intro hearly
  rw [hlate] at hearly
  cases hearly

/-- A session that decodes works in an orderly way if all belongs together. -/
theorem course_of_decoding (h : s.Reading origin) (htask : s.task = .decoding) :
    s.Course origin :=
  course_of_late h (by rw [htask]; rfl) (by rw [htask]; rfl)

/-- The work may stop with the calls made so far. -/
theorem course_conclude (h : s.Calls) (ending : Ending) : (s.conclude ending).Course origin :=
  .stopped (t := s.conclude ending) h rfl rfl rfl

/-- The next operation may begin, or a shutdown request stops the work. -/
theorem course_attempt (h : s.Reading origin) (operation : Operation)
    (early : (Task.attempting operation).isEarly = true → s.decoder.stage.phase = .status) :
    (s.attempt operation).Course origin := by
  unfold attempt
  split
  · exact course_conclude h.demanded _
  · exact .working (Reading.record (s := { s with task := .attempting operation })
      h.frame (.began operation) rfl rfl) rfl early

/-- A pause is orderly, whatever it comes to. -/
theorem course_pause {α : Type} {script : Script α} (h : s.Reading origin)
    (task : s.task.isWorking = true)
    (early : s.task.isEarly = true → s.decoder.stage.phase = .status)
    (hpause : Pause script s t) : t.Course origin := by
  cases hpause with
  | on hlull =>
    refine .working (h.lull hlull) (by rw [hlull.kept.task, task]) ?_
    intro hearly
    rw [hlull.kept.decoder]
    exact early (by rwa [hlull.kept.task] at hearly)
  | stuck hlull => exact .stuck rfl
  | cancelled hlull => exact course_conclude (h.lull hlull).demanded _
  | expired hlull => exact course_conclude (h.lull hlull).demanded _

/-! ### Before the answer -/

/-- A state before the answer may be entered while nothing of it was read. -/
theorem Reading.enter_early (h : s.Reading origin) (hphase : s.decoder.stage.phase = .status)
    (state : State) (hstate : state.isClosed = false) (hactive : state.isActive = false) :
    (s.enter state).Reading origin :=
  .enter h.isOf h.sound h.isOpen h.calls hstate (by rw [hactive, hphase]; simp)

/-- The next attempt is orderly while nothing of the answer was read. -/
theorem course_connectNext (h : s.Reading origin) (hphase : s.decoder.stage.phase = .status)
    (candidate : Nat) (last : IoError) (candidates : Candidates) :
    (s.connectNext candidate last candidates).Course origin := by
  cases candidates with
  | nil => exact course_conclude h.demanded _
  | cons endpoint others =>
    exact course_attempt (h.enter_early hphase _ rfl rfl) _ fun _ => hphase

/-- So is what follows the lookup. -/
theorem course_resolved (h : s.Reading origin) (hphase : s.decoder.stage.phase = .status)
    (result : Except IoError Candidates) : (s.resolved result).Course origin := by
  unfold resolved
  split
  · exact course_conclude h.settle.demanded _
  · exact course_conclude h.settle.demanded _
  · exact course_connectNext h.settle hphase _ _ _

/-- So is what follows an attempt. -/
theorem course_connected (h : s.Reading origin) (hphase : s.decoder.stage.phase = .status)
    (candidate : Nat) (others : Candidates) (result : Except IoError Peer) :
    (s.connected candidate others result).Course origin := by
  have hs : ({ s with attempts := s.attempts.tail } : Session).settle.Reading origin :=
    Reading.settle h.frame
  unfold connected
  cases result with
  | error cause => exact course_connectNext hs hphase _ _ _
  | ok peer =>
    refine course_attempt ?_ _ fun _ => hphase
    exact Reading.enter_early
      (s := { ({ s with attempts := s.attempts.tail } : Session).settle with peer := some peer })
      hs.frame hphase .writing rfl rfl

/-! ### Writing -/

/-- A write is orderly, that of the request while nothing of the answer was read. -/
theorem course_written (h : s.Reading origin) {purpose : Purpose} {bytes : Bytes}
    (htask : s.task = .attempting (.write purpose bytes))
    (early : s.task.isEarly = true → s.decoder.stage.phase = .status)
    (result : Except IoError Nat) : (s.written purpose bytes result).Course origin := by
  unfold written
  cases result with
  | error cause =>
    simp only
    split
    · exact .working h (by rw [htask]; rfl) early
    · exact course_conclude h.settle.demanded _
  | ok limit =>
    have hw : (s.record (.wrote (bytes.take limit))).Reading origin := h.record (.wrote _) rfl rfl
    simp only
    split
    · exact course_conclude hw.settle.demanded _
    · refine .working hw.frame rfl fun hearly => early ?_
      rw [htask]
      cases purpose with
      | request => rfl
      | uplink => cases hearly

/-- So is a flush. That of the request leads to the answer. -/
theorem course_flushed (h : s.Reading origin) {purpose : Purpose}
    (htask : s.task = .attempting (.flush purpose))
    (early : s.task.isEarly = true → s.decoder.stage.phase = .status)
    (result : Except IoError Unit) : (s.flushed purpose result).Course origin := by
  unfold flushed
  cases result with
  | error cause => exact course_conclude h.settle.demanded _
  | ok u =>
    have hf : (s.record .flushed).settle.Reading origin := (h.record .flushed rfl rfl).settle
    cases purpose with
    | request =>
      have hphase := early (by rw [htask]; rfl)
      have hentered := hf.enter_early hphase .readingStatus rfl rfl
      exact course_of_decoding hentered.frame rfl
    | uplink => exact course_attempt hf _ fun hearly => by cases hearly

/-! ### Reading -/

/-- Bytes that arrive do not change what the calls made so far are about. -/
theorem callsSoFar_push (h : s.CallsSoFar) (bytes : Bytes)
    (hdecoder : t.decoder = s.decoder.push bytes) (hnotices : t.notices = s.notices)
    (hreceived : t.received = s.received ++ bytes) : t.CallsSoFar := by
  unfold CallsSoFar at h ⊢
  rw [hdecoder, hnotices, hreceived]
  -- The phase is the same, and a status line that is complete stays what it is.
  simp only [Decoder.push]
  split at h
  · exact ⟨h.1, by rw [h.2]⟩
  · obtain ⟨hnone, status, hline, hstatus⟩ := h
    exact ⟨hnone, status, statusLine?_append hline bytes, hstatus⟩
  · obtain ⟨status, headers, data, hline, hcalls⟩ := h
    exact ⟨status, headers, data, statusLine?_append hline bytes, hcalls⟩

/-- Handing bytes on to the decoder is orderly. -/
theorem course_receive (h : s.Reading origin) : s.receive.Course origin := by
  have hs : ({ s with
      arrived := s.arrived.drop s.connection.config.readLimit } : Session).settle.Reading origin :=
    Reading.settle h.frame
  have hnotices := notices_record_of_silent
    ({ s with arrived := s.arrived.drop s.connection.config.readLimit } : Session).settle
    (rfl : (Event.received (s.arrived.take s.connection.config.readLimit)).notice? = none)
  have hreceived := received_record
    ({ s with arrived := s.arrived.drop s.connection.config.readLimit } : Session).settle
    (.received (s.arrived.take s.connection.config.readLimit))
  refine course_of_decoding
    ⟨hs.isOf, Decoder.sound_push hs.sound _, hs.isOpen, hs.active, ?_⟩ rfl
  exact callsSoFar_push hs.calls _ rfl hnotices hreceived

/-- Getting bytes is orderly, and so is the end of the stream. -/
theorem course_readable (h : s.Reading origin) (htask : s.task = .attempting .read)
    (result : Except IoError Bytes) : (s.readable result).Course origin := by
  unfold readable
  cases result with
  | error cause => exact course_conclude h.settle.demanded _
  | ok bytes =>
    simp only
    split
    · exact course_conclude h.settle.demanded _
    · exact course_of_late h.frame (by rw [htask]; rfl) (by rw [htask]; rfl)

/-! ### Decoding -/

/-- A decoder that stays in its phase and reports nothing changes nothing. -/
theorem Reading.with_decoder (h : s.Reading origin) {decoder : Decoder} (hsound : decoder.Sound)
    (hphase : decoder.stage.phase = s.decoder.stage.phase)
    (hbuffer : s.decoder.stage.phase = .status → decoder.buffer = s.decoder.buffer) :
    ({ s with decoder } : Session).Reading origin where
  isOf := h.isOf
  sound := hsound
  isOpen := h.isOpen
  active := by rw [hphase]; exact h.active
  calls := by
    have hcalls := h.calls
    unfold CallsSoFar at hcalls ⊢
    rw [hphase]
    cases hp : s.decoder.stage.phase with
    | status =>
      rw [hp] at hcalls
      exact ⟨hcalls.1, (hbuffer hp).trans hcalls.2⟩
    | headers => rw [hp] at hcalls; exact hcalls
    | body => rw [hp] at hcalls; exact hcalls

/-- The calls of a body: the headers if there are any, and pieces of data. -/
theorem callsSoFar_body {status : StatusLine} (headers : List HeaderMap) (data : List Bytes)
    (hphase : s.decoder.stage.phase = .body) (hline : statusLine? s.received = some status)
    (hok : status.isOk = true)
    (hnotices : s.notices = Notice.ofAnswer headers data)
    (hlength : headers.length = if status.skipsHeaders then 0 else 1)
    (hdata : ∀ piece ∈ data, piece ≠ []) : s.CallsSoFar := by
  unfold CallsSoFar
  rw [hphase]
  exact ⟨status, headers, data, hline, hok, hnotices, hlength, hdata⟩

/-- A status line that is accepted leads to the headers or, without a call, to the body. -/
theorem course_accepted (h : s.Reading origin) {status : StatusLine} {decoder : Decoder}
    (hsound : decoder.Sound) (hbefore : s.decoder.stage.phase = .status)
    (hline : statusLine? s.decoder.buffer = some status) (hok : status.isOk = true)
    (hafter : decoder.stage.phase = if status.skipsHeaders then .body else .headers)
    (htask : s.task = .decoding) :
    (if status.skipsHeaders then ({ s with decoder } : Session).enter (.streaming .plain)
      else ({ s with decoder } : Session).enter .readingHeaders).Course origin := by
  have hcalls := h.calls
  unfold CallsSoFar at hcalls
  rw [hbefore] at hcalls
  obtain ⟨hnotices, hbuffer⟩ := hcalls
  -- Nothing was consumed before the status line, so its line is that of the whole answer.
  rw [hbuffer] at hline
  split
  · -- The status line has no headers: the body begins without a call.
    rename_i hskips
    rw [if_pos hskips] at hafter
    refine course_of_decoding (Reading.enter (s := { s with decoder }) h.isOf hsound h.isOpen ?_
      rfl (iff_of_true rfl hafter)) htask
    refine callsSoFar_body (s := { s with decoder }) [] [] hafter hline hok
      hnotices ?_ fun piece hmem => by cases hmem
    rw [if_pos hskips]
    rfl
  · -- The headers come next, still without any call.
    rename_i hskips
    rw [if_neg hskips] at hafter
    refine course_of_decoding (Reading.enter (s := { s with decoder }) h.isOf hsound h.isOpen ?_
      rfl ?_) htask
    · unfold CallsSoFar
      simp only [hafter]
      exact ⟨hnotices, status, hline, hok, by simpa using hskips⟩
    · rw [hafter]
      simp [State.isActive]

/-- A call of the owner does not change whose session it is. -/
theorem IsOf.notify (h : s.IsOf origin) (notice : Notice) : (s.notify notice).IsOf origin := by
  have hkept := (lull_notify s notice).kept
  exact ⟨hkept.connection.trans h.1, hkept.timeout.trans h.2⟩

/-- The headers are the first call. -/
theorem course_headers (h : s.Reading origin) {map : HeaderMap} {decoder : Decoder}
    (hsound : decoder.Sound) (hbefore : s.decoder.stage.phase = .headers)
    (hafter : decoder.stage.phase = .body) (framing : Framing) (htask : s.task = .decoding) :
    ((({ s with decoder } : Session).notify (.headers map)).enter (.streaming framing)).Course
      origin := by
  have hcalls := h.calls
  unfold CallsSoFar at hcalls
  rw [hbefore] at hcalls
  obtain ⟨hnone, status, hline, hok, hskips⟩ := hcalls
  -- What the owner does in return changes none of this.
  have hof := IsOf.notify (s := { s with decoder }) h.isOf (.headers map)
  have hkept := (lull_notify { s with decoder } (.headers map)).kept
  have hnotices := notices_notify { s with decoder } (.headers map)
  have hreceived := received_notify { s with decoder } (.headers map)
  generalize ({ s with decoder } : Session).notify (.headers map) = t
    at hof hkept hnotices hreceived ⊢
  have hdecoder : t.decoder = decoder := hkept.decoder
  have hphase : t.decoder.stage.phase = .body := by rw [hdecoder, hafter]
  have hopen : t.state.isClosed = false := (congrArg State.isClosed hkept.state).trans h.isOpen
  have hwork : t.task = .decoding := hkept.task.trans htask
  have hcalls' : t.CallsSoFar := by
    refine callsSoFar_body [map] [] hphase (by rw [hreceived]; exact hline) hok ?_
      (by rw [hskips]; rfl) fun piece hmem => by cases hmem
    exact hnotices.trans (congrArg (· ++ [Notice.headers map]) hnone)
  exact course_of_decoding
    (.enter hof (hdecoder ▸ hsound) hopen hcalls' rfl (iff_of_true rfl hphase)) hwork

/-- Data is called for after all other calls. -/
theorem course_data (h : s.Reading origin) {bytes : Bytes} {decoder : Decoder}
    (hsound : decoder.Sound) (hbefore : s.decoder.stage.phase = .body) (hne : bytes ≠ [])
    (hafter : decoder.stage.phase = .body) (htask : s.task = .decoding) :
    (({ s with decoder } : Session).notify (.data bytes)).Course origin := by
  have hcalls := h.calls
  unfold CallsSoFar at hcalls
  rw [hbefore] at hcalls
  obtain ⟨status, headers, data, hline, hok, hsofar, hlength, hdata⟩ := hcalls
  -- What the owner does in return changes none of this.
  have hof := IsOf.notify (s := { s with decoder }) h.isOf (.data bytes)
  have hkept := (lull_notify { s with decoder } (.data bytes)).kept
  have hnotices := notices_notify { s with decoder } (.data bytes)
  have hreceived := received_notify { s with decoder } (.data bytes)
  generalize ({ s with decoder } : Session).notify (.data bytes) = t
    at hof hkept hnotices hreceived ⊢
  have hdecoder : t.decoder = decoder := hkept.decoder
  have hstate : t.state = s.state := hkept.state
  have hphase : t.decoder.stage.phase = .body := by rw [hdecoder, hafter]
  have hopen : t.state.isClosed = false := by rw [hstate, h.isOpen]
  have hactive : t.state.isActive = true ↔ t.decoder.stage.phase = .body := by
    rw [hstate, h.active, hbefore, hphase]
  have hwork : t.task = .decoding := hkept.task.trans htask
  have hcalls' : t.CallsSoFar := by
    refine callsSoFar_body headers (data ++ [bytes]) hphase (by rw [hreceived]; exact hline) hok
      ?_ hlength ?_
    · rw [hnotices, Notice.ofAnswer, List.map_append, ← List.append_assoc]
      exact congrArg (· ++ [Notice.data bytes]) hsofar
    · intro piece hmem
      rcases List.mem_append.1 hmem with hmem | hmem
      · exact hdata piece hmem
      · rw [List.mem_singleton.1 hmem]
        exact hne
  exact course_of_decoding ⟨hof, hdecoder ▸ hsound, hopen, hactive, hcalls'⟩ hwork

/-- Decoding is orderly: a call is made for what the decoder reports, in the phase where it may. -/
theorem course_stepDecoder (h : s.Reading origin) (htask : s.task = .decoding) :
    s.stepDecoder.Course origin := by
  have hreports := Decoder.reports_advance s.limits h.sound
  have hsound := Decoder.sound_advance s.limits h.sound
  unfold stepDecoder
  cases hadvance : s.decoder.advance s.limits with
  | mk signal decoder =>
    rw [hadvance] at hreports hsound
    -- A shutdown request keeps a report from being told, and everything stays in order.
    have hstop : ∀ {u : Session} {ending}, u.Course origin →
        (if s.stopRequested then ({ s with decoder } : Session).conclude ending else u).Course
          origin := by
      intro u ending hu
      split
      · exact course_conclude (s := { s with decoder }) h.demanded _
      · exact hu
    cases hreports with
    | more hphase hbuffer =>
      exact course_attempt (h.with_decoder hsound hphase fun _ => hbuffer) _
        fun hearly => by cases hearly
    | proceed hbefore hafter =>
      have hsame := hafter.trans hbefore.symm
      refine course_of_decoding (h.with_decoder hsound hsame ?_) htask
      intro hphase
      rw [hbefore] at hphase
      cases hphase
    | accepted hbefore hline hok hafter =>
      exact course_accepted h hsound hbefore hline hok hafter htask
    | headers hbefore hafter => exact hstop (course_headers h hsound hbefore hafter _ htask)
    | data hbefore hne hafter => exact hstop (course_data h hsound hbefore hne hafter htask)
    | finished hbefore => exact course_conclude (s := { s with decoder }) h.demanded _
    | failed => exact course_conclude (s := { s with decoder }) h.demanded _

/-! ### Every move and every run -/

/-- A session that works makes an orderly move. -/
theorem course_step_of_working (h : s.Reading origin) (hworks : s.task.isWorking = true)
    (early : s.task.isEarly = true → s.decoder.stage.phase = .status) : s.step.Course origin := by
  -- Over the operations: what follows a result, or a pause.
  cases htask : s.task with
  | attempting operation =>
    cases operation with
    | resolve =>
      have hphase := early (by rw [htask]; rfl)
      rcases step_resolve htask with ⟨result, rest, -, hstep⟩ | hpause
      · rw [hstep]
        exact course_resolved (s := s.putLookup rest) h.frame hphase result
      · exact course_pause h hworks early hpause
    | connect candidate endpoint others =>
      have hphase := early (by rw [htask]; rfl)
      rcases step_connect htask with ⟨result, rest, -, hstep⟩ | hpause
      · rw [hstep]
        exact course_connected (s := s.putAttempt rest) h.frame hphase _ _ result
      · exact course_pause h hworks early hpause
    | write purpose bytes =>
      by_cases hne : bytes = []
      · subst hne
        rw [step_write_nil htask]
        refine .working h.frame rfl fun hearly => early ?_
        rw [htask]
        cases purpose with
        | request => rfl
        | uplink => cases hearly
      · rcases step_write hne htask with ⟨result, rest, -, hstep⟩ | hpause
        · rw [hstep]
          exact course_written (s := s.putWrites rest) h.frame htask early result
        · exact course_pause h hworks early hpause
    | flush purpose =>
      rcases step_flush htask with ⟨result, rest, -, hstep⟩ | hpause
      · rw [hstep]
        exact course_flushed (s := s.putFlushes rest) h.frame htask early result
      · exact course_pause h hworks early hpause
    | read =>
      by_cases harrived : s.arrived = []
      · rcases step_read htask harrived with
          ⟨result, rest, -, hstep⟩ | ⟨message, uplink, -, -, -, hstep⟩ | hpause
        · rw [hstep]
          exact course_readable (s := s.putReads rest) h.frame htask result
        · rw [hstep]
          refine course_attempt ?_ _ fun hearly => by cases hearly
          exact Reading.settle (s := { s with uplink }) h.frame
        · exact course_pause h hworks early hpause
      · rw [step_receive htask harrived]
        exact course_receive h
  | decoding =>
    rw [step_decoding htask]
    exact course_stepDecoder h htask
  | concluding ending => rw [htask] at hworks; cases hworks
  | closing outcome => rw [htask] at hworks; cases hworks
  | ended outcome => rw [htask] at hworks; cases hworks
  | stuck => rw [htask] at hworks; cases hworks

/-- A session that works is in order. -/
theorem Course.reading (h : s.Course origin) (hworks : s.task.isWorking = true) :
    s.Reading origin := by
  cases h with
  | working h => exact h
  | stopped calls task run idle => rw [idle] at hworks; cases hworks
  | stuck task => rw [task] at hworks; cases hworks

/-- A session that has stopped working does not begin again. -/
theorem isWorking_step (h : s.task.isWorking = false) : s.step.task.isWorking = false := by
  cases htask : s.task with
  | attempting operation => rw [htask] at h; cases h
  | decoding => rw [htask] at h; cases h
  | concluding ending =>
    rw [step_concluding htask, stepConclusion]
    split
    · rfl
    · rw [task_finish]
      rfl
  | closing outcome =>
    rcases step_closing htask with ⟨result, rest, -, hstep⟩ | hlull | ⟨-, hstep⟩
    · rw [hstep, task_finish]
      rfl
    · rw [hlull.kept.task, htask]
      rfl
    · rw [hstep]
      rfl
  | ended outcome => rw [step_of_halted (by simp only [isHalted, htask]), htask]; rfl
  | stuck => rw [step_of_halted (by simp only [isHalted, htask]), htask]; rfl

/-- Every move keeps the course of a session. -/
theorem course_step (h : s.Course origin) : s.step.Course origin := by
  cases h with
  | working h hworks early => exact course_step_of_working h hworks early
  | stopped calls task run idle =>
    exact .stopped calls task (run.trans (run_step s).symm) (isWorking_step idle)
  | stuck task => exact .stuck (by rw [step_of_halted (by simp only [isHalted, task]), task])

/-- Before anything has happened nothing was searched, read or told. -/
theorem reading_blank (connection : Connection) (plan : Plan) :
    (blank connection plan).Reading connection where
  isOf := ⟨rfl, rfl⟩
  sound := Bytes.searched_zero _ _
  isOpen := rfl
  active := by simp [blank, State.isActive, Stage.phase]
  calls := ⟨rfl, rfl⟩

/-- A session starts its course in an orderly way. -/
theorem course_start (connection : Connection) (plan : Plan) :
    (start connection plan).Course connection := by
  rw [start_eq]
  have hlull := lull_actAll (blank connection plan) plan.before
  have hbefore := (reading_blank connection plan).lull hlull
  have hphase := congrArg (·.stage.phase) hlull.kept.decoder
  refine course_attempt (Reading.enter_early ?_ ?_ .resolving rfl rfl) _ ?_
  · exact Reading.record hbefore.frame .started rfl rfl
  · exact hphase
  · intro _
    exact hphase

/-- Every state that a session passes through is part of an orderly course. -/
theorem course_runFor (connection : Connection) (plan : Plan) (moves : Nat) :
    ((start connection plan).runFor moves).Course connection :=
  keeps_runFor (P := fun s => s.Course connection) (fun _ => course_step) moves
    (course_start connection plan)

/-! ### What the owner is told -/

/-- At this moment a read meets the end of the stream: the server has closed it. -/
structure MeetsClose (s : Session) : Prop where
  task : s.task = .attempting .read
  arrived : s.arrived = []
  reads : ∃ rest, s.reads.Gives (.ok []) (.ok []) rest

/-- A read that meets the close stops the work. -/
theorem step_of_meetsClose (h : s.MeetsClose) :
    ∃ rest, s.step = (s.putReads rest).settle.conclude .closed := by
  obtain ⟨rest, hgives⟩ := h.reads
  refine ⟨rest, ?_⟩
  simp only [step, h.task, stepOperation, h.arrived, List.isEmpty_nil, if_true]
  rcases hgives with ⟨hnil, -, rfl⟩ | hcons
  · rw [hnil]
    rfl
  · rw [hcons]
    rfl

/-- What comes of a read that meets the close is decided by how far the session has come. -/
theorem outcome_of_meetsClose (h : s.MeetsClose) (hcalm : s.stopRequested = false)
    {outcome : Outcome} (houtcome : s.run.outcome? = some outcome) :
    outcome = if s.state.isActive then .eof else .failed Error.closedEarly := by
  obtain ⟨rest, hstep⟩ := step_of_meetsClose h
  have hrun := (run_concluding ((s.putReads rest).settle.conclude .closed) rfl).2.2
  rw [← hstep, run_step, houtcome] at hrun
  split at hrun
  · have hcame := Option.some.inj hrun
    rw [hcame, hstep]
    show outcomeOf s.stopRequested s.state .closed = _
    rw [hcalm]
    rfl
  · cases hrun

/-- A session that comes to an outcome has stopped in an orderly way. -/
theorem Course.calls_of_outcome? (h : s.Course origin) {outcome : Outcome}
    (houtcome : s.outcome? = some outcome) :
    ∃ headers data, s.notices = Notice.ofAnswer headers data ++ outcome.lastCalls ∧
      Demanded s.received headers data := by
  have htask : s.task = .ended outcome := by
    unfold outcome? at houtcome
    split at houtcome
    · rename_i outcome' htask
      cases houtcome
      exact htask
    · cases houtcome
  cases h with
  | working h hworks => rw [htask] at hworks; cases hworks
  | stuck hstuck => rw [htask] at hstuck; cases hstuck
  | stopped calls task run =>
    -- The session is at its end, which is where the run from its stop leads, too.
    have hself : s.run = s := run_of_halted (by simp only [isHalted, htask])
    obtain ⟨headers, data, hnotices, hdemanded⟩ := calls
    obtain ⟨hnotices', hreceived, houtcome'⟩ := run_concluding _ task
    rw [run.trans hself] at hnotices' hreceived houtcome'
    rw [houtcome] at houtcome'
    split at houtcome'
    · rw [← Option.some.inj houtcome', hnotices] at hnotices'
      exact ⟨headers, data, hnotices', hreceived ▸ hdemanded⟩
    · cases houtcome'

/-- **The calls of the owner are in order** in every session that comes to an outcome: the
headers at most once, then pieces of data, none of them empty, then the call that belongs to
the outcome, and none for a shutdown. There are no headers after a status line that skips
them, and after any other they come before the data.

A read that meets the server's close, if no shutdown was requested, is the end of a body
that has begun, and otherwise a failure of kind `IoKind.unexpectedEof`. -/
theorem calls_of_outcome (connection : Connection) (plan : Plan) {outcome : Outcome}
    (h : (start connection plan).run.outcome? = some outcome) :
    (∃ headers data,
      (start connection plan).run.notices
        = Notice.ofAnswer headers data ++ outcome.lastCalls ∧
      Demanded (start connection plan).run.received headers data) ∧
    ∀ moves, ((start connection plan).runFor moves).MeetsClose →
      ((start connection plan).runFor moves).stopRequested = false →
      if ((start connection plan).runFor moves).state.isActive then outcome = .eof
      else ∃ cause, outcome = .failed (.io cause) ∧ cause.kind = .unexpectedEof := by
  refine ⟨(course_runFor connection plan _).calls_of_outcome? h, ?_⟩
  intro moves hmeets hcalm
  have houtcome := outcome_of_meetsClose hmeets hcalm (by rw [run_runFor, h])
  split at houtcome
  · rename_i hactive
    rw [if_pos hactive]
    exact houtcome
  · rename_i hactive
    rw [if_neg hactive]
    exact ⟨_, houtcome, rfl⟩

/-- A server that sends a body that is not chunked, and closes. -/
def closedPlainBody : Plan :=
  .serving [.result (.ok (Utf8.encode "HTTP/1.1 200 OK\r\n\r\nHELLO"))]

/-- The twelfth move leads to the read that meets the close. -/
theorem meetsClose_closedPlainBody :
    ((start .sample closedPlainBody).runFor 12).MeetsClose where
  task := by decide +kernel
  arrived := by decide +kernel
  reads := ⟨[], .inl ⟨List.isEmpty_iff.1 (by decide +kernel), rfl, rfl⟩⟩

/-- The calls are in order, and the session comes to the end of a body: this one had begun
when the server closed. -/
theorem calls_of_outcome_closedPlainBody :
    (start .sample closedPlainBody).run.outcome? = some .eof ∧
    (∃ headers data, (start .sample closedPlainBody).run.notices
        = Notice.ofAnswer headers data ++ [.eof] ∧
      Demanded (start .sample closedPlainBody).run.received headers data) ∧
    ((start .sample closedPlainBody).runFor 12).stopRequested = false ∧
    ((start .sample closedPlainBody).runFor 12).state.isActive = true := by
  have houtcome : (start .sample closedPlainBody).run.outcome? = some .eof := by decide +kernel
  have hcalm : ((start .sample closedPlainBody).runFor 12).stopRequested = false := by
    decide +kernel
  obtain ⟨hcalls, hclose⟩ := calls_of_outcome .sample closedPlainBody houtcome
  refine ⟨houtcome, hcalls, hcalm, ?_⟩
  have hclosed := hclose 12 meetsClose_closedPlainBody hcalm
  split at hclosed
  · assumption
  · obtain ⟨cause, hfailed, -⟩ := hclosed
    cases hfailed

end Session

end NtripClient
