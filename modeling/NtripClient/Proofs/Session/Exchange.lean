import NtripClient.Proofs.Session.Opening

/-!
# `NtripClient.Proofs.Session.Exchange`: a session tells what the server sends

An exchange is a session in which nothing interferes: a server is reached, the request is
written, nobody requests a shutdown or sends data, and idling is not limited.
`run_of_exchange` says what such a session tells: the transcript of the bytes of
the server, taken as a whole. `exchange_congr` is the consequence that two sessions cannot be
told apart by the way in which the bytes are cut, by the server or by their own buffers.

The proof goes backwards, from the end of a run to its front. `Fulfils` relates a session to
the end of its run: what is told until then is what the `prospect` of the session promises,
which is the transcript of the bytes it has, of those that have arrived, and of those that
will. A move that reports something shortens the prospect by what it tells, by
`Decoder.transcript_push`, and a move that only takes bytes in leaves it as it is.
-/

set_option autoImplicit false

namespace NtripClient

/-- The limits on an answer to a connection with this configuration. -/
def Config.limits (config : Config) : Limits where
  line := config.maxLineLength
  block := config.maxHeaderSize

/-! ### Outcomes and calls -/

/-- The outcome that the last of these calls announces. -/
def Outcome.ofCalls? (calls : List Notice) : Option Outcome :=
  match calls.getLast? with
  | some .eof => some .eof
  | some (.error error) => some (.failed error)
  | _ => none

/-- Calls with headers or data announce nothing. -/
theorem Outcome.ofCalls?_onto {notice : Notice} (h : notice.isTerminal = false)
    (later : List Notice) : ofCalls? (notice.onto later) = ofCalls? later := by
  cases later with
  | nil => cases notice <;> first | rfl | cases h
  | cons second later =>
    cases notice with
    | headers map => rfl
    | eof => cases h
    | error error => cases h
    | data first =>
      cases second with
      | data more =>
        cases later with
        | nil => rfl
        | cons third later => rfl
      | headers map => rfl
      | eof => rfl
      | error error => rfl

/-- Calls that do not end a session do not change the outcome that is announced. -/
theorem Outcome.ofCalls?_foldr {calls : List Notice}
    (h : ∀ notice ∈ calls, notice.isTerminal = false) (later : List Notice) :
    ofCalls? (calls.foldr Notice.onto later) = ofCalls? later := by
  induction calls with
  | nil => rfl
  | cons notice calls ih =>
    rw [List.foldr_cons, ofCalls?_onto (h notice List.mem_cons_self),
      ih fun other hmem => h other (List.mem_cons_of_mem _ hmem)]

/-- A last call announces its outcome. -/
theorem Outcome.ofCalls?_lastCalls {outcome : Outcome} (h : outcome ≠ .shutdown) :
    ofCalls? outcome.lastCalls = some outcome := by
  cases outcome with
  | eof => rfl
  | shutdown => exact absurd rfl h
  | failed error => rfl

/-- Data that belongs together is merged across the place where the calls are cut. -/
theorem Notice.merge_append (first second : List Notice) :
    Notice.merge (first ++ second) = first.foldr Notice.onto (Notice.merge second) :=
  List.foldr_append

/-- There is no data in a last call that could be merged. -/
theorem Notice.merge_lastCalls (outcome : Outcome) :
    Notice.merge outcome.lastCalls = outcome.lastCalls := by
  cases outcome <;> rfl

namespace Session

variable {s t : Session} {origin : Connection}

/-! ### Promise and fulfilment -/

/-- Nobody ever requests a shutdown or sends data. -/
def Undisturbed (s : Session) : Prop :=
  ∀ moves, (s.runFor moves).stopRequested = false ∧ (s.runFor moves).uplink.queue = []

/-- A session that nobody disturbs is not disturbed after one more move. -/
theorem Undisturbed.step (h : s.Undisturbed) : s.step.Undisturbed := by
  intro moves
  rw [← runFor_succ]
  exact h (moves + 1)

/-- What a session is going to tell of the bytes it has and will have. -/
def prospect (s : Session) : List Notice :=
  Decoder.transcript s.limits s.reads.stream.2 (s.decoder.push (s.arrived ++ s.reads.stream.1))

/-- A session tells what it promises, and comes to the outcome it announces. -/
structure Fulfils (s : Session) : Prop where
  calls : Notice.merge s.run.notices = s.notices.foldr Notice.onto s.prospect
  outcome : s.run.outcome? = if s.closes.completes then Outcome.ofCalls? s.prospect else none

/-- The decoder has asked for more bytes, so the end of the stream decides what is told. -/
def Asked (s : Session) : Prop :=
  ∀ ending, Decoder.transcript s.limits ending s.decoder = ending.calls s.decoder.stage.phase

/-- The prospect depends on the bytes, on the limits, and on the stream. -/
theorem prospect_congr (hconnection : t.connection = s.connection)
    (hdecoder : t.decoder = s.decoder) (harrived : t.arrived = s.arrived)
    (hpeer : t.peer.map Peer.answer = s.peer.map Peer.answer) : t.prospect = s.prospect := by
  unfold prospect limits
  rw [hconnection, hdecoder, harrived, stream_of_answer hpeer]

/-- While the session waits, its prospect stays what it is. -/
theorem Kept.prospect (h : Kept s t) : t.prospect = s.prospect :=
  prospect_congr h.connection h.decoder h.arrived h.answer

/-- A move that tells something fulfils a part of the promise. -/
theorem fulfils_of_step (hstep : s.step = t) (calls : List Notice)
    (hcalls : ∀ notice ∈ calls, notice.isTerminal = false)
    (hnotices : t.notices = s.notices ++ calls)
    (hprospect : s.prospect = calls.foldr Notice.onto t.prospect)
    (hcloses : t.closes.completes = s.closes.completes) (h : t.Fulfils) : s.Fulfils where
  calls := by
    rw [← run_step, hstep, h.calls, hnotices, List.foldr_append, hprospect]
  outcome := by
    rw [← run_step, hstep, h.outcome, hcloses, hprospect, Outcome.ofCalls?_foldr hcalls]

/-- A move that tells nothing leaves the whole promise. -/
theorem fulfils_of_silent_step (hstep : s.step = t) (hnotices : t.notices = s.notices)
    (hprospect : s.prospect = t.prospect) (hcloses : t.closes.completes = s.closes.completes)
    (h : t.Fulfils) : s.Fulfils :=
  fulfils_of_step hstep [] (fun _ hmem => by cases hmem)
    (hnotices.trans (List.append_nil _).symm) hprospect hcloses h

/-- A move that stops the work fulfils the promise if its outcome does. -/
theorem fulfils_of_conclude {ending : Ending} (outcome : Outcome)
    (hstep : s.step = t.conclude ending) (hnotices : t.notices = s.notices)
    (hcloses : t.closes.completes = s.closes.completes)
    (houtcome : outcomeOf t.stopRequested t.state ending = outcome) (hne : outcome ≠ .shutdown)
    (hprospect : s.prospect = outcome.lastCalls) : s.Fulfils := by
  obtain ⟨hcalls, -, hcame⟩ := run_concluding (t.conclude ending) rfl
  rw [← hstep, run_step] at hcalls hcame
  rw [hstep] at hcalls hcame
  change s.run.notices = t.notices ++ (outcomeOf t.stopRequested t.state ending).lastCalls
    at hcalls
  change s.run.outcome? = if t.closes.completes
    then some (outcomeOf t.stopRequested t.state ending) else none at hcame
  constructor
  · rw [hcalls, houtcome, hnotices, Notice.merge_append, Notice.merge_lastCalls, hprospect]
  · rw [hcame, houtcome, hcloses, hprospect, Outcome.ofCalls?_lastCalls hne]

/-- A session that waits for ever has nothing more to tell. -/
theorem fulfils_of_stuck (hstep : s.step = { t with task := .stuck })
    (hnotices : t.notices = s.notices) (hprospect : s.prospect = []) : s.Fulfils := by
  have hrun : s.run = { t with task := .stuck } := by
    rw [← run_step, hstep]
    exact run_of_halted rfl
  constructor
  · rw [hrun, hprospect, ← hnotices]
    rfl
  · rw [hrun, hprospect]
    show none = ite _ (none : Option Outcome) none
    split <;> rfl

/-! ### Decoding -/

/-- The session reads an answer: it decodes bytes, or needs more of them. -/
def Waits (s : Session) : Prop :=
  s.task = .decoding ∨ (s.task = .attempting .read ∧ s.Asked)

/-- The prospect of a session that decodes is its next report and what is left. -/
theorem prospect_eq (h : s.decoder.Sound) :
    s.prospect = (s.decoder.advance s.limits).1.told
      (Decoder.transcript s.limits s.reads.stream.2
        ((s.decoder.advance s.limits).2.push (s.arrived ++ s.reads.stream.1))) :=
  Decoder.transcript_push s.limits s.reads.stream.2 h _

/-- Asking for more bytes leaves the whole promise, and the end of the stream decides. -/
theorem fulfils_more (h : s.Reading origin) (hcalm : s.stopRequested = false)
    (htask : s.task = .decoding) {next : Decoder}
    (hadvance : s.decoder.advance s.limits = (.more, next))
    (ih : s.step.Waits → s.step.Fulfils) : s.Fulfils := by
  have hprospect := prospect_eq h.sound
  rw [hadvance] at hprospect
  have hread : s.step = ({ s with decoder := next, task := .attempting .read } : Session).record
      (.began .read) := by
    rw [step_decoding htask, stepDecoder, hadvance]
    simp only [attempt, hcalm]
    rfl
  have hasked : ({ s with decoder := next } : Session).Asked := by
    intro ending
    have hmore := Decoder.transcript_of_asked s.limits ending h.sound (by rw [hadvance])
    rwa [hadvance] at hmore
  rw [hread] at ih
  exact fulfils_of_silent_step hread (notices_record_of_silent _ rfl) hprospect rfl
    (ih (.inr ⟨rfl, hasked⟩))

/-- A call with headers or data is the next part of the promise. -/
theorem fulfils_of_call (next : Decoder) {notice : Notice} (hterminal : notice.isTerminal = false)
    (hprospect : s.prospect = notice.onto ({ s with decoder := next } : Session).prospect)
    (hstep : s.step = t)
    (hnotices : t.notices = (({ s with decoder := next } : Session).notify notice).notices)
    (hleft : t.prospect = (({ s with decoder := next } : Session).notify notice).prospect)
    (hcloses : t.closes = (({ s with decoder := next } : Session).notify notice).closes)
    (h : t.Fulfils) : s.Fulfils := by
  -- The owner may react to the call, but not to what the decoder has left.
  have hkept := (lull_notify { s with decoder := next } notice).kept
  have hprospect' : s.prospect = notice.onto t.prospect :=
    hprospect.trans (congrArg notice.onto (hleft.trans hkept.prospect).symm)
  refine fulfils_of_step hstep [notice] ?_ (hnotices.trans (notices_notify _ _)) hprospect' ?_ h
  · intro other hmem
    rw [List.mem_singleton.1 hmem, hterminal]
  · rw [hcloses]
    exact hkept.completes

/-- The end of an answer is the rest of the promise. -/
theorem fulfils_of_ending {next : Decoder} {ending : Ending} (outcome : Outcome)
    (hcalm : s.stopRequested = false)
    (hstep : s.step = ({ s with decoder := next } : Session).conclude ending)
    (houtcome : outcomeOf false s.state ending = outcome) (hne : outcome ≠ .shutdown)
    (hprospect : s.prospect = outcome.lastCalls) : s.Fulfils := by
  refine fulfils_of_conclude (t := { s with decoder := next }) outcome hstep rfl rfl ?_ hne
    hprospect
  rw [← houtcome, ← hcalm]

/-- A session that decodes fulfils its promise with every report. -/
theorem fulfils_decoding (h : s.Reading origin) (hquiet : s.Undisturbed)
    (htask : s.task = .decoding) (ih : s.step.Waits → s.step.Fulfils) : s.Fulfils := by
  have hcalm : s.stopRequested = false := (hquiet 0).1
  -- The promise is the next report and what is left, and so is the next move.
  have hprospect := prospect_eq h.sound
  have hstep := step_decoding htask
  unfold stepDecoder at hstep
  cases hadvance : s.decoder.advance s.limits with
  | mk signal next =>
    rw [hadvance] at hstep hprospect
    cases signal with
    | more => exact fulfils_more h hcalm htask hadvance ih
    | proceed =>
      rw [hstep] at ih
      exact fulfils_of_silent_step hstep rfl hprospect rfl (ih (.inl htask))
    | accepted status =>
      -- Whichever state comes next, the bytes left are the same.
      have henter : ∃ state, s.step = ({ s with decoder := next } : Session).enter state := by
        rw [hstep]
        simp only
        split
        · exact ⟨_, rfl⟩
        · exact ⟨_, rfl⟩
      obtain ⟨state, henter⟩ := henter
      rw [henter] at ih
      exact fulfils_of_silent_step henter (notices_enter _ _) hprospect rfl (ih (.inl htask))
    | headers map =>
      have hcall : ∃ state, s.step
          = (({ s with decoder := next } : Session).notify (.headers map)).enter state := by
        rw [hstep]
        simp only [hcalm]
        exact ⟨_, rfl⟩
      obtain ⟨state, hcall⟩ := hcall
      have hwork := (lull_notify { s with decoder := next } (.headers map)).kept.task.trans htask
      rw [hcall] at ih
      exact fulfils_of_call next (rfl : (Notice.headers map).isTerminal = false) hprospect
        hcall (notices_enter _ _) rfl rfl (ih (.inl hwork))
    | data bytes =>
      have hcall : s.step = ({ s with decoder := next } : Session).notify (.data bytes) := by
        rw [hstep]
        simp only [hcalm]
        rfl
      have hwork := (lull_notify { s with decoder := next } (.data bytes)).kept.task.trans htask
      rw [hcall] at ih
      exact fulfils_of_call next (rfl : (Notice.data bytes).isTerminal = false) hprospect
        hcall rfl rfl rfl (ih (.inl hwork))
    | finished => exact fulfils_of_ending .eof hcalm hstep rfl (by simp) hprospect
    | failed error => exact fulfils_of_ending (.failed error) hcalm hstep rfl (by simp) hprospect

/-! ### Reading -/

/-- What is told at the end of the stream, once the decoder has asked for more bytes. -/
theorem prospect_of_end (hasked : s.Asked) (harrived : s.arrived = [])
    {ending : StreamEnd} (hstream : s.reads.stream = ([], ending)) :
    s.prospect = ending.calls s.decoder.stage.phase := by
  rw [prospect, harrived, hstream, Decoder.push]
  rw [List.append_nil, List.append_nil]
  exact hasked ending

/-- Reading bytes that have arrived moves them into the decoder. -/
theorem prospect_receive (s : Session) : s.receive.prospect = s.prospect := by
  have hbytes : ∀ more : Bytes,
      (s.decoder.push (s.arrived.take s.connection.config.readLimit)).push
          (s.arrived.drop s.connection.config.readLimit ++ more)
        = s.decoder.push (s.arrived ++ more) := by
    intro more
    simp only [Decoder.push, List.append_assoc]
    rw [← List.append_assoc (s.arrived.take _), List.take_append_drop]
  exact congrArg (Decoder.transcript s.limits s.reads.stream.2) (hbytes s.reads.stream.1)

/-- Handing bytes on to the decoder is no call. -/
theorem notices_receive (s : Session) : s.receive.notices = s.notices := by
  have hrecord := notices_record_of_silent
    ({ s with arrived := s.arrived.drop s.connection.config.readLimit } : Session).settle
    (rfl : (Event.received (s.arrived.take s.connection.config.readLimit)).notice? = none)
  exact hrecord.trans (notices_settle _)

/-- The reads that are put back are those that are left. -/
theorem reads_putReads {reads rest : Script (Except IoError Bytes)}
    {cue : Cue (Except IoError Bytes)} (h : s.reads = cue :: reads) :
    (s.putReads rest).reads = rest := by
  unfold Session.reads at h ⊢
  cases hpeer : s.peer with
  | none => rw [hpeer] at h; cases h
  | some peer => simp [putReads, hpeer]

/-- A read finds the end of the stream, or brings the next bytes of it. -/
theorem stream_of_gives {result : Except IoError Bytes} {rest : Script (Except IoError Bytes)}
    (hgives : s.reads.Gives (.ok []) result rest) :
    (∃ ending, s.reads.stream = ([], ending) ∧
        ((result = .ok [] ∧ ending = .closed) ∨
          ∃ cause, result = .error cause ∧ ending = .failed cause)) ∨
      ∃ bytes, s.reads.stream = (bytes ++ (Script.stream rest).1, (Script.stream rest).2) ∧
        (s.putReads rest).readable result = { s.putReads rest with arrived := bytes } ∧
        ({ s.putReads rest with arrived := bytes } : Session).reads = rest := by
  rcases hgives with ⟨hnil, rfl, rfl⟩ | hcons
  · -- A script that has run out is a server that has closed.
    exact .inl ⟨.closed, by rw [hnil]; rfl, .inl ⟨rfl, rfl⟩⟩
  · cases result with
    | error cause => exact .inl ⟨.failed cause, by rw [hcons]; rfl, .inr ⟨cause, rfl, rfl⟩⟩
    | ok bytes =>
      by_cases hne : bytes = []
      · subst hne
        exact .inl ⟨.closed, by rw [hcons]; rfl, .inl ⟨rfl, rfl⟩⟩
      · refine .inr ⟨bytes, by rw [hcons, Script.stream, if_neg hne], ?_, reads_putReads hcons⟩
        simp only [readable]
        rw [if_neg (by simpa using hne)]

/-- Reading does not change how the stream closes. -/
theorem completes_putReads (s : Session) (rest : Script (Except IoError Bytes)) :
    (s.putReads rest).closes.completes = s.closes.completes := by
  have hcloses : (s.putReads rest).closes = s.closes := by
    unfold closes putReads
    cases s.peer <;> rfl
  rw [hcloses]

/-- The end of the stream is told as it should be. -/
theorem fulfils_of_end (h : s.Reading origin) (hcalm : s.stopRequested = false)
    (hasked : s.Asked) (harrived : s.arrived = []) {rest : Script (Except IoError Bytes)}
    {result : Except IoError Bytes} {ending : StreamEnd}
    (hstep : s.step = (s.putReads rest).readable result)
    (hstream : s.reads.stream = ([], ending))
    (hresult : (result = .ok [] ∧ ending = .closed) ∨
      ∃ cause, result = .error cause ∧ ending = .failed cause) : s.Fulfils := by
  have hprospect := prospect_of_end hasked harrived hstream
  rcases hresult with ⟨rfl, rfl⟩ | ⟨cause, rfl, rfl⟩
  · -- The server closed the stream: the phase decides, and the state agrees with it.
    refine fulfils_of_conclude (t := (s.putReads rest).settle)
      (if s.state.isActive then .eof else .failed Error.closedEarly) hstep (notices_settle _)
      (completes_putReads s rest) ?_ ?_ ?_
    · show outcomeOf s.stopRequested s.state .closed = _
      rw [hcalm]
      rfl
    · split <;> simp
    · rw [hprospect]
      by_cases hbody : s.decoder.stage.phase = .body
      · rw [if_pos (h.active.2 hbody), StreamEnd.calls, if_pos hbody]
        rfl
      · rw [if_neg fun hactive => hbody (h.active.1 hactive), StreamEnd.calls, if_neg hbody]
        rfl
  · -- The transport failed: the failure is the last call in every phase.
    refine fulfils_of_conclude (t := (s.putReads rest).settle) (.failed (.io cause)) hstep
      (notices_settle _) (completes_putReads s rest) ?_ (by simp) hprospect
    show outcomeOf s.stopRequested s.state (.failed (.io cause)) = _
    rw [hcalm]
    rfl

/-- Whatever a read gives is told as it should be. -/
theorem fulfils_result (h : s.Reading origin) (hcalm : s.stopRequested = false)
    (htask : s.task = .attempting .read) (hasked : s.Asked) (harrived : s.arrived = [])
    {rest : Script (Except IoError Bytes)} {result : Except IoError Bytes}
    (hgives : s.reads.Gives (.ok []) result rest)
    (hstep : s.step = (s.putReads rest).readable result)
    (ih : s.step.Waits → s.step.Fulfils) : s.Fulfils := by
  rcases stream_of_gives hgives with ⟨ending, hstream, hresult⟩ | ⟨bytes, hstream, hbytes, hrest⟩
  · exact fulfils_of_end h hcalm hasked harrived hstep hstream hresult
  · have harrive : s.step = { s.putReads rest with arrived := bytes } := hstep.trans hbytes
    rw [harrive] at ih
    refine fulfils_of_silent_step harrive rfl ?_ (completes_putReads s rest)
      (ih (.inr ⟨htask, hasked⟩))
    unfold prospect
    rw [harrived, hstream, hrest]
    rfl

/-- A pause without a shutdown and without a limit is a wait, perhaps for ever. -/
theorem fulfils_pause (hquiet : s.Undisturbed) (hlimit : s.watchdog.timeout = none)
    (htask : s.task = .attempting .read) (hasked : s.Asked) (harrived : s.arrived = [])
    (hpause : Pause s.reads s t) (hstep : s.step = t) (ih : t.Waits → t.Fulfils) :
    s.Fulfils := by
  cases hpause with
  | on hlull =>
    -- The decoder still waits for the same bytes.
    have hkept := hlull.kept
    have hasked' : t.Asked := by
      intro ending
      unfold limits
      rw [hkept.connection, hkept.decoder]
      exact hasked ending
    exact fulfils_of_silent_step hstep hlull.notices hkept.prospect.symm hkept.completes
      (ih (.inr ⟨hkept.task.trans htask, hasked'⟩))
  | stuck hlull hnever =>
    have hsilent : s.reads.stream = ([], .silent) := by
      rw [hnever]
      rfl
    exact fulfils_of_stuck hstep hlull.notices (prospect_of_end hasked harrived hsilent)
  | cancelled hlull hstop =>
    have hcalm := (hquiet.step 0).1
    rw [hstep] at hcalm
    exact absurd (hstop.symm.trans hcalm) (by simp)
  | expired hlull hexpired => exact absurd (hlull.kept.timeout.trans hlimit) hexpired

/-- A session that reads tells what it promises, if it goes on to do so after its next move. -/
theorem fulfils_reading (h : s.Reading origin) (hquiet : s.Undisturbed)
    (hlimit : s.watchdog.timeout = none) (htask : s.task = .attempting .read)
    (hasked : s.Asked) (ih : s.step.Waits → s.step.Fulfils) : s.Fulfils := by
  have hcalm : s.stopRequested = false := (hquiet 0).1
  by_cases harrived : s.arrived = []
  · rcases step_read htask harrived with
      ⟨result, rest, hgives, hstep⟩ | ⟨message, uplink, -, -, htake, -⟩ | hpause
    · exact fulfils_result h hcalm htask hasked harrived hgives hstep ih
    · -- There is no data to send.
      have hqueue : s.uplink.queue = [] := (hquiet 0).2
      rw [Uplink.take?, hqueue] at htake
      cases htake
    · exact fulfils_pause hquiet hlimit htask hasked harrived hpause rfl ih
  · have hstep := step_receive htask harrived
    rw [hstep] at ih
    exact fulfils_of_silent_step hstep (notices_receive s) (prospect_receive s).symm rfl
      (ih (.inl rfl))

/-! ### Whole exchanges -/

/-- A session that reads an answer undisturbed tells what it promises. -/
theorem fulfils_of_waits (s : Session) (h : s.Course origin) (hquiet : s.Undisturbed)
    (hlimit : origin.config.idleTimeout = none) (hwaits : s.Waits) : s.Fulfils := by
  -- Induction over the moves left, from the end of the run to its front.
  induction s using move_induction with
  | hhalted s hhalted =>
    rcases hwaits with htask | ⟨htask, -⟩ <;> simp [isHalted, htask] at hhalted
  | hmove s hgoes ih =>
    have ih' : s.step.Waits → s.step.Fulfils := fun hwaits =>
      ih (course_step h) hquiet.step hwaits
    have hworks : s.task.isWorking = true := by
      rcases hwaits with htask | ⟨htask, -⟩ <;> rw [htask] <;> rfl
    have hreading := h.reading hworks
    rcases hwaits with htask | ⟨htask, hasked⟩
    · exact fulfils_decoding hreading hquiet htask ih'
    · refine fulfils_reading hreading hquiet ?_ htask hasked ih'
      rw [hreading.isOf.2, hlimit]
      rfl

/-- Nothing interferes with a session: it gets to this server, writes its request, and reads
an answer, no shutdown is requested, no data is sent, and idling is not limited. -/
structure Exchange (connection : Connection) (plan : Plan) (peer : Peer) : Prop where
  unlimited : connection.config.idleTimeout = none
  reaches : plan.peer? = some peer
  reads : ∃ moves, ((start connection plan).runFor moves).task = .decoding
  undisturbed : (start connection plan).Undisturbed

/-- What an answer tells a client with these limits, its bytes taken as a whole. -/
def answerCalls (limits : Limits) (stream : Bytes × StreamEnd) : List Notice :=
  Decoder.transcript limits stream.2 { buffer := stream.1 }

/-- At the front of an answer nothing was told, and its bytes are the prospect. -/
theorem prospect_of_opens {peer : Peer} (h : s.Reading origin) (hopens : s.Opens peer) :
    s.notices = [] ∧ s.prospect = answerCalls origin.config.limits peer.reads.stream := by
  have hnoline : ¬ ∃ status, statusLine? s.received = some status := by
    rw [hopens.fresh]
    rintro ⟨status, hline⟩
    cases hline
  -- Without any bytes the decoder can only be looking for the status line.
  have hcalls := h.calls
  unfold CallsSoFar at hcalls
  split at hcalls
  · rename_i hphase
    have hlimits : s.limits = origin.config.limits := by
      rw [limits, h.isOf.1]
      rfl
    have hstream : s.reads.stream = peer.reads.stream :=
      stream_of_answer (s := { s with peer := some peer }) hopens.peer
    refine ⟨hcalls.1, ?_⟩
    unfold prospect
    rw [hlimits, hstream, hopens.arrived, List.nil_append]
    exact Decoder.transcript_push_of_unread _ _ h.sound hphase (hcalls.2.trans hopens.fresh) _
  · obtain ⟨-, status, hline, -⟩ := hcalls
    exact absurd ⟨status, hline⟩ hnoline
  · obtain ⟨status, headers, data, hline, -⟩ := hcalls
    exact absurd ⟨status, hline⟩ hnoline

/-- An exchange tells what its server sends, and comes to the outcome of the last call if
the stream closes. -/
theorem run_of_exchange {connection : Connection} {plan : Plan} {peer : Peer}
    (h : Exchange connection plan peer) :
    Notice.merge (start connection plan).run.notices
        = answerCalls connection.config.limits peer.reads.stream ∧
      (start connection plan).run.outcome?
        = if peer.closes.completes
          then Outcome.ofCalls? (answerCalls connection.config.limits peer.reads.stream)
          else none := by
  obtain ⟨moves, hreads⟩ := h.reads
  obtain ⟨first, hopens⟩ := exists_opens h.reaches hreads
  have hcourse := course_runFor connection plan first
  have hquiet : ((start connection plan).runFor first).Undisturbed := by
    intro moves
    rw [← runFor_add]
    exact h.undisturbed (first + moves)
  have hreading := hcourse.reading (by rw [hopens.task]; rfl)
  -- At the front of the answer the promise is the answer as a whole.
  obtain ⟨hnotices, hprospect⟩ := prospect_of_opens hreading hopens
  have hfulfils := fulfils_of_waits _ hcourse hquiet h.unlimited (.inl hopens.task)
  have hcalls := hfulfils.calls
  have houtcome := hfulfils.outcome
  have hcloses : ((start connection plan).runFor first).closes.completes
      = peer.closes.completes :=
    completes_of_answer (s := { start connection plan with peer := some peer }) hopens.peer
  rw [run_runFor, hnotices, hprospect] at hcalls
  rw [run_runFor, hprospect, hcloses] at houtcome
  exact ⟨hcalls, houtcome⟩

/-- **An exchange does not depend on how the bytes are cut.** Two undisturbed sessions with
the same limits whose servers send the same bytes with the same end make the same calls, once
adjacent pieces of data are joined, and come to the same outcome, if both streams close or
neither does. The reads of the servers, the sizes of the buffers, the pauses, the actions of
the owners and everything before the answer may differ. -/
theorem exchange_congr {c d : Connection} {p q : Plan} {a b : Peer} (hc : Exchange c p a)
    (hd : Exchange d q b) (hline : c.config.maxLineLength = d.config.maxLineLength)
    (hblock : c.config.maxHeaderSize = d.config.maxHeaderSize)
    (hstream : a.reads.stream = b.reads.stream) :
    Notice.merge (start c p).run.notices = Notice.merge (start d q).run.notices ∧
      (a.closes.completes = b.closes.completes →
        (start c p).run.outcome? = (start d q).run.outcome?) := by
  obtain ⟨hcalls, houtcome⟩ := run_of_exchange hc
  obtain ⟨hcalls', houtcome'⟩ := run_of_exchange hd
  have hanswer : answerCalls c.config.limits a.reads.stream
      = answerCalls d.config.limits b.reads.stream := by
    rw [Config.limits, Config.limits, hline, hblock, hstream]
  refine ⟨hcalls.trans (hanswer.trans hcalls'.symm), ?_⟩
  intro hcloses
  rw [houtcome, houtcome', hanswer, hcloses]

/-- Whether a session is undisturbed shows in the moves up to its end. -/
theorem undisturbed_of_isHalted {n : Nat} (hhalted : (s.runFor n).isHalted = true)
    (h : ∀ moves ∈ List.range (n + 1), (s.runFor moves).stopRequested = false ∧
      (s.runFor moves).uplink.queue = []) : s.Undisturbed :=
  always_of_isHalted (P := fun s => s.stopRequested = false ∧ s.uplink.queue = []) hhalted h

/-- A connection with the smallest receive buffer. -/
def narrowSample : Connection :=
  { Connection.sample with
    config := { Connection.sample.config with bufferCapacity := 0 }
    request_eq := Connection.sample.request_eq }

/-- A server that sends a chunked body in one piece. -/
def wholePeer : Peer where
  reads := [.result (.ok (Utf8.encode
    "HTTP/1.1 200 OK\r\nTransfer-Encoding: chunked\r\n\r\n5\r\nHELLO\r\n0\r\n\r\n"))]

/-- The same bytes, cut inside line ends and inside a chunk, with a pause between them. -/
def cutPeer : Peer where
  reads := [.result (.ok (Utf8.encode "HTTP/1.1 200 OK\r")), .delay 7,
    .result (.ok (Utf8.encode "\nTransfer-Encoding: chunked\r\n\r")),
    .result (.ok (Utf8.encode "\n5\r\nHEL")), .result (.ok (Utf8.encode "LO\r\n0\r\n\r\n"))]

/-- The session gets to the server and is over within forty moves, with nobody to disturb it. -/
theorem exchange_wholePeer :
    Exchange .sample (.serving wholePeer.reads) wholePeer where
  unlimited := rfl
  reaches := rfl
  reads := ⟨5, by decide +kernel⟩
  undisturbed := undisturbed_of_isHalted (n := 40) (by decide +kernel) (by decide +kernel)

/-- So it is with the smallest buffer, within sixty moves. -/
theorem exchange_cutPeer :
    Exchange narrowSample (.serving cutPeer.reads) cutPeer where
  unlimited := rfl
  reaches := rfl
  reads := ⟨5, by decide +kernel⟩
  undisturbed := undisturbed_of_isHalted (n := 60) (by decide +kernel) (by decide +kernel)

/-- The two servers cannot be told apart. -/
theorem exchange_congr_cut :
    Exchange .sample (.serving wholePeer.reads) wholePeer ∧
    Exchange narrowSample (.serving cutPeer.reads) cutPeer ∧
    wholePeer.reads.stream = cutPeer.reads.stream ∧
    Notice.merge (start .sample (.serving wholePeer.reads)).run.notices
      = Notice.merge (start narrowSample (.serving cutPeer.reads)).run.notices ∧
    (start .sample (.serving wholePeer.reads)).run.outcome?
      = (start narrowSample (.serving cutPeer.reads)).run.outcome? := by
  have hstream : wholePeer.reads.stream = cutPeer.reads.stream := by decide +kernel
  obtain ⟨hcalls, houtcome⟩ :=
    exchange_congr exchange_wholePeer exchange_cutPeer rfl rfl hstream
  exact ⟨exchange_wholePeer, exchange_cutPeer, hstream, hcalls, houtcome rfl⟩

end Session

end NtripClient
