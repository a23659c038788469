import NtripClient.Proofs.Session.Exchange
import NtripClient.Proofs.Session.Passage

/-!
# `NtripClient.Proofs.Session.Limits`: the limits on lines and header blocks are exact

The status line, the header block and every chunk size line are read until their end has arrived,
and none may be longer than its limit. `limits_exact` says for each of them, whatever is in the
stream and however it is cut, what comes of that: it depends on all that the stream holds from
there on, and on nothing else.

A session `Fills` while it reads such a part. What it holds, what has arrived, and what the stream
has left make up the same bytes all the time, so an end that is found is the end in all of them,
and bytes without an end are as many as the limit allows or too many for any end to come
(`judged_of_decoding`). A search that is resumed leaves out what was searched before, and `Fills`
says that it finds the same place as one from the front.
-/

set_option autoImplicit false

namespace NtripClient

/-! ### The parts of an answer whose length is limited -/

/-- The pattern stands at this place, and at none before it. -/
def Bytes.IsFirst (pattern bytes : Bytes) (place : Nat) : Prop :=
  pattern <+: bytes.drop place ∧ ∀ earlier < place, ¬ pattern <+: bytes.drop earlier

/-- A part of an answer whose length is limited. -/
inductive LimitedPart where
  | statusLine
  | headerBlock
  | sizeLine
deriving DecidableEq, Repr

namespace LimitedPart

/-- The part as one that a decoder looks for the end of. -/
def delimited : LimitedPart → Decoder.Delimited
  | .statusLine => .statusLine
  | .headerBlock => .headerBlock
  | .sizeLine => .sizeLine

/-- The stage in which it is read, with the first bytes searched for its end. -/
def stage : LimitedPart → Nat → Stage
  | .statusLine => .status
  | .headerBlock => .headers
  | .sizeLine => .chunkSize

/-- The most bytes that it may have. -/
def limit (config : Config) : LimitedPart → Nat
  | .statusLine => config.maxLineLength
  | .headerBlock => config.maxHeaderSize
  | .sizeLine => config.maxLineLength

/-- What is wrong with one that is longer. -/
def defect : LimitedPart → MalformedAnswer
  | .statusLine => .lineTooLong
  | .headerBlock => .headerBlockTooLong
  | .sizeLine => .lineTooLong

/-- A line ends with the first CRLF, and a header block with the first CRLFCRLF unless it is
empty. -/
def EndsAt : LimitedPart → Bytes → Nat → Prop
  | .headerBlock, bytes, stop =>
    (Bytes.crlf <+: bytes ∧ stop = 2) ∨
      ¬ Bytes.crlf <+: bytes ∧
        ∃ place, Bytes.IsFirst (Bytes.crlf ++ Bytes.crlf) bytes place ∧ stop = place + 4
  | _, bytes, stop => ∃ place, Bytes.IsFirst Bytes.crlf bytes place ∧ stop = place + 2

/-- Looks for the end, leaving out the bytes that were searched. -/
def stop? : LimitedPart → Nat → Bytes → Option Nat
  | .headerBlock => Bytes.blockEnd?
  | _ => Bytes.lineEnd?

/-- Looks for the end, and holds it against the limit. -/
def scan : LimitedPart → Nat → Nat → Bytes → Scan
  | .headerBlock => Decoder.scanBlock
  | _ => Decoder.scanLine

variable (part : LimitedPart) {searched limit : Nat} {bytes : Bytes} {stop : Nat}

/-- The decoder is in the stage of the part. -/
theorem delimited_stage : part.delimited.stage = part.stage := by cases part <;> rfl

/-- The decoder looks for the end of the part. -/
theorem delimited_stop? : part.delimited.stop? = part.stop? := by cases part <;> rfl

/-- The decoder has the same to say of a part that is too long. -/
theorem delimited_defect : part.delimited.defect = part.defect := by cases part <;> rfl

/-- Holding a part against its limit comes down to a search for its end. -/
theorem scan_eq (limit searched : Nat) (bytes : Bytes) :
    part.scan limit searched bytes
      = .ofSearch (part.stop? searched bytes) bytes.length limit part.delimited.overlap := by
  cases part <;> rfl

/-- A line ends where a search from the front says it does. -/
theorem lineEnd?_eq_some_iff :
    Bytes.lineEnd? 0 bytes = some stop ↔
      ∃ place, Bytes.IsFirst Bytes.crlf bytes place ∧ stop = place + 2 := by
  rw [Bytes.lineEnd?_zero, Option.map_eq_some_iff]
  simp only [Bytes.find?_eq_some_iff Bytes.crlf_ne_nil, Bytes.IsFirst, eq_comm]

/-- A part ends where a search from the front says it does. -/
theorem stop?_eq_some_iff : part.stop? 0 bytes = some stop ↔ part.EndsAt bytes stop := by
  cases part with
  | statusLine => exact lineEnd?_eq_some_iff
  | sizeLine => exact lineEnd?_eq_some_iff
  | headerBlock =>
    show Bytes.blockEnd? 0 bytes = some stop ↔ _
    rw [Bytes.blockEnd?_zero, EndsAt]
    by_cases hempty : Bytes.crlf <+: bytes
    · rw [if_pos hempty]
      simp [hempty, eq_comm]
    · rw [if_neg hempty, Option.map_eq_some_iff]
      simp only [hempty, false_and, not_false_eq_true, true_and, false_or,
        Bytes.find?_eq_some_iff Bytes.crlfcrlf_ne_nil, Bytes.IsFirst, eq_comm]

end LimitedPart

/-- The task that the end of a stream leads to. -/
def StreamEnd.task : StreamEnd → Task
  | .closed => .concluding .closed
  | .failed cause => .concluding (.failed (.io cause))
  | .silent => .stuck

namespace Session

variable {s t : Session} {part : LimitedPart} {limit : Nat} {content : Bytes} {ending : StreamEnd}

/-! ### Reading one part -/

/-- The bytes that the session holds, those that have arrived, and those that its stream has
left. -/
def unread (s : Session) : Bytes :=
  s.decoder.buffer ++ (s.arrived ++ s.reads.stream.1)

/-- The session is at the start of a part. -/
structure Begins (s : Session) (part : LimitedPart) : Prop where
  task : s.task = .decoding
  stage : s.decoder.stage = part.stage 0

/-- The session reads a part of an answer, and these are the bytes from its start on. -/
structure Fills (s : Session) (part : LimitedPart) (content : Bytes) : Prop where
  unread : s.unread = content
  /-- Nothing is missed: a search that is resumed finds what one from the front finds. -/
  resumes : ∃ searched, s.decoder.stage = part.stage searched ∧
    part.stop? searched s.decoder.buffer = part.stop? 0 s.decoder.buffer

/-- What comes of reading a part, if these are the bytes from its start on and the stream ends like
this behind them. -/
structure Judged (s : Session) (part : LimitedPart) (limit : Nat) (content : Bytes)
    (ending : StreamEnd) : Prop where
  /-- A part that keeps to the limit is found. -/
  found : ∀ stop, part.EndsAt content stop → stop ≤ limit →
    s.task = .decoding ∧ s.decoder.buffer.take stop = content.take stop ∧
      ∃ searched, s.decoder.stage = part.stage searched ∧
        part.scan limit searched s.decoder.buffer = .found stop
  /-- A longer one is refused. -/
  tooLong : ∀ stop, part.EndsAt content stop → limit < stop →
    s.step.task = .concluding (.failed (.malformed part.defect))
  /-- So are too many bytes without an end. -/
  endless : (∀ stop, ¬ part.EndsAt content stop) → limit < content.length →
    s.step.task = .concluding (.failed (.malformed part.defect))
  /-- With fewer of them the session meets the end of its stream. -/
  cut : (∀ stop, ¬ part.EndsAt content stop) → content.length ≤ limit →
    s.decoder.buffer = content ∧ s.step.task = ending.task

/-- Something else ends the work. -/
inductive Interrupted (s : Session) : Prop where
  /-- A shutdown was requested. -/
  | cancelled (stop : s.step.stopRequested = true) (task : s.step.task = .concluding .cancelled)
  /-- There is an idle limit, and it was reached. -/
  | expired (limit : s.watchdog.timeout ≠ none)
      (task : s.step.task = .concluding (.failed .connectionTimeout))
  /-- Data for the server could not be written. -/
  | unsent (bytes : Bytes) (task : s.task = .attempting (.write .uplink bytes))
      (stopped : s.step.task.isWorking = false)
  /-- Data for the server could not be flushed. -/
  | unflushed (task : s.task = .attempting (.flush .uplink))
      (stopped : s.step.task.isWorking = false)

/-- What the session holds has no end of the part, and keeps to the limit. -/
structure Lacks (s : Session) (part : LimitedPart) (limit : Nat) : Prop where
  none : part.stop? 0 s.decoder.buffer = none
  le : s.decoder.buffer.length ≤ limit

/-- The session reads a part. It decodes, or it waits for more because what it holds has no end. -/
structure Filling (s : Session) (part : LimitedPart) (limit : Nat) (content : Bytes)
    (ending : StreamEnd) : Prop where
  bound : part.limit s.connection.config = limit
  sound : s.decoder.Sound
  stage : ∃ searched, s.decoder.stage = part.stage searched
  unread : s.unread = content
  ending : s.reads.stream.2 = ending
  task : s.task = .decoding ∨ s.task.place? = some .waiting ∧ s.Lacks part limit

/-- The limit on a part comes from the configuration. -/
theorem limit_limits (s : Session) (part : LimitedPart) :
    part.delimited.limit s.limits = part.limit s.connection.config := by
  cases part <;> rfl

/-- A search that is resumed finds what one from the front finds. -/
theorem Filling.searched (h : s.Filling part limit content ending) {searched : Nat}
    (hstage : s.decoder.stage = part.stage searched) :
    part.stop? searched s.decoder.buffer = part.stop? 0 s.decoder.buffer := by
  have hsound := h.sound
  unfold Decoder.Sound at hsound
  cases part <;> (rw [hstage] at hsound)
  · exact Bytes.lineEnd?_eq hsound
  · exact Bytes.blockEnd?_eq hsound
  · exact Bytes.lineEnd?_eq hsound

/-- A session that reads a part has all the bytes from its start on before it. -/
theorem Filling.fills (h : s.Filling part limit content ending) : s.Fills part content where
  unread := h.unread
  resumes := by
    obtain ⟨searched, hstage⟩ := h.stage
    exact ⟨searched, hstage, h.searched hstage⟩

/-- An end of what the session holds is the end of all the bytes. -/
theorem Filling.stop (h : s.Filling part limit content ending) {stop : Nat}
    (hstop : part.stop? 0 s.decoder.buffer = some stop) :
    part.stop? 0 content = some stop ∧ s.decoder.buffer.take stop = content.take stop := by
  have hsettles := part.delimited.settles
  rw [part.delimited_stop?] at hsettles
  rw [← h.unread, Session.unread]
  exact ⟨hsettles.stays _ hstop, (List.take_append_of_le_length (hsettles.within hstop)).symm⟩

/-- As long as there is none, an end lies behind what the session holds. -/
theorem Filling.length_lt (h : s.Filling part limit content ending) {stop : Nat}
    (hnone : part.stop? 0 s.decoder.buffer = none) (hstop : part.stop? 0 content = some stop) :
    s.decoder.buffer.length < stop := by
  have hsettles := part.delimited.settles
  rw [part.delimited_stop?] at hsettles
  rw [← h.unread, Session.unread] at hstop
  exact hsettles.later hnone hstop

/-- A session holds no more than there is. -/
theorem Filling.length_le (h : s.Filling part limit content ending) :
    s.decoder.buffer.length ≤ content.length := by
  rw [← h.unread, Session.unread, List.length_append]
  exact Nat.le_add_right _ _

/-! ### What is judged -/

/-- The bytes have only one end. -/
theorem judged_of_found (h : s.Filling part limit content ending) (htask : s.task = .decoding)
    {searched stop : Nat} (hstage : s.decoder.stage = part.stage searched)
    (hscan : part.scan limit searched s.decoder.buffer = .found stop)
    (hstop : part.stop? 0 s.decoder.buffer = some stop)
    (hle : stop ≤ limit) : s.Judged part limit content ending := by
  obtain ⟨hends, htake⟩ := h.stop hstop
  have hnever : ¬ ∀ stop, ¬ part.EndsAt content stop :=
    fun hnone => hnone stop (part.stop?_eq_some_iff.1 hends)
  refine ⟨fun other hother _ => ?_, fun other hother hlt => ?_, fun hnone => absurd hnone hnever,
    fun hnone => absurd hnone hnever⟩
  · cases hends.symm.trans (part.stop?_eq_some_iff.2 hother)
    exact ⟨htask, htake, searched, hstage, hscan⟩
  · cases hends.symm.trans (part.stop?_eq_some_iff.2 hother)
    omega

/-- What the session holds is too long, with an end or without. -/
theorem judged_of_tooLong (h : s.Filling part limit content ending)
    (hlong : limit
      < (part.stop? 0 s.decoder.buffer).getD s.decoder.buffer.length)
    (hstep : s.step.task = .concluding (.failed (.malformed part.defect))) :
    s.Judged part limit content ending := by
  have hends : ∀ stop, part.EndsAt content stop → limit < stop := by
    intro stop hstop
    have hcontent := part.stop?_eq_some_iff.2 hstop
    cases hfound : part.stop? 0 s.decoder.buffer with
    | none =>
      rw [hfound] at hlong
      exact Nat.lt_trans hlong (h.length_lt hfound hcontent)
    | some found =>
      cases hcontent.symm.trans (h.stop hfound).1
      rwa [hfound] at hlong
  refine ⟨fun stop hstop hle => absurd (hends stop hstop) (Nat.not_lt_of_le hle),
    fun _ _ _ => hstep, fun _ _ => hstep, fun hnone hle => ?_⟩
  -- Without an end all bytes count, and there are no fewer of them than the session holds.
  cases hfound : part.stop? 0 s.decoder.buffer with
  | none =>
    rw [hfound] at hlong
    exact absurd hlong (Nat.not_lt_of_le (Nat.le_trans h.length_le hle))
  | some found => exact absurd (part.stop?_eq_some_iff.1 (h.stop hfound).1) (hnone found)

/-- The stream has nothing more, and the session holds all of it. -/
theorem judged_of_end (hlacks : s.Lacks part limit) (hall : s.decoder.buffer = content)
    (hstep : s.step.task = ending.task) : s.Judged part limit content ending := by
  subst hall
  have hnever : ∀ stop, ¬ part.EndsAt s.decoder.buffer stop := by
    intro stop hstop
    cases hlacks.none.symm.trans (part.stop?_eq_some_iff.2 hstop)
  exact ⟨fun stop hstop => absurd hstop (hnever stop), fun stop hstop => absurd hstop (hnever stop),
    fun _ hlt => absurd hlt (Nat.not_lt_of_le hlacks.le), fun _ _ => ⟨rfl, hstep⟩⟩

/-! ### Move by move -/

/-- What reading a part comes to in one move: it is judged, it is interrupted, or it goes on. -/
def GoesOn (s : Session) (part : LimitedPart) (limit : Nat) (content : Bytes)
    (ending : StreamEnd) : Prop :=
  s.Judged part limit content ending ∨ s.Interrupted ∨ s.step.Filling part limit content ending

/-- Nothing changes that matters to the part, and the session waits. -/
theorem Filling.waits (h : s.Filling part limit content ending) (hlacks : s.Lacks part limit)
    (connection : t.connection = s.connection) (decoder : t.decoder = s.decoder)
    (unread : t.arrived ++ t.reads.stream.1 = s.arrived ++ s.reads.stream.1)
    (last : t.reads.stream.2 = s.reads.stream.2) (task : t.task.place? = some .waiting) :
    t.Filling part limit content ending where
  bound := by rw [connection, h.bound]
  sound := decoder ▸ h.sound
  stage := decoder ▸ h.stage
  unread := by rw [← h.unread, Session.unread, Session.unread, decoder, unread]
  ending := by rw [last, h.ending]
  task := .inr ⟨task, decoder ▸ hlacks.none, decoder ▸ hlacks.le⟩

/-- Beginning an operation meanwhile interrupts the part if a shutdown was requested. -/
theorem goesOn_attempt {operation : Operation} (h : t.Filling part limit content ending)
    (hlacks : t.Lacks part limit) (hstep : s.step = t.attempt operation)
    (place : (Task.attempting operation).place? = some .waiting) :
    s.GoesOn part limit content ending := by
  unfold attempt at hstep
  split at hstep
  · exact .inr (.inl (.cancelled (by rw [hstep]; assumption) (by rw [hstep]; rfl)))
  · exact .inr (.inr (hstep ▸ h.waits hlacks rfl rfl rfl rfl place))

/-- The bytes ahead are the same after a pause. -/
theorem Lull.stream (h : Lull s t) : t.reads.stream = s.reads.stream :=
  stream_of_answer h.kept.answer

/-- A pause leaves the part as it is, unless nothing happens any more. -/
theorem goesOn_pause {α : Type} {script : Script α} (h : s.Filling part limit content ending)
    (hlacks : s.Lacks part limit) (place : s.task.place? = some .waiting)
    (hpause : Pause script s s.step)
    (hstuck : ∀ rest, script = .never :: rest → s.step.task = .stuck →
      s.GoesOn part limit content ending) : s.GoesOn part limit content ending := by
  generalize hstep : s.step = next at hpause hstuck
  cases hpause with
  | on hlull =>
    refine .inr (.inr (hstep ▸ h.waits hlacks hlull.kept.connection hlull.kept.decoder ?_ ?_ ?_))
    · rw [hlull.kept.arrived, hlull.stream]
    · rw [hlull.stream]
    · rw [hlull.kept.task, place]
  | stuck hlull hnever => exact hstuck _ hnever rfl
  | cancelled hlull hstop =>
    exact .inr (.inl (.cancelled (by rw [hstep]; exact hstop) (by rw [hstep]; rfl)))
  | expired hlull hlimit =>
    refine .inr (.inl (.expired ?_ (by rw [hstep]; rfl)))
    rw [← hlull.kept.timeout]
    exact hlimit

/-- A part that was found keeps to the limit. -/
theorem le_of_ofSearch {stop? : Option Nat} {size limit overlap length : Nat}
    (h : Scan.ofSearch stop? size limit overlap = .found length) : length ≤ limit := by
  obtain rfl := Decoder.eq_some_of_ofSearch h
  unfold Scan.ofSearch at h
  split at h
  · cases h
  · exact Nat.le_of_not_lt ‹_›

/-- A part that is not finished is not too long so far. -/
theorem size_le_of_ofSearch {stop? : Option Nat} {size limit overlap searched : Nat}
    (h : Scan.ofSearch stop? size limit overlap = .unfinished searched) : size ≤ limit := by
  obtain ⟨rfl, -⟩ := Decoder.eq_none_of_ofSearch h
  unfold Scan.ofSearch at h
  split at h
  · cases h
  · exact Nat.le_of_not_lt ‹_›

/-- What is too long exceeds the limit, by its end or, without one, by what there is. -/
theorem lt_of_ofSearch {stop? : Option Nat} {size limit overlap : Nat}
    (h : Scan.ofSearch stop? size limit overlap = .tooLong) : limit < stop?.getD size := by
  unfold Scan.ofSearch at h
  split at h
  · assumption
  · split at h <;> cases h

/-- What a decoder makes of a part depends on the search for its end. -/
theorem advance_of_stage (limits : Limits) {d : Decoder} {searched : Nat}
    (hstage : d.stage = part.stage searched) :
    d.advance limits =
      match Scan.ofSearch (part.stop? searched d.buffer) d.buffer.length
        (part.delimited.limit limits) part.delimited.overlap with
      | .tooLong => (.failed (.malformed part.defect), d)
      | .unfinished searched => (.more, { d with stage := part.stage searched })
      | .found length => part.delimited.take d.buffer length := by
  have hadvance := part.delimited.advance_eq limits searched d.buffer
  rw [part.delimited_stage, part.delimited_stop?, part.delimited_defect, ← hstage] at hadvance
  exact hadvance

/-- Decoding judges the part, or asks for more of it. -/
theorem goesOn_decoding (h : s.Filling part limit content ending) (htask : s.task = .decoding) :
    s.GoesOn part limit content ending := by
  obtain ⟨searched, hstage⟩ := h.stage
  have hfront := h.searched hstage
  have hadvance := advance_of_stage s.limits hstage
  have hsound := Decoder.sound_advance s.limits h.sound
  have hstep := step_decoding htask
  rw [hfront, limit_limits, h.bound] at hadvance
  unfold stepDecoder at hstep
  rw [hadvance] at hstep hsound
  -- The search from the front decides, since nothing was missed.
  cases hscan : Scan.ofSearch (part.stop? 0 s.decoder.buffer) s.decoder.buffer.length
    (limit) part.delimited.overlap with
  | found stop =>
    refine .inl (judged_of_found h htask hstage ?_ (Decoder.eq_some_of_ofSearch hscan)
      (le_of_ofSearch hscan))
    rw [part.scan_eq, hfront, hscan]
  | tooLong =>
    rw [hscan] at hstep
    exact .inl (judged_of_tooLong h (lt_of_ofSearch hscan) (by rw [hstep]; rfl))
  | unfinished next =>
    rw [hscan] at hstep hsound
    have hlacks : s.Lacks part limit :=
      ⟨(Decoder.eq_none_of_ofSearch hscan).1, size_le_of_ofSearch hscan⟩
    exact goesOn_attempt
      (t := { s with decoder := { s.decoder with stage := part.stage next } })
      ⟨h.bound, hsound, ⟨next, rfl⟩, h.unread, h.ending, .inl htask⟩
      ⟨hlacks.none, hlacks.le⟩ hstep rfl

/-- Once the stream has nothing more, its end decides. -/
theorem goesOn_of_end (last : StreamEnd) (h : s.Filling part limit content ending)
    (hlacks : s.Lacks part limit) (harrived : s.arrived = [])
    (hstream : s.reads.stream = ([], last))
    (hstep : s.step.task = last.task) : s.GoesOn part limit content ending := by
  have hending := h.ending
  have hunread := h.unread
  rw [hstream] at hending
  rw [Session.unread, harrived, hstream, List.append_nil, List.append_nil] at hunread
  cases hending
  exact .inl (judged_of_end hlacks hunread hstep)

/-- A read takes in bytes of the part, or meets the end of the stream. -/
theorem goesOn_read (h : s.Filling part limit content ending) (hlacks : s.Lacks part limit)
    (htask : s.task = .attempting .read) : s.GoesOn part limit content ending := by
  have hplace : s.task.place? = some .waiting := by rw [htask]; rfl
  by_cases harrived : s.arrived = []
  · rcases step_read htask harrived with
      ⟨result, rest, hgives, hstep⟩ | ⟨message, uplink, -, -, -, hstep⟩ | hpause
    · rcases stream_of_gives hgives with
        ⟨last, hstream, hresult⟩ | ⟨bytes, hstream, hbytes, hrest⟩
      · -- The stream ends: its script has run out, a read fails, or one gives no bytes.
        refine goesOn_of_end last h hlacks harrived hstream ?_
        rw [hstep]
        rcases hresult with ⟨rfl, rfl⟩ | ⟨cause, rfl, rfl⟩
        · rfl
        · rfl
      · -- Bytes have arrived: they were the next ones of the stream.
        rw [GoesOn, hstep.trans hbytes]
        refine .inr (.inr (h.waits hlacks rfl rfl ?_ ?_ hplace))
        · rw [hrest, harrived, hstream]
          rfl
        · rw [hrest, hstream]
    · -- A message for the server is written first.
      exact goesOn_attempt (t := ({ s with uplink } : Session).settle)
        (h.waits hlacks rfl rfl rfl rfl hplace) ⟨hlacks.none, hlacks.le⟩ hstep rfl
    · refine goesOn_pause h hlacks hplace hpause fun rest hnever hstuck => ?_
      exact goesOn_of_end .silent h hlacks harrived (by rw [hnever]; rfl) hstuck
  · -- Bytes that have arrived are handed on: they stay ahead of those of the stream.
    have hstep := step_receive htask harrived
    refine .inr (.inr ⟨?_, sound_step h.sound, ?_, ?_, ?_, .inl ?_⟩)
    · rw [hstep]
      exact h.bound
    · rw [hstep]
      exact h.stage
    · rw [hstep, ← h.unread]
      show s.decoder.buffer ++ s.arrived.take _ ++ (s.arrived.drop _ ++ s.reads.stream.1) = _
      rw [List.append_assoc, ← List.append_assoc (s.arrived.take _), List.take_append_drop]
      rfl
    · rw [hstep]
      exact h.ending
    · rw [hstep]
      rfl

/-- Writing and flushing leave the bytes ahead alone. -/
theorem reads_mapPeer (s : Session) {change : Peer → Peer}
    (hreads : ∀ peer, (change peer).reads = peer.reads) :
    ({ s with peer := s.peer.map change } : Session).reads = s.reads := by
  unfold Session.reads
  cases s.peer with
  | none => rfl
  | some peer => exact hreads peer

/-- Writing data for the server leaves the part as it is, unless it fails. -/
theorem goesOn_write (h : s.Filling part limit content ending) (hlacks : s.Lacks part limit)
    {bytes : Bytes} (htask : s.task = .attempting (.write .uplink bytes)) :
    s.GoesOn part limit content ending := by
  have hplace : s.task.place? = some .waiting := by rw [htask]; rfl
  by_cases hne : bytes = []
  · subst hne
    rw [GoesOn, step_write_nil htask]
    exact .inr (.inr (h.waits hlacks rfl rfl rfl rfl rfl))
  · rcases step_write hne htask with ⟨result, rest, -, hstep⟩ | hpause
    · have hreads : (s.putWrites rest).reads = s.reads := reads_mapPeer s fun _ => rfl
      have hgoes : ∀ {t : Session}, s.step = t → t.connection = s.connection →
          t.decoder = s.decoder → t.arrived = s.arrived → t.reads = s.reads →
          t.task.place? = some .waiting → s.GoesOn part limit content ending := by
        intro t hnext hconnection hdecoder harrived hreads hplace
        refine .inr (.inr (hnext ▸ h.waits hlacks hconnection hdecoder ?_ ?_ hplace))
        · rw [harrived, hreads]
        · rw [hreads]
      cases result with
      | error cause =>
        rw [written] at hstep
        split at hstep
        · exact hgoes hstep rfl rfl rfl hreads hplace
        · exact .inr (.inl (.unsent bytes htask (by rw [hstep]; rfl)))
      | ok limit =>
        rw [written] at hstep
        split at hstep
        · exact .inr (.inl (.unsent bytes htask (by rw [hstep]; rfl)))
        · exact hgoes hstep rfl rfl rfl hreads rfl
    · exact goesOn_pause h hlacks hplace hpause fun rest hnever hstuck =>
        .inr (.inl (.unsent bytes htask (by rw [hstuck]; rfl)))

/-- Flushing data for the server leaves the part as it is, unless it fails. -/
theorem goesOn_flush (h : s.Filling part limit content ending) (hlacks : s.Lacks part limit)
    (htask : s.task = .attempting (.flush .uplink)) : s.GoesOn part limit content ending := by
  have hplace : s.task.place? = some .waiting := by rw [htask]; rfl
  rcases step_flush htask with ⟨result, rest, -, hstep⟩ | hpause
  · have hreads : (s.putFlushes rest).reads = s.reads := reads_mapPeer s fun _ => rfl
    cases result with
    | error cause => exact .inr (.inl (.unflushed htask (by rw [hstep]; rfl)))
    | ok u =>
      have hflushed : ((s.putFlushes rest).record .flushed).settle.Filling part limit content
          ending :=
        h.waits hlacks rfl rfl (congrArg (fun reads => s.arrived ++ (Script.stream reads).1) hreads)
          (congrArg (fun reads => (Script.stream reads).2) hreads) hplace
      exact goesOn_attempt hflushed ⟨hlacks.none, hlacks.le⟩ hstep rfl
  · exact goesOn_pause h hlacks hplace hpause fun rest hnever hstuck =>
      .inr (.inl (.unflushed htask (by rw [hstuck]; rfl)))

/-- Whatever a session does while it reads a part, it is judged, interrupted, or goes on. -/
theorem goesOn (h : s.Filling part limit content ending) : s.GoesOn part limit content ending := by
  rcases h.task with htask | ⟨hplace, hlacks⟩
  · exact goesOn_decoding h htask
  · cases htask : s.task with
    | attempting operation =>
      rw [htask] at hplace
      cases operation with
      | read => exact goesOn_read h hlacks htask
      | write purpose bytes =>
        cases purpose with
        | request => cases hplace
        | uplink => exact goesOn_write h hlacks htask
      | flush purpose =>
        cases purpose with
        | request => cases hplace
        | uplink => exact goesOn_flush h hlacks htask
      | _ => cases hplace
    | _ =>
      rw [htask] at hplace
      cases hplace

/-! ### The whole part -/

/-- After some moves a part is judged, unless something else ends the work. -/
theorem exists_judged (s : Session) (h : s.Filling part limit content ending) :
    ∃ more, (∀ earlier ≤ more, (s.runFor earlier).Fills part content) ∧
      ((s.runFor more).Judged part limit content ending ∨ (s.runFor more).Interrupted) := by
  -- Induction over the moves left: each of them decides, or the session goes on reading the part.
  induction s using move_induction with
  | hhalted s hhalted =>
    rcases h.task with htask | ⟨hplace, -⟩
    · simp [isHalted, htask] at hhalted
    · unfold isHalted at hhalted
      cases htask : s.task <;> rw [htask] at hplace hhalted <;> first | cases hplace | cases hhalted
  | hmove s hs ih =>
    have hfirst : ∀ earlier ≤ 0, (s.runFor earlier).Fills part content := by
      intro earlier hle
      obtain rfl := Nat.le_zero.1 hle
      exact h.fills
    rcases goesOn h with hjudged | hinterrupted | hnext
    · exact ⟨0, hfirst, .inl hjudged⟩
    · exact ⟨0, hfirst, .inr hinterrupted⟩
    · obtain ⟨more, hfills, hends⟩ := ih hnext
      refine ⟨more + 1, ?_, by rwa [runFor_succ]⟩
      intro earlier hle
      cases earlier with
      | zero => exact h.fills
      | succ earlier =>
        rw [runFor_succ]
        exact hfills earlier (Nat.le_of_succ_le_succ hle)

/-- **The limits on lines and header blocks are exact.** Wherever a session is at the start of a
status line, a header block or a chunk size line, it reads it until it is judged, by all the bytes
of the stream from there on and the limit alone, or until something else ends the work. Whatever
the cuts, every search on the way finds what a search from the front finds. -/
theorem limits_exact (connection : Connection) (plan : Plan) (moves : Nat) (part : LimitedPart)
    (h : ((start connection plan).runFor moves).Begins part) :
    ∃ more,
      (∀ earlier ≤ more, ((start connection plan).runFor (moves + earlier)).Fills part
        ((start connection plan).runFor moves).unread) ∧
      (((start connection plan).runFor (moves + more)).Judged part (part.limit connection.config)
          ((start connection plan).runFor moves).unread
          ((start connection plan).runFor moves).reads.stream.2 ∨
        ((start connection plan).runFor (moves + more)).Interrupted) := by
  -- A session at the start of a part has all of it ahead.
  obtain ⟨hsound, hplace⟩ := isInPlace_runFor connection plan moves
  have hconnection := (hplace .decoding (by rw [h.task]; rfl)).connection
  obtain ⟨more, hfills, hends⟩ := exists_judged _
    ⟨by rw [hconnection], hsound, ⟨0, h.stage⟩, rfl, rfl, .inl h.task⟩
  refine ⟨more, fun earlier hle => ?_, ?_⟩
  · rw [runFor_add]
    exact hfills earlier hle
  · rwa [runFor_add]

/-- Nothing interrupts a session without a shutdown request, an idle limit and data for the
server. -/
theorem not_interrupted (hcalm : s.step.stopRequested = false) (hlimit : s.watchdog.timeout = none)
    (hreads : s.task.place? = some .waiting → s.task = .attempting .read) : ¬ s.Interrupted := by
  rintro (⟨hstop, -⟩ | ⟨hexpires, -⟩ | ⟨bytes, htask, -⟩ | ⟨htask, -⟩)
  · cases hstop.symm.trans hcalm
  · exact hexpires hlimit
  · cases htask.symm.trans (hreads (by rw [htask]; rfl))
  · cases htask.symm.trans (hreads (by rw [htask]; rfl))

/-- A connection that accepts lines of twelve bytes. -/
def shortLines : Connection :=
  { Connection.sample with
    config := { Connection.sample.config with maxLineLength := 12 }
    request_eq := Connection.sample.request_eq }

/-- A status line of twelve bytes, cut inside its line end. -/
def cutLine : Plan :=
  .serving [.result (.ok (Utf8.encode "ICY 200 OK\r")), .delay 5, .result (.ok [Bytes.lf, 0])]

/-- After five moves the request is written, and the status line is about to be read. -/
theorem begins_cutLine : ((start shortLines cutLine).runFor 5).Begins .statusLine where
  task := by decide +kernel
  stage := by decide +kernel

/-- The line has as many bytes as it may have, so it is found, and the thirteenth byte of the
stream does not matter. -/
theorem limits_exact_cutLine :
    ((start shortLines cutLine).runFor 5).Begins .statusLine ∧
    ∃ more searched, Decoder.scanLine 12 searched
      ((start shortLines cutLine).runFor (5 + more)).decoder.buffer = .found 12 := by
  have hquiet := always_of_isHalted (n := 24) (s := start shortLines cutLine)
    (P := fun s => s.stopRequested = false ∧ s.watchdog.timeout = none ∧
      (s.task.place? = some .waiting → s.task = .attempting .read))
    (by decide +kernel) (by decide +kernel)
  have hends : LimitedPart.EndsAt .statusLine ((start shortLines cutLine).runFor 5).unread 12 :=
    (LimitedPart.stop?_eq_some_iff .statusLine).1 (by decide +kernel)
  obtain ⟨more, -, hjudged | hinterrupted⟩ :=
    limits_exact shortLines cutLine 5 .statusLine begins_cutLine
  · obtain ⟨-, -, searched, -, hscan⟩ := hjudged.found 12 hends (by decide)
    exact ⟨begins_cutLine, more, searched, hscan⟩
  · refine absurd hinterrupted (not_interrupted ?_ (hquiet _).2.1 (hquiet _).2.2)
    rw [← runFor_succ']
    exact (hquiet _).1

end Session

end NtripClient
