import NtripClient.Answer.Progress
import NtripClient.Proofs.Search

/-!
# `NtripClient.Proofs.Answer.Advance`: what one report of a decoder says

Three stages of a decoder look for the end of something: the status line, the header
block, and a chunk size line. They differ in what they look for, in the limit, and in what
they make of the bytes they find. A `Delimited` is one of the three with the facts that
matter to a decoder: a search may be resumed, its result is final, and what is made of the
bytes found does not depend on the bytes behind them.

`Sound` is the invariant of a decoder whose searches resume: nothing was missed in the bytes
that will not be searched again. `reports_advance` then lists what a decoder may say in
which phase of an answer, and what the next phase is.
-/

set_option autoImplicit false

namespace NtripClient

/-- The three phases of an answer. -/
inductive Phase where
  | status
  | headers
  | body
deriving DecidableEq, Repr

/-- The phase that a stage belongs to. -/
def Stage.phase : Stage → Phase
  | .status _ => .status
  | .headers _ => .headers
  | _ => .body

/-- The status line at the front of what a server has sent, once it is complete. -/
def statusLine? (bytes : Bytes) : Option StatusLine :=
  (Bytes.lineEnd? 0 bytes).map fun stop => .parse (bytes.take stop)

/-- A status line that is complete stays the same. -/
theorem statusLine?_append {bytes : Bytes} {status : StatusLine}
    (h : statusLine? bytes = some status) (more : Bytes) :
    statusLine? (bytes ++ more) = some status := by
  obtain ⟨stop, hstop, rfl⟩ := Option.map_eq_some_iff.1 h
  have hle := Bytes.settles_lineEnd?.within hstop
  rw [statusLine?, Bytes.settles_lineEnd?.stays more hstop, Option.map_some,
    List.take_append_of_le_length hle]

/-- A chunk size line uses bytes that are there. -/
theorem ChunkSize.consumed_le {bytes : Bytes} {size : ChunkSize} (h : parse bytes = .ok size) :
    size.consumed ≤ bytes.length := by
  unfold parse at h
  split at h
  · cases h
  · -- The line feed that was found is there, and the line ends with it.
    rename_i stop hstop
    have hle := Bytes.add_length_le_of_prefix_drop (by simp)
      ((Bytes.find?_eq_some_iff (by simp)).1 hstop).1
    simp only at h
    split at h
    · cases h
    · cases hdigits : readDigits 0 (lengthPart (bytes.take stop)) with
      | error e => rw [hdigits] at h; cases h
      | ok length => rw [hdigits] at h; cases h; exact hle

namespace Decoder

/-! ### Parts of an answer that end with a delimiter -/

/-- A part of an answer that a decoder finds by looking for its end. -/
structure Delimited where
  /-- The stage in which it is looked for, with the first bytes searched. -/
  stage : Nat → Stage
  /-- The limit on its length. -/
  limit : Limits → Nat
  /-- What is looked for. -/
  pattern : Bytes
  /-- Looks for the end, leaving out the bytes that were searched. -/
  stop? : Nat → Bytes → Option Nat
  /-- How many bytes of the end may be there already. -/
  overlap : Nat
  /-- What is wrong with a part that is too long. -/
  defect : MalformedAnswer
  /-- Uses a part of the given length. -/
  take : Bytes → Nat → Signal × Decoder
  advance_eq : ∀ limits searched buffer,
    advance limits { stage := stage searched, buffer } =
      match Scan.ofSearch (stop? searched buffer) buffer.length (limit limits) overlap with
      | .tooLong => (.failed (.malformed defect), { stage := stage searched, buffer })
      | .unfinished searched => (.more, { stage := stage searched, buffer })
      | .found length => take buffer length
  settles : Bytes.Settles (stop? 0)
  resumes : ∀ {searched buffer}, Bytes.Searched pattern searched buffer →
    stop? searched buffer = stop? 0 buffer
  searched : ∀ {buffer}, stop? 0 buffer = none →
    Bytes.Searched pattern (buffer.length - overlap) buffer
  take_append : ∀ {buffer length} (more : Bytes), length ≤ buffer.length →
    take (buffer ++ more) length = ((take buffer length).1, (take buffer length).2.push more)
  take_ne_more : ∀ buffer length, (take buffer length).1 ≠ .more

/-- More bytes behind a status line stay behind what it leads to. -/
theorem takeStatus_append {buffer : Bytes} {length : Nat} (more : Bytes)
    (h : length ≤ buffer.length) :
    takeStatus (buffer ++ more) length
      = ((takeStatus buffer length).1, (takeStatus buffer length).2.push more) := by
  simp only [takeStatus, List.take_append_of_le_length h, List.drop_append_of_le_length h]
  split
  · rfl
  · split <;> rfl

/-- A status line that is complete needs no more bytes. -/
theorem takeStatus_ne_more (buffer : Bytes) (length : Nat) :
    (takeStatus buffer length).1 ≠ .more := by
  simp only [takeStatus]
  split
  · simp
  · split <;> simp

/-- More bytes behind a header block stay behind what it leads to. -/
theorem takeHeaders_append {buffer : Bytes} {length : Nat} (more : Bytes)
    (h : length ≤ buffer.length) :
    takeHeaders (buffer ++ more) length
      = ((takeHeaders buffer length).1, (takeHeaders buffer length).2.push more) := by
  simp only [takeHeaders, List.take_append_of_le_length h, List.drop_append_of_le_length h]
  rfl

/-- More bytes behind a size line stay behind what it leads to. -/
theorem takeChunkSize_append {buffer : Bytes} {length : Nat} (more : Bytes)
    (h : length ≤ buffer.length) :
    takeChunkSize (buffer ++ more) length
      = ((takeChunkSize buffer length).1, (takeChunkSize buffer length).2.push more) := by
  simp only [takeChunkSize, List.take_append_of_le_length h]
  cases hparse : ChunkSize.parse (buffer.take length) with
  | error e => rfl
  | ok size =>
    -- The line is at the front, so what follows it is dropped no differently.
    have hle : size.consumed ≤ buffer.length :=
      Nat.le_trans (ChunkSize.consumed_le hparse) (List.length_take_le' length buffer)
    simp only [List.drop_append_of_le_length hle]
    split <;> rfl

/-- A size line that is complete needs no more bytes. -/
theorem takeChunkSize_ne_more (buffer : Bytes) (length : Nat) :
    (takeChunkSize buffer length).1 ≠ .more := by
  simp only [takeChunkSize]
  split
  · simp
  · split <;> simp

namespace Delimited

/-- The status line. -/
def statusLine : Delimited where
  stage := .status
  limit := Limits.line
  pattern := Bytes.crlf
  stop? := Bytes.lineEnd?
  overlap := 1
  defect := .lineTooLong
  take := takeStatus
  advance_eq _ _ _ := rfl
  settles := Bytes.settles_lineEnd?
  resumes := Bytes.lineEnd?_eq
  searched := Bytes.searched_of_lineEnd?
  take_append := takeStatus_append
  take_ne_more := takeStatus_ne_more

/-- The header block. -/
def headerBlock : Delimited where
  stage := .headers
  limit := Limits.block
  pattern := Bytes.crlf ++ Bytes.crlf
  stop? := Bytes.blockEnd?
  overlap := 3
  defect := .headerBlockTooLong
  take := takeHeaders
  advance_eq _ _ _ := rfl
  settles := Bytes.settles_blockEnd?
  resumes := Bytes.blockEnd?_eq
  searched := Bytes.searched_of_blockEnd?
  take_append := takeHeaders_append
  take_ne_more _ _ := by simp [takeHeaders]

/-- A chunk size line. -/
def sizeLine : Delimited where
  stage := .chunkSize
  limit := Limits.line
  pattern := Bytes.crlf
  stop? := Bytes.lineEnd?
  overlap := 1
  defect := .lineTooLong
  take := takeChunkSize
  advance_eq _ _ _ := rfl
  settles := Bytes.settles_lineEnd?
  resumes := Bytes.lineEnd?_eq
  searched := Bytes.searched_of_lineEnd?
  take_append := takeChunkSize_append
  take_ne_more := takeChunkSize_ne_more

end Delimited

/-! ### The invariant of a decoder -/

/-- Searches that are resumed miss nothing: the end that is looked for does not begin in
the bytes that were searched. -/
def Sound (d : Decoder) : Prop :=
  match d.stage with
  | .status searched => Bytes.Searched Bytes.crlf searched d.buffer
  | .headers searched => Bytes.Searched (Bytes.crlf ++ Bytes.crlf) searched d.buffer
  | .chunkSize searched => Bytes.Searched Bytes.crlf searched d.buffer
  | _ => True

/-- Bytes that are pushed make no search miss anything. -/
theorem sound_push {d : Decoder} (h : d.Sound) (more : Bytes) : (d.push more).Sound := by
  obtain ⟨stage, buffer⟩ := d
  cases stage with
  | status searched => exact Bytes.Searched.append h more
  | headers searched => exact Bytes.Searched.append h more
  | chunkSize searched => exact Bytes.Searched.append h more
  | plain => trivial
  | chunkData missing pos => trivial
  | chunkEnd => trivial

/-- A stage in which nothing was searched yet. -/
theorem sound_bodyStage (map : HeaderMap) (buffer : Bytes) :
    Sound { stage := bodyStage map, buffer } := by
  unfold bodyStage
  split
  · exact Bytes.searched_zero _ _
  · trivial

/-- The data of a chunk and its end are not searched for. -/
theorem sound_chunkStage (missing : Nat) (buffer : Bytes) :
    Sound { stage := chunkStage missing, buffer } := by
  unfold chunkStage
  split <;> trivial

/-- What follows a status line was not searched yet. -/
theorem sound_takeStatus (buffer : Bytes) (length : Nat) : (takeStatus buffer length).2.Sound := by
  simp only [takeStatus]
  split
  · exact Bytes.searched_zero _ _
  · split
    · trivial
    · exact Bytes.searched_zero _ _

/-- What follows a size line was not searched yet. -/
theorem sound_takeChunkSize (buffer : Bytes) (length : Nat) :
    (takeChunkSize buffer length).2.Sound := by
  simp only [takeChunkSize]
  split
  · exact Bytes.searched_zero _ _
  · split
    · exact Bytes.searched_zero _ _
    · exact sound_chunkStage _ _

/-- A search that is not finished has found nothing. -/
theorem eq_none_of_ofSearch {stop? : Option Nat} {size limit overlap searched : Nat}
    (h : Scan.ofSearch stop? size limit overlap = .unfinished searched) :
    stop? = none ∧ searched = size - overlap := by
  unfold Scan.ofSearch at h
  split at h
  · cases h
  · split at h
    · cases h
    · cases h
      exact ⟨rfl, rfl⟩

/-- A search in vain is resumed where its end may begin. -/
theorem Delimited.searched_of_ofSearch (p : Delimited) {limit searched searched' : Nat}
    {buffer : Bytes} (h : Bytes.Searched p.pattern searched buffer)
    (hscan : Scan.ofSearch (p.stop? searched buffer) buffer.length limit p.overlap
      = .unfinished searched') : Bytes.Searched p.pattern searched' buffer := by
  obtain ⟨hnone, rfl⟩ := eq_none_of_ofSearch hscan
  exact p.searched (p.resumes h ▸ hnone)

/-- A report keeps the invariant. -/
theorem sound_advance (limits : Limits) {d : Decoder} (h : d.Sound) :
    (d.advance limits).2.Sound := by
  obtain ⟨stage, buffer⟩ := d
  -- A search is too long, goes on, or has found its end; the next one starts afresh.
  cases stage with
  | status searched =>
    simp only [advance]
    split
    · exact h
    · exact Delimited.statusLine.searched_of_ofSearch h ‹_›
    · exact sound_takeStatus _ _
  | headers searched =>
    simp only [advance]
    split
    · exact h
    · exact Delimited.headerBlock.searched_of_ofSearch h ‹_›
    · exact sound_bodyStage _ _
  | chunkSize searched =>
    simp only [advance]
    split
    · exact h
    · exact Delimited.sizeLine.searched_of_ofSearch h ‹_›
    · exact sound_takeChunkSize _ _
  | plain =>
    simp only [advance]
    split <;> trivial
  | chunkData missing pos =>
    simp only [advance, takeChunkData]
    split <;> exact sound_chunkStage _ _
  | chunkEnd =>
    simp only [advance, takeChunkEnd]
    split
    · trivial
    · exact Bytes.searched_zero _ _

/-! ### What may be reported -/

/-- The reports that a decoder can make, each with the phase it belongs to and the one it
leads to. -/
inductive Reports (d : Decoder) : Signal → Decoder → Prop where
  | more {next : Decoder} (phase : next.stage.phase = d.stage.phase)
      (buffer : next.buffer = d.buffer) : Reports d .more next
  | proceed {next : Decoder} (before : d.stage.phase = .body)
      (after : next.stage.phase = .body) : Reports d .proceed next
  | accepted {status : StatusLine} {next : Decoder} (before : d.stage.phase = .status)
      (line : statusLine? d.buffer = some status) (ok : status.isOk = true)
      (after : next.stage.phase = if status.skipsHeaders then .body else .headers) :
      Reports d (.accepted status) next
  | headers {map : HeaderMap} {next : Decoder} (before : d.stage.phase = .headers)
      (after : next.stage.phase = .body) : Reports d (.headers map) next
  | data {bytes : Bytes} {next : Decoder} (before : d.stage.phase = .body)
      (some : bytes ≠ []) (after : next.stage.phase = .body) : Reports d (.data bytes) next
  | finished {next : Decoder} (before : d.stage.phase = .body) : Reports d .finished next
  | failed {error : Error} {next : Decoder} : Reports d (.failed error) next

/-- Behind the headers there is a body, chunked or not. -/
theorem phase_bodyStage (map : HeaderMap) : (bodyStage map).phase = .body := by
  unfold bodyStage
  split <;> rfl

/-- Behind a size line the body goes on. -/
theorem phase_chunkStage (missing : Nat) : (chunkStage missing).phase = .body := by
  unfold chunkStage
  split <;> rfl

/-- A status line is accepted with the phase that it leads to, or it fails. -/
theorem reports_takeStatus {searched length : Nat} {buffer : Bytes}
    (h : Bytes.lineEnd? 0 buffer = some length) :
    Reports { stage := .status searched, buffer } (takeStatus buffer length).1
      (takeStatus buffer length).2 := by
  have hline : statusLine? buffer = some (.parse (buffer.take length)) := by
    rw [statusLine?, h]
    rfl
  simp only [takeStatus]
  split
  · exact .failed
  · rename_i hok
    have hok' : (StatusLine.parse (buffer.take length)).isOk = true := by simpa using hok
    split
    · exact .accepted rfl hline hok' (by rw [if_pos ‹_›]; rfl)
    · exact .accepted rfl hline hok' (by rw [if_neg ‹_›]; rfl)

/-- A size line ends the body, goes on with it, or fails. -/
theorem reports_takeChunkSize {searched : Nat} (buffer : Bytes) (length : Nat) :
    Reports { stage := .chunkSize searched, buffer } (takeChunkSize buffer length).1
      (takeChunkSize buffer length).2 := by
  simp only [takeChunkSize]
  split
  · exact .failed
  · split
    · exact .finished rfl
    · exact .proceed rfl (phase_chunkStage _)

/-- What a decoder may say, phase by phase. -/
theorem reports_advance (limits : Limits) {d : Decoder} (h : d.Sound) :
    Reports d (d.advance limits).1 (d.advance limits).2 := by
  obtain ⟨stage, buffer⟩ := d
  cases stage with
  | status searched =>
    simp only [advance]
    split
    · exact .failed
    · exact .more rfl rfl
    · rename_i length hfound
      -- The end that a resumed search finds is that of the status line.
      have hfront : Bytes.lineEnd? searched buffer = Bytes.lineEnd? 0 buffer :=
        Bytes.lineEnd?_eq h
      exact reports_takeStatus (hfront ▸ eq_some_of_ofSearch hfound)
  | headers searched =>
    simp only [advance]
    split
    · exact .failed
    · exact .more rfl rfl
    · exact .headers rfl (phase_bodyStage _)
  | chunkSize searched =>
    simp only [advance]
    split
    · exact .failed
    · exact .more rfl rfl
    · exact reports_takeChunkSize buffer _
  | plain =>
    simp only [advance]
    split
    · exact .more rfl rfl
    · exact .data rfl (by simpa using ‹¬ buffer.isEmpty = true›) rfl
  | chunkData missing pos =>
    simp only [advance, takeChunkData]
    split
    · exact .more (phase_chunkStage _) rfl
    · -- Neither the buffer nor what is missing of the chunk is empty.
      rename_i hne
      refine .data rfl ?_ (phase_chunkStage _)
      intro hnil
      rcases List.take_eq_nil_iff.1 hnil with hzero | hempty
      · omega
      · exact hne (by simp [hempty])
  | chunkEnd =>
    simp only [advance, takeChunkEnd]
    split
    · exact .more rfl rfl
    · exact .proceed rfl rfl

end Decoder

end NtripClient
