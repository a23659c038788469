import NtripClient.Proofs.Answer.Transcript
import NtripClient.State

/-!
# `NtripClient.Proofs.Answer.Intake`: what a decoder uses and what it keeps

A decoder holds the bytes that it has not used yet. `buffer_advance` says which ones it uses with
a report: those in front, as many as `useLength` tells, so that none is lost and none is used
twice.

A decoder that can do nothing without more bytes is `Hungry`. `hungry_advance` says that it is so
whenever it has asked for more, and `length_le_of_hungry` that it holds few bytes then: each stage
has its own `capacity`, and each for its own reason. A line or a header block that is longer than
its limit would have been reported, data is handed over as soon as it is there, and of two bytes
between chunks at most one is waited with.

`gives_advance` is the inversion of an advance for proofs that have to know what was found in the
bytes, and not only of which kind it was.
-/

set_option autoImplicit false

namespace NtripClient

/-- The state of a session that reads this part of an answer. -/
def Stage.state : Stage → State
  | .status _ => .readingStatus
  | .headers _ => .readingHeaders
  | .plain => .streaming .plain
  | .chunkSize _ => .streaming .chunked
  | .chunkData _ _ => .streaming .chunked
  | .chunkEnd => .streaming .chunked

/-- The most bytes that are kept at a stage while more of them are waited for. -/
def Stage.capacity (limits : Limits) : Stage → Nat
  | .status _ => limits.line
  | .headers _ => limits.block
  | .plain => 0
  | .chunkSize _ => limits.line
  | .chunkData _ _ => 0
  | .chunkEnd => 1

/-- The length of a part that was found. -/
def Scan.length : Scan → Nat
  | .found length => length
  | _ => 0

/-- The error is that the request is not allowed. -/
def Error.isRequestFault : Error → Bool
  | .invalidRequest _ => true
  | _ => false

/-- The number of bytes that a chunk size line uses. A malformed one uses none. -/
def ChunkSize.useLength (line : Bytes) : Nat :=
  match parse line with
  | .ok size => size.consumed
  | .error _ => 0

namespace Decoder

variable {limits : Limits} {d : Decoder}

/-- The decoder can do nothing without more bytes. -/
def Hungry (limits : Limits) (d : Decoder) : Prop :=
  (d.advance limits).1 = .more

/-- The number of bytes that the next report uses: those of the part that it is about. -/
def useLength (limits : Limits) (d : Decoder) : Nat :=
  match d.stage with
  | .status searched => (scanLine limits.line searched d.buffer).length
  | .headers searched => (scanBlock limits.block searched d.buffer).length
  | .plain => d.buffer.length
  | .chunkSize searched =>
    ChunkSize.useLength (d.buffer.take (scanLine limits.line searched d.buffer).length)
  | .chunkData missing _ => min missing d.buffer.length
  | .chunkEnd => if d.buffer.length < ChunkSize.trailer then 0 else ChunkSize.trailer

/-! ### What is used -/

/-- A status line is taken from the front of the buffer, whatever it says. -/
theorem buffer_takeStatus (buffer : Bytes) (length : Nat) :
    (takeStatus buffer length).2.buffer = buffer.drop length := by
  simp only [takeStatus]
  split
  · rfl
  · split <;> rfl

/-- A size line is taken from the front of the buffer, unless it is malformed. -/
theorem buffer_takeChunkSize (buffer : Bytes) (length : Nat) :
    (takeChunkSize buffer length).2.buffer
      = buffer.drop (ChunkSize.useLength (buffer.take length)) := by
  simp only [takeChunkSize, ChunkSize.useLength]
  cases ChunkSize.parse (buffer.take length) with
  | error e => rfl
  | ok size =>
    simp only
    split <;> rfl

/-- A report uses bytes from the front, and keeps the others as they are. -/
theorem buffer_advance (limits : Limits) (d : Decoder) :
    (d.advance limits).2.buffer = d.buffer.drop (d.useLength limits) := by
  obtain ⟨stage, buffer⟩ := d
  cases stage with
  | status searched =>
    simp only [advance, useLength]
    cases scanLine limits.line searched buffer with
    | found length => exact buffer_takeStatus buffer length
    | unfinished searched => rfl
    | tooLong => rfl
  | headers searched =>
    simp only [advance, useLength]
    cases scanBlock limits.block searched buffer with
    | found length => rfl
    | unfinished searched => rfl
    | tooLong => rfl
  | plain =>
    simp only [advance, useLength, List.drop_length]
    split
    · exact List.isEmpty_iff.1 ‹_›
    · rfl
  | chunkSize searched =>
    simp only [advance, useLength]
    cases scanLine limits.line searched buffer with
    | found length => exact buffer_takeChunkSize buffer length
    | unfinished searched => rfl
    | tooLong => rfl
  | chunkData missing pos =>
    simp only [advance, useLength, takeChunkData]
    split
    · rename_i hempty
      simp [List.isEmpty_iff.1 hempty]
    · -- What is missing of the chunk may be more than there is.
      show buffer.drop missing = buffer.drop (min missing buffer.length)
      rcases Nat.le_total missing buffer.length with hle | hle
      · rw [Nat.min_eq_left hle]
      · rw [Nat.min_eq_right hle, List.drop_of_length_le hle, List.drop_length]
  | chunkEnd =>
    simp only [advance, useLength, takeChunkEnd]
    split <;> rfl

/-! ### Waiting for more -/

/-- The stage inside the data of a chunk is that of a chunk of which something is missing. -/
theorem chunkData_eq_chunkStage {missing : Nat} (pos : 0 < missing) :
    Stage.chunkData missing pos = chunkStage missing := by
  rw [chunkStage, dif_pos pos]

/-- A part that ends with a delimiter is waited for while its end is missing and it is not too
long. -/
theorem Delimited.hungry_iff (p : Delimited) {searched : Nat} {buffer : Bytes}
    (h : Bytes.Searched p.pattern searched buffer) :
    Hungry limits { stage := p.stage searched, buffer } ↔
      p.stop? 0 buffer = none ∧ buffer.length ≤ p.limit limits := by
  rw [Hungry, p.advance_eq, p.resumes h]
  cases hstop : p.stop? 0 buffer with
  | some length =>
    rw [Scan.ofSearch, Option.getD_some]
    by_cases hlong : p.limit limits < length
    · simp [if_pos hlong]
    · simp [if_neg hlong, p.take_ne_more buffer length]
  | none =>
    rw [Scan.ofSearch, Option.getD_none]
    by_cases hlong : p.limit limits < buffer.length
    · simp [if_pos hlong, Nat.not_le.2 hlong]
    · simp [if_neg hlong, Nat.not_lt.1 hlong]

/-- Where a search goes on does not matter to a decoder that waits. -/
theorem Delimited.hungry_advance (p : Delimited) {searched : Nat} {buffer : Bytes}
    (h : Bytes.Searched p.pattern searched buffer)
    (hungry : Hungry limits { stage := p.stage searched, buffer }) :
    Hungry limits (advance limits { stage := p.stage searched, buffer }).2 := by
  obtain ⟨hnone, hle⟩ := (p.hungry_iff h).1 hungry
  have hscan : Scan.ofSearch (p.stop? searched buffer) buffer.length (p.limit limits) p.overlap
      = .unfinished (buffer.length - p.overlap) := by
    rw [p.resumes h, hnone, Scan.ofSearch, Option.getD_none, if_neg (Nat.not_lt.2 hle)]
  rw [p.advance_eq, hscan]
  exact (p.hungry_iff (p.searched hnone)).2 ⟨hnone, hle⟩

/-- In the other stages a decoder waits for the first byte, or for the second one of two. -/
theorem hungry_plain_iff {buffer : Bytes} :
    Hungry limits { stage := .plain, buffer } ↔ buffer = [] := by
  by_cases hempty : buffer = []
  · simp [Hungry, advance, hempty]
  · simp [Hungry, advance_plain limits hempty, hempty]

/-- Inside a chunk a decoder needs more bytes exactly if it holds none. -/
theorem hungry_chunkStage_iff {missing : Nat} (hpos : 0 < missing) {buffer : Bytes} :
    Hungry limits { stage := chunkStage missing, buffer } ↔ buffer = [] := by
  by_cases hempty : buffer = []
  · simp [Hungry, hempty, advance_chunkStage_nil limits hpos]
  · simp [Hungry, advance_chunkStage limits hempty hpos, hempty]

/-- Behind the data of a chunk a decoder needs as many bytes as its end has. -/
theorem hungry_chunkEnd_iff {buffer : Bytes} :
    Hungry limits { stage := .chunkEnd, buffer } ↔ buffer.length < ChunkSize.trailer := by
  by_cases hshort : buffer.length < ChunkSize.trailer
  · simp [Hungry, advance_chunkEnd_short limits hshort, hshort]
  · simp [Hungry, advance_chunkEnd limits (Nat.not_lt.1 hshort), hshort]

/-- Without any bytes there is nothing to do. -/
theorem hungry_empty (limits : Limits) : Hungry limits {} :=
  (Delimited.statusLine.hungry_iff (Bytes.searched_zero _ _)).2 ⟨rfl, Nat.zero_le _⟩

/-- A decoder that has asked for more bytes can do nothing without them. -/
theorem hungry_advance (hsound : d.Sound) (h : Hungry limits d) :
    Hungry limits (d.advance limits).2 := by
  obtain ⟨stage, buffer⟩ := d
  -- Outside of a search the decoder stays as it is.
  cases stage with
  | status searched => exact Delimited.statusLine.hungry_advance hsound h
  | headers searched => exact Delimited.headerBlock.hungry_advance hsound h
  | chunkSize searched => exact Delimited.sizeLine.hungry_advance hsound h
  | plain =>
    rw [hungry_plain_iff.1 h]
    exact hungry_plain_iff.2 rfl
  | chunkData missing pos =>
    rw [chunkData_eq_chunkStage pos] at h ⊢
    rw [(hungry_chunkStage_iff pos).1 h, advance_chunkStage_nil limits pos]
    exact (hungry_chunkStage_iff pos).2 rfl
  | chunkEnd =>
    rw [advance_chunkEnd_short limits (hungry_chunkEnd_iff.1 h)]
    exact h

/-- **A decoder that waits holds few bytes**, at each stage for its own reason. -/
theorem length_le_of_hungry (hsound : d.Sound) (h : Hungry limits d) :
    d.buffer.length ≤ d.stage.capacity limits := by
  obtain ⟨stage, buffer⟩ := d
  cases stage with
  | status searched => exact ((Delimited.statusLine.hungry_iff hsound).1 h).2
  | headers searched => exact ((Delimited.headerBlock.hungry_iff hsound).1 h).2
  | chunkSize searched => exact ((Delimited.sizeLine.hungry_iff hsound).1 h).2
  | plain => exact Nat.le_of_eq (List.length_eq_zero_iff.2 (hungry_plain_iff.1 h))
  | chunkData missing pos =>
    rw [chunkData_eq_chunkStage pos] at h
    exact Nat.le_of_eq (List.length_eq_zero_iff.2 ((hungry_chunkStage_iff pos).1 h))
  | chunkEnd => exact Nat.le_of_lt_succ (hungry_chunkEnd_iff.1 h)

/-! ### What is found -/

/-- What a decoder reports, and what it is then, with the part of the answer that it has found. -/
inductive Gives (limits : Limits) (d : Decoder) : Signal → Decoder → Prop where
  | more {next : Decoder} (stage : next.stage.state = d.stage.state)
      (buffer : next.buffer = d.buffer) (hungry : next.Hungry limits) : Gives limits d .more next
  | proceed {next : Decoder} (active : d.stage.state.isActive = true)
      (stage : next.stage.state = d.stage.state) : Gives limits d .proceed next
  | accepted {length : Nat} (stage : d.stage.state = .readingStatus)
      (stop : Bytes.lineEnd? 0 d.buffer = some length)
      (ok : (StatusLine.parse (d.buffer.take length)).isOk = true) :
      Gives limits d (.accepted (.parse (d.buffer.take length)))
        { stage := if (StatusLine.parse (d.buffer.take length)).skipsHeaders then .plain
            else .headers 0
          buffer := d.buffer.drop length }
  | headers {length : Nat} (stage : d.stage.state = .readingHeaders)
      (stop : Bytes.blockEnd? 0 d.buffer = some length) :
      Gives limits d (.headers (HeaderMap.empty.insertBlock (d.buffer.take length)).1)
        { stage := bodyStage (HeaderMap.empty.insertBlock (d.buffer.take length)).1
          buffer := d.buffer.drop length }
  | data {bytes : Bytes} {next : Decoder} (active : d.stage.state.isActive = true)
      (stage : next.stage.state = d.stage.state) : Gives limits d (.data bytes) next
  | finished {next : Decoder} (active : d.stage.state.isActive = true) :
      Gives limits d .finished next
  | failed {error : Error} {next : Decoder} (ofAnswer : error.isRequestFault = false) :
      Gives limits d (.failed error) next

/-- A session inside a chunk, or at its end, is in the state of a chunked body. -/
theorem state_chunkStage (missing : Nat) : (chunkStage missing).state = .streaming .chunked := by
  unfold chunkStage
  split <;> rfl

/-- The headers choose the state of the body. -/
theorem state_bodyStage (map : HeaderMap) :
    (bodyStage map).state = .streaming (if map.isChunked then .chunked else .plain) := by
  unfold bodyStage
  split <;> rfl

/-- What is given of a status line is read off the bytes up to its end. -/
theorem gives_takeStatus {searched length : Nat} {buffer : Bytes}
    (h : Bytes.lineEnd? 0 buffer = some length) :
    Gives limits { stage := .status searched, buffer } (takeStatus buffer length).1
      (takeStatus buffer length).2 := by
  simp only [takeStatus]
  split
  · exact .failed rfl
  · rename_i hok
    have haccepted := @Gives.accepted limits { stage := .status searched, buffer } length rfl h
      (by simpa using hok)
    split
    · rw [if_pos ‹_›] at haccepted
      exact haccepted
    · rw [if_neg ‹_›] at haccepted
      exact haccepted

/-- What is given of a size line belongs to the body. -/
theorem gives_takeChunkSize {searched : Nat} (buffer : Bytes) (length : Nat) :
    Gives limits { stage := .chunkSize searched, buffer } (takeChunkSize buffer length).1
      (takeChunkSize buffer length).2 := by
  simp only [takeChunkSize]
  split
  · exact .failed rfl
  · split
    · exact .finished rfl
    · exact .proceed rfl (state_chunkStage _)

/-- A decoder that asks for more bytes keeps what it has. -/
theorem gives_more (next : Decoder) (hsound : d.Sound)
    (hadvance : d.advance limits = (.more, next)) (stage : next.stage.state = d.stage.state)
    (buffer : next.buffer = d.buffer) :
    Gives limits d (d.advance limits).1 (d.advance limits).2 := by
  have hungry : Hungry limits (d.advance limits).2 :=
    hungry_advance hsound (by rw [Hungry, hadvance])
  rw [hadvance] at hungry ⊢
  exact .more stage buffer hungry

/-- What is found in each stage. -/
theorem gives_advance (limits : Limits) (h : d.Sound) :
    Gives limits d (d.advance limits).1 (d.advance limits).2 := by
  obtain ⟨stage, buffer⟩ := d
  -- Over the stages. A part is given once its end is found, all others as they come.
  cases stage with
  | status searched =>
    have hscan : scanLine limits.line searched buffer = .ofSearch (Bytes.lineEnd? 0 buffer)
        buffer.length limits.line 1 := by rw [scanLine, Bytes.lineEnd?_eq h]
    cases hfound : scanLine limits.line searched buffer with
    | tooLong =>
      simp only [advance, hfound]
      exact .failed rfl
    | unfinished searched' =>
      exact gives_more { stage := .status searched', buffer } h
        (by simp only [advance, hfound]) rfl rfl
    | found length =>
      simp only [advance, hfound]
      exact gives_takeStatus (eq_some_of_ofSearch (hscan ▸ hfound))
  | headers searched =>
    have hscan : scanBlock limits.block searched buffer = .ofSearch (Bytes.blockEnd? 0 buffer)
        buffer.length limits.block 3 := by rw [scanBlock, Bytes.blockEnd?_eq h]
    cases hfound : scanBlock limits.block searched buffer with
    | tooLong =>
      simp only [advance, hfound]
      exact .failed rfl
    | unfinished searched' =>
      exact gives_more { stage := .headers searched', buffer } h
        (by simp only [advance, hfound]) rfl rfl
    | found length =>
      simp only [advance, hfound]
      exact .headers rfl (eq_some_of_ofSearch (hscan ▸ hfound))
  | chunkSize searched =>
    cases hfound : scanLine limits.line searched buffer with
    | tooLong =>
      simp only [advance, hfound]
      exact .failed rfl
    | unfinished searched' =>
      exact gives_more { stage := .chunkSize searched', buffer } h
        (by simp only [advance, hfound]) rfl rfl
    | found length =>
      simp only [advance, hfound]
      exact gives_takeChunkSize buffer length
  | plain =>
    by_cases hempty : buffer = []
    · subst hempty
      exact gives_more _ h rfl rfl rfl
    · rw [advance_plain limits hempty]
      exact .data rfl rfl
  | chunkData missing pos =>
    rw [chunkData_eq_chunkStage pos] at h ⊢
    have hstate : (chunkStage missing).state = .streaming .chunked := state_chunkStage missing
    by_cases hempty : buffer = []
    · subst hempty
      exact gives_more _ h (advance_chunkStage_nil limits pos) rfl rfl
    · rw [advance_chunkStage limits hempty pos]
      exact .data (congrArg State.isActive hstate) ((state_chunkStage _).trans hstate.symm)
  | chunkEnd =>
    by_cases hshort : buffer.length < ChunkSize.trailer
    · exact gives_more _ h (advance_chunkEnd_short limits hshort) rfl rfl
    · rw [advance_chunkEnd limits (Nat.not_lt.1 hshort)]
      exact .proceed rfl rfl

end Decoder

end NtripClient
