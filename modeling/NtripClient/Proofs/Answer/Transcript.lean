import NtripClient.Callbacks
import NtripClient.Proofs.Answer.Advance

/-!
# `NtripClient.Proofs.Answer.Transcript`: what an answer tells, however it is cut

A server sends bytes, and then the stream ends in some way. `Decoder.transcript` says what
a client is told of them, from the bytes as a whole: it advances a decoder that holds them
all, and joins the pieces of data into one.

A client that reads the bytes piece by piece advances a decoder that holds some of them and
pushes more. `transcript_push` says that it may: whatever a decoder reports now, and whatever
arrives later, the transcript is this report followed by the transcript of what is left. For
a decoder that asks for more bytes the report is nothing at all. So all ways of cutting an
answer into reads have the same transcript.

Two things could go wrong. A search could miss an end that is cut in two, which `Sound`
excludes. And a limit that is tested on the bytes that are there could decide otherwise than
on the whole: it does not, because an end that arrives later lies behind them.
-/

set_option autoImplicit false

namespace NtripClient

/-! ### Calls with their data joined -/

/-- Puts a call in front of others. Pieces of data that meet become one. -/
def Notice.onto : Notice → List Notice → List Notice
  | .data first, .data second :: later => .data (first ++ second) :: later
  | notice, later => notice :: later

/-- The calls with all adjacent pieces of data joined. -/
def Notice.merge (calls : List Notice) : List Notice :=
  calls.foldr Notice.onto []

/-- Data may be handed over in two pieces. -/
theorem Notice.onto_onto_data (first second : Bytes) (later : List Notice) :
    Notice.onto (.data first) (Notice.onto (.data second) later)
      = Notice.onto (.data (first ++ second)) later := by
  cases later with
  | nil => rfl
  | cons notice later =>
    cases notice with
    | data third => simp only [Notice.onto, List.append_assoc]
    | headers map => rfl
    | eof => rfl
    | error error => rfl

/-! ### The end of a stream -/

/-- How a stream of bytes ends. -/
inductive StreamEnd where
  /-- The server closes it. -/
  | closed
  /-- Reading fails. -/
  | failed (cause : IoError)
  /-- Nothing more arrives, for ever. -/
  | silent
deriving DecidableEq, Repr

/-- What the end of a stream tells in each phase of an answer. -/
def StreamEnd.calls (ending : StreamEnd) (phase : Phase) : List Notice :=
  match ending with
  | .closed => if phase = .body then [.eof] else [.error Error.closedEarly]
  | .failed cause => [.error (.io cause)]
  | .silent => []

/-- What a report tells, in front of what is told later. -/
def Signal.told (signal : Signal) (later : List Notice) : List Notice :=
  match signal with
  | .headers map => Notice.onto (.headers map) later
  | .data bytes => Notice.onto (.data bytes) later
  | .finished => [.eof]
  | .failed error => [.error error]
  | _ => later

namespace Decoder

/-- What is told of the bytes a decoder holds when the stream ends behind them. -/
def transcript (limits : Limits) (ending : StreamEnd) (d : Decoder) : List Notice :=
  match _h : d.advance limits with
  | (.more, next) => ending.calls next.stage.phase
  | (.proceed, next) => transcript limits ending next
  | (.accepted _, next) => transcript limits ending next
  | (.headers map, next) => Notice.onto (.headers map) (transcript limits ending next)
  | (.data bytes, next) => Notice.onto (.data bytes) (transcript limits ending next)
  | (.finished, _) => [.eof]
  | (.failed error, _) => [.error error]
termination_by d.buffer.length
decreasing_by
  all_goals
    have huses := uses_advance limits d
    rw [_h] at huses
    exact huses

section
variable {limits : Limits} {ending : StreamEnd} {d next : Decoder}

/-- A decoder that asks for more bytes meets the end of the stream. -/
theorem transcript_of_more (h : d.advance limits = (.more, next)) :
    transcript limits ending d = ending.calls next.stage.phase := by
  rw [transcript]
  split <;> rename_i heq <;> rw [h] at heq <;> cases heq
  rfl

/-- Any other report is told, and then what is left. -/
theorem transcript_of_ne_more {signal : Signal} (h : d.advance limits = (signal, next))
    (hne : signal ≠ .more) :
    transcript limits ending d = signal.told (transcript limits ending next) := by
  rw [transcript]
  split <;> rename_i heq <;> rw [h] at heq <;> cases heq
  · exact absurd rfl hne
  all_goals rfl

end

/-! ### Parts that end with a delimiter -/

namespace Delimited

variable {limits : Limits} {ending : StreamEnd} {searched : Nat} {buffer : Bytes}

/-- Where a search is resumed makes no difference. -/
theorem transcript_resume (p : Delimited) (h : Bytes.Searched p.pattern searched buffer) :
    transcript limits ending { stage := p.stage searched, buffer }
      = transcript limits ending { stage := p.stage 0, buffer } := by
  have hfront := p.advance_eq limits 0 buffer
  have hresumed := p.advance_eq limits searched buffer
  -- Both searches find the same, and where they began is gone with the part they find.
  rw [p.resumes h] at hresumed
  cases hscan : Scan.ofSearch (p.stop? 0 buffer) buffer.length (p.limit limits) p.overlap with
  | tooLong =>
    rw [hscan] at hfront hresumed
    rw [transcript_of_ne_more hfront (by simp), transcript_of_ne_more hresumed (by simp)]
    rfl
  | unfinished searched' =>
    rw [hscan] at hfront hresumed
    rw [transcript_of_more hfront, transcript_of_more hresumed]
  | found length =>
    rw [hscan] at hfront hresumed
    have hne := p.take_ne_more buffer length
    rw [transcript_of_ne_more hfront hne, transcript_of_ne_more hresumed hne]

/-- A part that is too long stays so, whatever arrives. -/
theorem ofSearch_tooLong_append (p : Delimited) {limit : Nat} (more : Bytes)
    (h : Scan.ofSearch (p.stop? 0 buffer) buffer.length limit p.overlap = .tooLong) :
    Scan.ofSearch (p.stop? 0 (buffer ++ more)) (buffer ++ more).length limit p.overlap
      = .tooLong := by
  have hlimit : limit < (p.stop? 0 buffer).getD buffer.length := by
    unfold Scan.ofSearch at h
    split at h
    · assumption
    · split at h <;> cases h
  unfold Scan.ofSearch
  refine if_pos ?_
  cases hstop : p.stop? 0 buffer with
  | some stop =>
    rw [hstop] at hlimit
    rwa [p.settles.stays more hstop]
  | none =>
    -- The bytes exceed the limit already, and an end that appears later lies behind them.
    rw [hstop] at hlimit
    cases hlater : p.stop? 0 (buffer ++ more) with
    | none =>
      rw [Option.getD_none, List.length_append]
      exact Nat.lt_of_lt_of_le hlimit (Nat.le_add_right _ _)
    | some stop => exact Nat.lt_trans hlimit (p.settles.later hstop hlater)

/-- A part that was found stays where it is, whatever arrives. -/
theorem ofSearch_found_append (p : Delimited) {limit length : Nat} (more : Bytes)
    (h : Scan.ofSearch (p.stop? 0 buffer) buffer.length limit p.overlap = .found length) :
    Scan.ofSearch (p.stop? 0 (buffer ++ more)) (buffer ++ more).length limit p.overlap
      = .found length := by
  have hstop := eq_some_of_ofSearch h
  rw [hstop] at h
  rw [p.settles.stays more hstop]
  exact h

/-- Looking for a delimiter early is safe. -/
theorem transcript_push (p : Delimited) (h : Bytes.Searched p.pattern searched buffer)
    (more : Bytes) {signal : Signal} {next : Decoder}
    (hadvance : advance limits { stage := p.stage searched, buffer } = (signal, next)) :
    transcript limits ending { stage := p.stage searched, buffer := buffer ++ more }
      = signal.told (transcript limits ending (next.push more)) := by
  have hnow := p.advance_eq limits searched buffer
  have hlater := p.advance_eq limits searched (buffer ++ more)
  rw [hadvance, p.resumes h] at hnow
  rw [p.resumes (h.append more)] at hlater
  cases hscan : Scan.ofSearch (p.stop? 0 buffer) buffer.length (p.limit limits) p.overlap with
  | tooLong =>
    -- Now and later the same error is reported.
    rw [hscan] at hnow
    rw [p.ofSearch_tooLong_append more hscan] at hlater
    cases hnow
    rw [transcript_of_ne_more hlater (by simp)]
    rfl
  | unfinished searched' =>
    -- Nothing is reported, and where the search goes on makes no difference.
    rw [hscan] at hnow
    cases hnow
    have hsearched : Bytes.Searched p.pattern searched' buffer :=
      p.searched_of_ofSearch h (by rw [p.resumes h]; exact hscan)
    exact (p.transcript_resume (h.append more)).trans
      (p.transcript_resume (hsearched.append more)).symm
  | found length =>
    -- The same part is taken, and what arrives stays behind it.
    have hle := p.settles.within (eq_some_of_ofSearch hscan)
    rw [hscan] at hnow
    rw [p.ofSearch_found_append more hscan] at hlater
    change (signal, next) = p.take buffer length at hnow
    change _ = p.take (buffer ++ more) length at hlater
    rw [p.take_append more hle, ← hnow] at hlater
    refine transcript_of_ne_more hlater ?_
    have hne := p.take_ne_more buffer length
    rwa [← hnow] at hne

end Delimited

/-! ### The other stages -/

section
variable (limits : Limits) (ending : StreamEnd)

/-- A plain body is handed over as it comes. -/
theorem advance_plain {bytes : Bytes} (h : bytes ≠ []) :
    advance limits { stage := .plain, buffer := bytes }
      = (.data bytes, { stage := .plain, buffer := [] }) := by
  simp [advance, h]

/-- The data of a chunk is handed over as it comes, as far as it is missing. -/
theorem advance_chunkStage {bytes : Bytes} {missing : Nat} (h : bytes ≠ []) (hpos : 0 < missing) :
    advance limits { stage := chunkStage missing, buffer := bytes }
      = (.data (bytes.take missing),
          { stage := chunkStage (missing - bytes.length), buffer := bytes.drop missing }) := by
  simp [advance, chunkStage, hpos, takeChunkData, h]

/-- Inside a chunk no bytes are no data. -/
theorem advance_chunkStage_nil {missing : Nat} (hpos : 0 < missing) :
    advance limits { stage := chunkStage missing, buffer := [] }
      = (.more, { stage := chunkStage missing, buffer := [] }) := by
  simp [advance, chunkStage, hpos, takeChunkData]

/-- The end of a chunk is skipped, whatever its bytes are. -/
theorem advance_chunkEnd {bytes : Bytes} (h : ChunkSize.trailer ≤ bytes.length) :
    advance limits { stage := .chunkEnd, buffer := bytes }
      = (.proceed, { stage := .chunkSize 0, buffer := bytes.drop ChunkSize.trailer }) := by
  simp [advance, takeChunkEnd, Nat.not_lt.2 h]

/-- Only a part of the end of a chunk is not enough. -/
theorem advance_chunkEnd_short {bytes : Bytes} (h : bytes.length < ChunkSize.trailer) :
    advance limits { stage := .chunkEnd, buffer := bytes }
      = (.more, { stage := .chunkEnd, buffer := bytes }) := by
  simp [advance, takeChunkEnd, h]

/-- A body that is not chunked is told as it is. -/
theorem transcript_plain {bytes : Bytes} (h : bytes ≠ []) :
    transcript limits ending { stage := .plain, buffer := bytes }
      = Notice.onto (.data bytes)
          (transcript limits ending { stage := .plain, buffer := [] }) :=
  transcript_of_ne_more (advance_plain limits h) (by simp)

/-- A plain body may be handed over in two pieces. -/
theorem transcript_plain_append {first : Bytes} (second : Bytes) (h : first ≠ []) :
    transcript limits ending { stage := .plain, buffer := first ++ second }
      = Notice.onto (.data first)
          (transcript limits ending { stage := .plain, buffer := second }) := by
  rw [transcript_plain limits ending (by simp [h])]
  by_cases hsecond : second = []
  · rw [hsecond, List.append_nil]
  · rw [transcript_plain limits ending hsecond, Notice.onto_onto_data]

/-- Of the data of a chunk is told what is there. -/
theorem transcript_chunkStage {bytes : Bytes} {missing : Nat} (h : bytes ≠ [])
    (hpos : 0 < missing) :
    transcript limits ending { stage := chunkStage missing, buffer := bytes }
      = Notice.onto (.data (bytes.take missing))
          (transcript limits ending
            { stage := chunkStage (missing - bytes.length), buffer := bytes.drop missing }) :=
  transcript_of_ne_more (advance_chunkStage limits h hpos) (by simp)

/-- The data of a chunk may be handed over in two pieces. -/
theorem transcript_chunkStage_append {first : Bytes} (second : Bytes) {missing : Nat}
    (h : first ≠ []) (hpos : 0 < missing) :
    transcript limits ending { stage := chunkStage missing, buffer := first ++ second }
      = Notice.onto (.data (first.take missing))
          (transcript limits ending
            { stage := chunkStage (missing - first.length)
              buffer := first.drop missing ++ second }) := by
  rw [transcript_chunkStage limits ending (by simp [h]) hpos]
  by_cases hlt : first.length < missing
  · -- All of the first piece is data, and some of the chunk is still missing.
    rw [List.take_of_length_le (Nat.le_of_lt hlt), List.drop_of_length_le (Nat.le_of_lt hlt),
      List.nil_append, List.take_append, List.take_of_length_le (Nat.le_of_lt hlt),
      List.drop_append, List.drop_of_length_le (Nat.le_of_lt hlt), List.nil_append,
      List.length_append, ← Nat.sub_sub]
    by_cases hsecond : second = []
    · simp [hsecond]
    · rw [transcript_chunkStage limits ending hsecond (Nat.sub_pos_of_lt hlt),
        Notice.onto_onto_data]
  · -- The chunk is complete, and the second piece lies behind it.
    have hle : missing ≤ first.length := Nat.le_of_not_lt hlt
    rw [List.take_append_of_le_length hle, List.drop_append_of_le_length hle, List.length_append,
      Nat.sub_eq_zero_of_le hle,
      Nat.sub_eq_zero_of_le (Nat.le_trans hle (Nat.le_add_right _ _))]

/-- The bytes between two chunks are not told. -/
theorem transcript_chunkEnd {bytes : Bytes} (h : ChunkSize.trailer ≤ bytes.length) :
    transcript limits ending { stage := .chunkEnd, buffer := bytes }
      = transcript limits ending
          { stage := .chunkSize 0, buffer := bytes.drop ChunkSize.trailer } :=
  transcript_of_ne_more (advance_chunkEnd limits h) (by simp)

end

/-! ### Reading piece by piece -/

/-- **A decoder may report before everything has arrived.** What is told of all the bytes
is its report, and then what is told of the bytes it has left and those that arrive. -/
theorem transcript_push (limits : Limits) (ending : StreamEnd) {d : Decoder} (h : d.Sound)
    (more : Bytes) :
    transcript limits ending (d.push more)
      = (d.advance limits).1.told (transcript limits ending ((d.advance limits).2.push more)) := by
  obtain ⟨stage, buffer⟩ := d
  cases stage with
  | status searched => exact Delimited.statusLine.transcript_push h more rfl
  | headers searched => exact Delimited.headerBlock.transcript_push h more rfl
  | chunkSize searched => exact Delimited.sizeLine.transcript_push h more rfl
  | plain =>
    by_cases hempty : buffer = []
    · subst hempty
      rfl
    · -- The body is passed on as it comes, so it may be split anywhere.
      rw [advance_plain limits hempty]
      exact transcript_plain_append limits ending more hempty
  | chunkData missing pos =>
    have hstage : Stage.chunkData missing pos = chunkStage missing := by
      rw [chunkStage, dif_pos pos]
    rw [hstage]
    by_cases hempty : buffer = []
    · subst hempty
      rw [advance_chunkStage_nil limits pos]
      rfl
    · rw [advance_chunkStage limits hempty pos]
      exact transcript_chunkStage_append limits ending more hempty pos
  | chunkEnd =>
    -- With fewer than two bytes the decoder has not moved, and both sides are the same.
    by_cases hlen : buffer.length < ChunkSize.trailer
    · rw [advance_chunkEnd_short limits hlen]
      rfl
    · -- The two bytes are there already, and stay at the front.
      have hle : ChunkSize.trailer ≤ buffer.length := Nat.le_of_not_lt hlen
      have hle' : ChunkSize.trailer ≤ (buffer ++ more).length := by
        rw [List.length_append]
        exact Nat.le_trans hle (Nat.le_add_right _ _)
      rw [advance_chunkEnd limits hle]
      show transcript limits ending { stage := .chunkEnd, buffer := buffer ++ more } = _
      rw [transcript_chunkEnd limits ending hle', List.drop_append_of_le_length hle]
      rfl

/-- A decoder that has no bytes yet tells of those that arrive. -/
theorem transcript_push_of_unread (limits : Limits) (ending : StreamEnd) {d : Decoder}
    (h : d.Sound) (hphase : d.stage.phase = .status) (hempty : d.buffer = []) (bytes : Bytes) :
    transcript limits ending (d.push bytes) = transcript limits ending { buffer := bytes } := by
  obtain ⟨stage, buffer⟩ := d
  cases stage with
  | status searched =>
    change buffer = [] at hempty
    subst hempty
    exact Delimited.statusLine.transcript_resume (Bytes.Searched.append h bytes)
  | headers searched => cases hphase
  | plain => cases hphase
  | chunkSize searched => cases hphase
  | chunkData missing pos => cases hphase
  | chunkEnd => cases hphase

/-- A decoder that asks for more bytes tells nothing unless they arrive. -/
theorem transcript_of_asked (limits : Limits) (ending : StreamEnd) {d : Decoder} (h : d.Sound)
    (hmore : (d.advance limits).1 = .more) :
    transcript limits ending (d.advance limits).2
      = ending.calls (d.advance limits).2.stage.phase := by
  -- The case of `transcript_push` in which nothing arrives.
  have hpush := transcript_push limits ending h []
  have hnil : ∀ d : Decoder, d.push [] = d := fun d => by rw [push, List.append_nil]
  rw [hnil, hnil, hmore] at hpush
  have hnow : transcript limits ending d = ending.calls (d.advance limits).2.stage.phase :=
    transcript_of_more (by rw [← hmore])
  exact hpush.symm.trans hnow

end Decoder

end NtripClient
