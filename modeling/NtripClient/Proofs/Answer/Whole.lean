import NtripClient.Proofs.Answer.Chunked
import NtripClient.Proofs.Chunk.Decoding

/-!
# `NtripClient.Proofs.Answer.Whole`: what the parts of an answer tell

The transcript of an answer advances a decoder that holds all its bytes. The equations of this
module say what comes of that in each stage: the status line and the header block are taken
from the front (`transcript_statusLine`, `transcript_headerBlock`), a plain body is told as it is
(`transcript_plain_eq`), and a chunked one as `Dechunked.ofBytes` reads it
(`transcript_chunked`).

The status line and the header block are complete, unfinished or too long, and there is no
fourth case (`Delimited.part_cases`).
-/

set_option autoImplicit false

namespace NtripClient

/-- What is told where the reading of a chunked body stops. -/
def BodyStop.calls (stop : BodyStop) (ending : StreamEnd) : List Notice :=
  match stop with
  | .complete => [.eof]
  | .malformed defect => [.error (.malformed defect)]
  | .exhausted => ending.calls .body

namespace Decoder

variable {limits : Limits} {ending : StreamEnd}

/-! ### Parts that end with a delimiter -/

/-- What a search for the end of a part comes to: the part, a part that is too long, or the
end of the stream. -/
theorem Delimited.transcript_eq (p : Delimited) (buffer : Bytes) :
    transcript limits ending { stage := p.stage 0, buffer }
      = match p.stop? 0 buffer with
        | none =>
          if p.limit limits < buffer.length then [.error (.malformed p.defect)]
          else ending.calls (p.stage (buffer.length - p.overlap)).phase
        | some length =>
          if p.limit limits < length then [.error (.malformed p.defect)]
          else
            (p.take buffer length).1.told (transcript limits ending (p.take buffer length).2) := by
  -- One advance from the start of the line decides; the four cases are those of its search.
  have hadvance := p.advance_eq limits 0 buffer
  cases hstop : p.stop? 0 buffer with
  | none =>
    rw [hstop, Scan.ofSearch, Option.getD_none] at hadvance
    by_cases hlong : p.limit limits < buffer.length
    · rw [if_pos hlong] at hadvance
      simp only [if_pos hlong]
      exact transcript_of_ne_more hadvance (by simp)
    · rw [if_neg hlong] at hadvance
      simp only [if_neg hlong]
      exact transcript_of_more hadvance
  | some length =>
    rw [hstop, Scan.ofSearch, Option.getD_some] at hadvance
    by_cases hlong : p.limit limits < length
    · rw [if_pos hlong] at hadvance
      simp only [if_pos hlong]
      exact transcript_of_ne_more hadvance (by simp)
    · rw [if_neg hlong] at hadvance
      simp only [if_neg hlong]
      exact transcript_of_ne_more hadvance (p.take_ne_more buffer length)

/-! ### Bodies -/

/-- A body that is not chunked is told as it is. -/
theorem transcript_plain_eq (bytes : Bytes) :
    transcript limits ending { stage := .plain, buffer := bytes }
      = Notice.withData bytes (ending.calls .body) := by
  have hmore : advance limits { stage := .plain, buffer := [] }
      = (.more, { stage := .plain, buffer := [] }) := rfl
  have hempty : transcript limits ending { stage := .plain, buffer := [] } = ending.calls .body :=
    transcript_of_more hmore
  by_cases hne : bytes = []
  · rw [hne, hempty, Notice.withData_nil]
  · rw [transcript_plain limits ending hne, hempty, Notice.withData, if_neg hne]

/-- Data of a chunk is told as far as it is there, and where the chunk is complete, the next
size line comes behind the two bytes that follow it. -/
theorem transcript_chunkStage_eq {length : Nat} (hpos : 0 < length) (rest : Bytes) :
    transcript limits ending { stage := chunkStage length, buffer := rest }
      = Notice.withData (rest.take length)
          (if rest.length < length + ChunkSize.trailer then ending.calls .body
            else transcript limits ending
              { stage := .chunkSize 0, buffer := rest.drop (length + ChunkSize.trailer) }) := by
  by_cases hshort : rest.length < length
  · rw [if_pos (by omega), List.take_of_length_le (Nat.le_of_lt hshort)]
    exact transcript_cut_data hshort
  · -- All of the data is there, and `gap` is what follows it.
    obtain ⟨data, gap, rfl, hlength⟩ : ∃ data gap, rest = data ++ gap ∧ data.length = length :=
      ⟨rest.take length, rest.drop length, (List.take_append_drop _ _).symm,
        List.length_take_of_le (Nat.le_of_not_lt hshort)⟩
    have hne : data ≠ [] := List.length_pos_iff.1 (hlength ▸ hpos)
    subst hlength
    rw [transcript_data hne, List.take_left, Notice.withData, if_neg hne]
    congr 1
    by_cases hgap : gap.length < ChunkSize.trailer
    · rw [if_pos (by rw [List.length_append]; omega)]
      exact transcript_cut_chunkEnd hgap
    · rw [if_neg (by rw [List.length_append]; omega), List.drop_append,
        List.drop_of_length_le (Nat.le_add_right _ _), List.nil_append, Nat.add_sub_cancel_left]
      exact transcript_chunkEnd limits ending (Nat.le_of_not_lt hgap)

/-- A chunk size line leads to the data it announces, or ends the body. -/
theorem transcript_sizeLine (bytes : Bytes) :
    transcript limits ending { stage := .chunkSize 0, buffer := bytes }
      = match Bytes.lineEnd? 0 bytes with
        | none =>
          if limits.line < bytes.length then [.error (.malformed .lineTooLong)]
          else ending.calls .body
        | some stop =>
          if limits.line < stop then [.error (.malformed .lineTooLong)]
          else
            match ChunkSize.parse (bytes.take stop) with
            | .error _ => [.error (.malformed .chunkSizeLine)]
            | .ok size =>
              if size.length = 0 then [.eof]
              else transcript limits ending
                { stage := chunkStage size.length, buffer := bytes.drop size.consumed } := by
  refine (Delimited.sizeLine.transcript_eq bytes).trans ?_
  show (match Bytes.lineEnd? 0 bytes with
    | none => _
    | some stop => if limits.line < stop then _ else
        (takeChunkSize bytes stop).1.told
          (transcript limits ending (takeChunkSize bytes stop).2)) = _
  cases Bytes.lineEnd? 0 bytes with
  | none => rfl
  | some stop =>
    simp only [takeChunkSize]
    congr 1
    cases ChunkSize.parse (bytes.take stop) with
    | error e => rfl
    | ok size =>
      by_cases hzero : size.length = 0
      · simp only [if_pos hzero]
        rfl
      · simp only [if_neg hzero]
        rfl

/-- **A chunked body tells what `Dechunked.ofBytes` reads**, whatever its bytes are. -/
theorem transcript_chunked (bytes : Bytes) :
    transcript limits ending { stage := .chunkSize 0, buffer := bytes }
      = Notice.withData (Dechunked.ofBytes limits.line bytes).data
          ((Dechunked.ofBytes limits.line bytes).stop.calls ending) := by
  -- Over the chunks: both sides find the same line and read the same size from it.
  fun_induction Dechunked.ofBytes limits.line bytes with
  | case1 bytes hstop =>
    rw [transcript_sizeLine, hstop, Notice.withData_nil]
    by_cases hlong : limits.line < bytes.length
    · simp only [if_pos hlong, BodyStop.calls]
    · simp only [if_neg hlong, BodyStop.calls]
  | case2 bytes stop hstop hlong =>
    simp only [transcript_sizeLine, hstop, if_pos hlong, Notice.withData_nil, BodyStop.calls]
  | case3 bytes stop hstop hlong e hsize =>
    simp only [transcript_sizeLine, hstop, if_neg hlong, hsize, Notice.withData_nil,
      BodyStop.calls]
  | case4 bytes stop hstop hlong size hsize hzero =>
    simp only [transcript_sizeLine, hstop, if_neg hlong, hsize, if_pos hzero,
      Notice.withData_nil, BodyStop.calls]
  | case5 bytes stop hstop hlong size hsize rest hzero hshort =>
    simp only [transcript_sizeLine, hstop, if_neg hlong, hsize, if_neg hzero]
    rw [transcript_chunkStage_eq (Nat.pos_of_ne_zero hzero), if_pos hshort]
    rfl
  | case6 bytes stop hstop hlong size hsize rest hzero hwhole later ih =>
    simp only [transcript_sizeLine, hstop, if_neg hlong, hsize, if_neg hzero]
    rw [transcript_chunkStage_eq (Nat.pos_of_ne_zero hzero), if_neg hwhole, List.drop_drop,
      ← Nat.add_assoc, ih, ← Notice.withData_append]

/-! ### Parts in front of other bytes -/

namespace Delimited

/-- A complete part within its limit: its first end is at its end. -/
structure IsPart (p : Delimited) (limits : Limits) (part : Bytes) : Prop where
  ends : p.stop? 0 part = some part.length
  fits : part.length ≤ p.limit limits

/-- The front of a part, within its limit: there is no end yet. -/
structure IsFront (p : Delimited) (limits : Limits) (bytes : Bytes) : Prop where
  ends : p.stop? 0 bytes = none
  fits : bytes.length ≤ p.limit limits

/-- A part that is longer than its limit, up to its end or as far as it is there. -/
def IsTooLong (p : Delimited) (limits : Limits) (bytes : Bytes) : Prop :=
  p.limit limits < (p.stop? 0 bytes).getD bytes.length

/-- Whatever bytes there are, they begin with a part, are the front of one, or are too long. -/
theorem part_cases (p : Delimited) (limits : Limits) (bytes : Bytes) :
    (∃ part rest, bytes = part ++ rest ∧ p.IsPart limits part) ∨ p.IsFront limits bytes ∨
      p.IsTooLong limits bytes := by
  by_cases hlong : p.limit limits < (p.stop? 0 bytes).getD bytes.length
  · exact .inr (.inr hlong)
  · cases hstop : p.stop? 0 bytes with
    | none =>
      rw [hstop] at hlong
      exact .inr (.inl ⟨hstop, Nat.le_of_not_lt hlong⟩)
    | some length =>
      rw [hstop] at hlong
      have hle : length ≤ bytes.length := p.settles.within hstop
      have htake : (bytes.take length).length = length := List.length_take_of_le hle
      refine .inl ⟨bytes.take length, bytes.drop length, (List.take_append_drop _ _).symm, ?_, ?_⟩
      · rw [htake]
        exact p.settles.take hstop
      · rw [htake]
        exact Nat.le_of_not_lt hlong

variable {p : Delimited} {part bytes : Bytes}

/-- A complete part in front of other bytes is used. -/
theorem IsPart.transcript_append (h : p.IsPart limits part) (rest : Bytes) :
    transcript limits ending { stage := p.stage 0, buffer := part ++ rest }
      = (p.take (part ++ rest) part.length).1.told
          (transcript limits ending (p.take (part ++ rest) part.length).2) := by
  rw [p.transcript_eq, p.settles.stays rest h.ends]
  exact if_neg (Nat.not_lt.2 h.fits)

/-- At the front of a part the end of the stream is told. -/
theorem IsFront.transcript_eq (h : p.IsFront limits bytes) :
    transcript limits ending { stage := p.stage 0, buffer := bytes }
      = ending.calls (p.stage (bytes.length - p.overlap)).phase := by
  rw [p.transcript_eq, h.ends]
  exact if_neg (Nat.not_lt.2 h.fits)

/-- Of a part that is too long the defect is told. -/
theorem IsTooLong.transcript_eq (h : p.IsTooLong limits bytes) :
    transcript limits ending { stage := p.stage 0, buffer := bytes }
      = [.error (.malformed p.defect)] := by
  unfold IsTooLong at h
  rw [p.transcript_eq]
  cases hstop : p.stop? 0 bytes with
  | none =>
    rw [hstop] at h
    exact if_pos h
  | some length =>
    rw [hstop] at h
    exact if_pos h

end Delimited

/-! ### The head of an answer -/

section
variable {line block : Bytes}

/-- The status line is taken from the front, and decides what follows. -/
theorem transcript_statusLine (h : Delimited.statusLine.IsPart limits line) (rest : Bytes) :
    transcript limits ending { buffer := line ++ rest }
      = if (StatusLine.parse line).isOk = false then
          [.error (.invalidStatus (StatusLine.parse line))]
        else if (StatusLine.parse line).skipsHeaders then
          Notice.withData rest (ending.calls .body)
        else transcript limits ending { stage := .headers 0, buffer := rest } := by
  refine (h.transcript_append rest).trans ?_
  show (takeStatus (line ++ rest) line.length).1.told
    (transcript limits ending (takeStatus (line ++ rest) line.length).2) = _
  simp only [takeStatus, List.take_left, List.drop_left]
  cases (StatusLine.parse line).isOk with
  | false => rfl
  | true =>
    by_cases hskips : (StatusLine.parse line).skipsHeaders = true
    · simp only [hskips]
      exact transcript_plain_eq rest
    · simp only [hskips]
      rfl

/-- The header block is taken from the front, and decides the framing of the body. -/
theorem transcript_headerBlock (h : Delimited.headerBlock.IsPart limits block) (body : Bytes) :
    transcript limits ending { stage := .headers 0, buffer := block ++ body }
      = Notice.onto (.headers (HeaderMap.empty.insertBlock block).1)
          (transcript limits ending
            { stage := bodyStage (HeaderMap.empty.insertBlock block).1, buffer := body }) := by
  refine (h.transcript_append body).trans ?_
  show (takeHeaders (block ++ body) block.length).1.told
    (transcript limits ending (takeHeaders (block ++ body) block.length).2) = _
  simp only [takeHeaders, List.take_left, List.drop_left]
  rfl

end

end Decoder

end NtripClient
