import NtripClient.Proofs.Answer.Transcript
import NtripClient.Proofs.Chunk.Coding

/-!
# `NtripClient.Proofs.Answer.Chunked`: what a chunked body tells

`transcript_body` says that a decoder tells of a chunked body its data and the end, and
nothing of the bytes behind it. `transcript_cut` says what it tells if the server closes the
stream somewhere in the body: the data that was sent until then, and the end.

Both are inductions over the chunks. What carries them is that a line is found where it was
written to end, whatever bytes the data holds: the decoder looks for a line end only where a
size line begins.
-/

set_option autoImplicit false

namespace NtripClient

/-- Puts data in front of calls, if there is any. -/
def Notice.withData (data : Bytes) (later : List Notice) : List Notice :=
  if data = [] then later else Notice.onto (.data data) later

/-- Without data there is nothing to join. -/
theorem Notice.withData_nil (later : List Notice) : Notice.withData [] later = later :=
  if_pos rfl

/-- Data in two pieces is joined as a whole. -/
theorem Notice.withData_append (first second : Bytes) (later : List Notice) :
    Notice.withData (first ++ second) later
      = Notice.withData first (Notice.withData second later) := by
  by_cases hfirst : first = []
  · rw [hfirst, withData_nil, List.nil_append]
  · by_cases hsecond : second = []
    · rw [hsecond, withData_nil, List.append_nil]
    · rw [withData, withData, withData, if_neg hfirst, if_neg hsecond, if_neg (by simp [hfirst]),
        onto_onto_data]

namespace Decoder

variable {limits : Limits} {ending : StreamEnd}

/-! ### Whole chunks -/

/-- A size line that is within the limit is found. -/
theorem advance_sizeLine {line : SizeLine} (hlimit : line.bytes.length ≤ limits.line)
    (hfits : line.length < ChunkSize.bound) (rest : Bytes) :
    advance limits { stage := .chunkSize 0, buffer := line.bytes ++ rest }
      = if line.length = 0 then (.finished, { stage := .chunkSize 0, buffer := rest })
        else (.proceed, { stage := chunkStage line.length, buffer := rest }) := by
  have hscan : scanLine limits.line 0 (line.bytes ++ rest) = .found line.bytes.length := by
    rw [scanLine, line.lineEnd?_bytes, Scan.ofSearch, Option.getD_some,
      if_neg (Nat.not_lt.2 hlimit)]
  simp only [advance, hscan, takeChunkSize, List.take_left, line.parse_bytes hfits,
    List.drop_left]

/-- The last line ends the body, whatever follows. -/
theorem transcript_last {line : SizeLine} (hlimit : line.bytes.length ≤ limits.line)
    (hempty : line.length = 0) (further : Bytes) :
    transcript limits ending { stage := .chunkSize 0, buffer := line.bytes ++ further }
      = [.eof] := by
  have hfits : line.length < ChunkSize.bound := by
    rw [hempty]
    decide
  have hadvance := advance_sizeLine hlimit hfits further
  rw [if_pos hempty] at hadvance
  exact transcript_of_ne_more hadvance (by simp)

/-- The line of a chunk leads to its data. -/
theorem transcript_line {chunk : Chunk} (hlimit : chunk.line.bytes.length ≤ limits.line)
    (rest : Bytes) :
    transcript limits ending { stage := .chunkSize 0, buffer := chunk.line.bytes ++ rest }
      = transcript limits ending { stage := chunkStage chunk.data.length, buffer := rest } := by
  have hpos := List.length_pos_iff.2 chunk.data_ne_nil
  have hadvance := advance_sizeLine hlimit (by rw [chunk.announced]; exact chunk.fits) rest
  rw [if_neg (by rw [chunk.announced]; omega), chunk.announced] at hadvance
  exact transcript_of_ne_more hadvance (by simp)

/-- The data of a chunk leads to the bytes behind it. -/
theorem transcript_data {data : Bytes} (hne : data ≠ []) (rest : Bytes) :
    transcript limits ending { stage := chunkStage data.length, buffer := data ++ rest }
      = Notice.onto (.data data)
          (transcript limits ending { stage := .chunkEnd, buffer := rest }) := by
  have hstage : chunkStage (data.length - data.length) = .chunkEnd := by
    rw [Nat.sub_self]
    rfl
  rw [transcript_chunkStage_append limits ending rest hne (List.length_pos_iff.2 hne), hstage,
    List.take_length, List.drop_length, List.nil_append]

/-- A chunk tells its data. -/
theorem transcript_chunk {chunk : Chunk} (hlimit : chunk.line.bytes.length ≤ limits.line)
    (rest : Bytes) :
    transcript limits ending { stage := .chunkSize 0, buffer := chunk.bytes ++ rest }
      = Notice.withData chunk.data
          (transcript limits ending { stage := .chunkSize 0, buffer := rest }) := by
  have hend : transcript limits ending { stage := .chunkEnd, buffer := Bytes.crlf ++ rest }
      = transcript limits ending { stage := .chunkSize 0, buffer := rest } :=
    transcript_chunkEnd limits ending (by simp [ChunkSize.trailer, Bytes.crlf])
  rw [Chunk.bytes, List.append_assoc, List.append_assoc, transcript_line hlimit,
    transcript_data chunk.data_ne_nil, hend, Notice.withData, if_neg chunk.data_ne_nil]

/-- **A chunked body tells its data and its end**, and nothing of what follows. -/
theorem transcript_body (body : ChunkedBody) (hlimit : body.LinesWithin limits.line)
    (further : Bytes) :
    transcript limits ending { stage := .chunkSize 0, buffer := body.bytes ++ further }
      = Notice.withData body.data [.eof] := by
  obtain ⟨chunks, last, hempty⟩ := body
  obtain ⟨hchunks, hlast⟩ : (∀ chunk ∈ chunks, chunk.line.bytes.length ≤ limits.line) ∧
    last.bytes.length ≤ limits.line := hlimit
  show transcript limits ending
      { stage := .chunkSize 0, buffer := chunks.flatMap Chunk.bytes ++ last.bytes ++ further }
    = Notice.withData (chunks.flatMap Chunk.data) [.eof]
  -- Over the chunks: the first one tells its data and leads to a body of the others.
  induction chunks with
  | nil => exact transcript_last hlast hempty further
  | cons chunk chunks ih =>
    have hrest := ih fun other hmem => hchunks other (List.mem_cons_of_mem _ hmem)
    rw [List.flatMap_cons, List.flatMap_cons, List.append_assoc, List.append_assoc,
      ← List.append_assoc (chunks.flatMap Chunk.bytes),
      transcript_chunk (hchunks chunk List.mem_cons_self), hrest, Notice.withData_append]

/-! ### Bodies that are cut short -/

/-- A line that is cut short tells nothing, and the stream ends there. -/
theorem transcript_cut_line {line : SizeLine} (hlimit : line.bytes.length ≤ limits.line)
    {cut rest : Bytes} (hcut : cut <+: line.bytes ++ rest)
    (hshort : cut.length < line.bytes.length) :
    transcript limits ending { stage := .chunkSize 0, buffer := cut } = ending.calls .body := by
  have hnone : Bytes.lineEnd? 0 cut = none := by
    cases hstop : Bytes.lineEnd? 0 cut with
    | none => rfl
    | some stop =>
      -- An end that is found stays, and the end of the line is not there yet.
      obtain ⟨more, hmore⟩ := hcut
      have hline := Bytes.settles_lineEnd?.stays more hstop
      rw [hmore, line.lineEnd?_bytes] at hline
      have hle := Bytes.settles_lineEnd?.within hstop
      cases hline
      omega
  have hscan : scanLine limits.line 0 cut = .unfinished (cut.length - 1) := by
    rw [scanLine, hnone, Scan.ofSearch, Option.getD_none, if_neg (by omega)]
  have hadvance : advance limits { stage := .chunkSize 0, buffer := cut }
      = (.more, { stage := .chunkSize (cut.length - 1), buffer := cut }) := by
    simp only [advance, hscan]
  exact transcript_of_more hadvance

/-- Where data of a chunk is missing, the stream ends. -/
theorem transcript_chunkStage_nil {missing : Nat} (hpos : 0 < missing) :
    transcript limits ending { stage := chunkStage missing, buffer := [] }
      = ending.calls .body := by
  rw [transcript_of_more (advance_chunkStage_nil limits hpos), phase_chunkStage]

/-- Data that is cut short is told. -/
theorem transcript_cut_data {cut : Bytes} {missing : Nat} (hshort : cut.length < missing) :
    transcript limits ending { stage := chunkStage missing, buffer := cut }
      = Notice.withData cut (ending.calls .body) := by
  by_cases hempty : cut = []
  · subst hempty
    rw [Notice.withData_nil]
    exact transcript_chunkStage_nil hshort
  · have hpos : 0 < missing := Nat.lt_of_le_of_lt (Nat.zero_le _) hshort
    rw [transcript_chunkStage limits ending hempty hpos, Notice.withData, if_neg hempty,
      List.take_of_length_le (Nat.le_of_lt hshort), List.drop_of_length_le (Nat.le_of_lt hshort),
      transcript_chunkStage_nil (Nat.sub_pos_of_lt hshort)]

/-- Between two chunks the stream may end, too. -/
theorem transcript_cut_chunkEnd {cut : Bytes} (hshort : cut.length < ChunkSize.trailer) :
    transcript limits ending { stage := .chunkEnd, buffer := cut } = ending.calls .body :=
  transcript_of_more (advance_chunkEnd_short limits hshort)

/-- A first chunk that is cut short tells the data that is there. -/
theorem transcript_cut_chunk {chunk : Chunk} (hlimit : chunk.line.bytes.length ≤ limits.line)
    {cut rest : Bytes} (hcut : cut <+: chunk.bytes ++ rest)
    (hshort : cut.length < chunk.bytes.length) :
    transcript limits ending { stage := .chunkSize 0, buffer := cut }
      = Notice.withData (chunk.data.take (cut.length - chunk.line.bytes.length))
          (ending.calls .body) := by
  have hbytes : chunk.bytes ++ rest = chunk.line.bytes ++ (chunk.data ++ (Bytes.crlf ++ rest)) := by
    simp only [Chunk.bytes, List.append_assoc]
  rw [hbytes] at hcut
  by_cases hline : cut.length < chunk.line.bytes.length
  · -- The cut lies in the size line, before any data.
    rw [Nat.sub_eq_zero_of_le (Nat.le_of_lt hline), List.take_zero, Notice.withData_nil]
    exact transcript_cut_line hlimit hcut hline
  · -- The line is complete, and the cut lies in what follows it.
    obtain ⟨inner, rfl⟩ : chunk.line.bytes <+: cut :=
      List.prefix_of_prefix_length_le (List.prefix_append _ _) hcut (Nat.le_of_not_lt hline)
    have hinner : inner <+: chunk.data ++ (Bytes.crlf ++ rest) :=
      (List.prefix_append_right_inj _).1 hcut
    rw [transcript_line hlimit, List.length_append, Nat.add_sub_cancel_left]
    by_cases hdata : inner.length < chunk.data.length
    · -- It lies in the data.
      have htake : chunk.data.take inner.length = inner :=
        (List.prefix_iff_eq_take.1 (List.prefix_of_prefix_length_le hinner
          (List.prefix_append _ _) (Nat.le_of_lt hdata))).symm
      rw [htake]
      exact transcript_cut_data hdata
    · -- It lies in the line end behind the data.
      obtain ⟨gap, rfl⟩ : chunk.data <+: inner :=
        List.prefix_of_prefix_length_le (List.prefix_append _ _) hinner (Nat.le_of_not_lt hdata)
      have hgap : gap.length < ChunkSize.trailer := by
        simp only [Chunk.bytes, List.length_append, Bytes.crlf, List.length_cons,
          List.length_nil] at hshort
        simp only [ChunkSize.trailer]
        omega
      rw [transcript_data chunk.data_ne_nil, transcript_cut_chunkEnd hgap, Notice.withData,
        List.take_of_length_le (by simp), if_neg chunk.data_ne_nil]

/-- **A chunked body that is cut short tells the data that is there**, and then what the end
of the stream tells in a body. -/
theorem transcript_cut (body : ChunkedBody) (hlimit : body.LinesWithin limits.line)
    {cut : Bytes} (hcut : cut <+: body.bytes) (hne : cut ≠ body.bytes) :
    transcript limits ending { stage := .chunkSize 0, buffer := cut }
      = Notice.withData (body.dataWithin cut.length) (ending.calls .body) := by
  obtain ⟨chunks, last, hempty⟩ := body
  obtain ⟨hchunks, hlast⟩ : (∀ chunk ∈ chunks, chunk.line.bytes.length ≤ limits.line) ∧
    last.bytes.length ≤ limits.line := hlimit
  change cut <+: chunks.flatMap Chunk.bytes ++ last.bytes at hcut
  change cut ≠ chunks.flatMap Chunk.bytes ++ last.bytes at hne
  change _ = Notice.withData (ChunkedBody.dataAmong chunks cut.length) _
  -- Over the chunks again, and the cut moves to the front with them.
  induction chunks generalizing cut with
  | nil =>
    rw [ChunkedBody.dataAmong, Notice.withData_nil]
    have hshort : cut.length < last.bytes.length := by
      refine Nat.lt_of_le_of_ne hcut.length_le fun hlen => hne ?_
      exact hcut.eq_of_length hlen
    have hcut' : cut <+: last.bytes ++ [] := by rwa [List.append_nil]
    exact transcript_cut_line hlast hcut' hshort
  | cons chunk chunks ih =>
    have hchunk := hchunks chunk List.mem_cons_self
    rw [List.flatMap_cons, List.append_assoc] at hcut hne
    rw [ChunkedBody.dataAmong, Notice.withData_append]
    by_cases hshort : cut.length < chunk.bytes.length
    · -- The first chunk is cut, and nothing of the others is there.
      rw [Nat.sub_eq_zero_of_le (Nat.le_of_lt hshort), ChunkedBody.dataAmong_zero,
        Notice.withData_nil]
      exact transcript_cut_chunk hchunk hcut hshort
    · -- The first chunk is complete, and the cut lies in the others.
      obtain ⟨inner, rfl⟩ : chunk.bytes <+: cut :=
        List.prefix_of_prefix_length_le (List.prefix_append _ _) hcut (Nat.le_of_not_lt hshort)
      have hinner := ih (fun other hmem => hchunks other (List.mem_cons_of_mem _ hmem))
        ((List.prefix_append_right_inj _).1 hcut) fun heq => hne (by rw [heq])
      have htake : chunk.data.take ((chunk.bytes ++ inner).length - chunk.line.bytes.length)
          = chunk.data := by
        refine List.take_of_length_le ?_
        simp only [Chunk.bytes, List.length_append]
        omega
      rw [transcript_chunk hchunk, hinner, htake, List.length_append, Nat.add_sub_cancel_left]

end Decoder

end NtripClient
