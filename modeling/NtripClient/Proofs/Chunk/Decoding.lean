import NtripClient.Answer.Progress

/-!
# `NtripClient.Proofs.Chunk.Decoding`: a chunked body read at once

`Dechunked.ofBytes` reads the chunks of a byte string that is there as a whole. It looks for
the end of the first line, reads the size from it, takes the data, passes over the bytes
between two chunks, and goes on behind them. It knows nothing of stages, buffers or searches
that are resumed: it is what a reader of pieces has to agree with.

A size line ends with CRLF, but the size is read up to the first line feed. So the data of a
chunk starts where the size was read to end, which may be before the end of the line.

Lengths fit in 64 bits when they are read, and what is missing of a chunk only falls
(`inRange_advance`).
-/

set_option autoImplicit false

namespace NtripClient

/-- Why the reading of a chunked body stops. -/
inductive BodyStop where
  /-- The last size line was read. -/
  | complete
  /-- The bytes are no chunks. -/
  | malformed (defect : MalformedAnswer)
  /-- The bytes are used up. -/
  | exhausted
deriving DecidableEq, Repr

/-- A chunked body, read. -/
structure Dechunked where
  /-- The data of its chunks. -/
  data : Bytes
  /-- Why there is no more. -/
  stop : BodyStop
deriving DecidableEq, Repr

namespace Dechunked

/-- Reads the chunks of a byte string. No line may be longer than `limit`. -/
def ofBytes (limit : Nat) (bytes : Bytes) : Dechunked :=
  match _hstop : Bytes.lineEnd? 0 bytes with
  | none =>
    { data := []
      stop := if limit < bytes.length then .malformed .lineTooLong else .exhausted }
  | some stop =>
    if limit < stop then { data := [], stop := .malformed .lineTooLong }
    else
      match _hsize : ChunkSize.parse (bytes.take stop) with
      | .error _ => { data := [], stop := .malformed .chunkSizeLine }
      | .ok size =>
        let rest := bytes.drop size.consumed
        if size.length = 0 then { data := [], stop := .complete }
        else if rest.length < size.length + ChunkSize.trailer then
          { data := rest.take size.length, stop := .exhausted }
        else
          let later := ofBytes limit (bytes.drop (size.consumed + size.length + ChunkSize.trailer))
          { data := rest.take size.length ++ later.data, stop := later.stop }
termination_by bytes.length
decreasing_by
  -- At least the line feed of the size line is used up.
  have hpos := ChunkSize.consumed_pos _hsize
  exact Decoder.length_drop_lt (Bytes.ne_nil_of_lineEnd? _hstop).1 (by omega)

end Dechunked

/-! ### The range of lengths -/

namespace ChunkSize

/-- A number that is read from digits is in range. -/
theorem lt_of_readDigits {value number : Nat} {digits : Bytes} (h : value < bound)
    (hread : readDigits value digits = .ok number) : number < bound := by
  -- Over the digits: each one is read only if the value stays in range.
  induction digits generalizing value with
  | nil =>
    cases hread
    exact h
  | cons b rest ih =>
    rw [readDigits] at hread
    cases hdigit : digit? b with
    | none =>
      rw [hdigit] at hread
      cases hread
    | some d =>
      simp only [hdigit] at hread
      split at hread
      · exact ih ‹_› hread
      · cases hread

/-- A length that was read fits in 64 bits. -/
theorem length_lt_of_parse {bytes : Bytes} {size : ChunkSize} (h : parse bytes = .ok size) :
    size.length < bound := by
  unfold parse at h
  split at h
  · cases h
  · rename_i stop hstop
    simp only at h
    split at h
    · cases h
    · cases hdigits : readDigits 0 (lengthPart (bytes.take stop)) with
      | error e =>
        rw [hdigits] at h
        cases h
      | ok length =>
        rw [hdigits] at h
        cases h
        exact lt_of_readDigits (by decide) hdigits

end ChunkSize

namespace Decoder

/-- What is missing of a chunk fits in 64 bits. -/
def InRange (d : Decoder) : Prop :=
  ∀ missing pos, d.stage = .chunkData missing pos → missing < ChunkSize.bound

/-- What is missing of a chunk is in range if the length of the chunk was. -/
theorem inRange_chunkStage {missing : Nat} (h : missing < ChunkSize.bound) (buffer : Bytes) :
    InRange { stage := chunkStage missing, buffer } := by
  intro missing' pos hstage
  unfold chunkStage at hstage
  split at hstage
  · cases hstage
    exact h
  · cases hstage

/-- Only a chunk has anything missing. -/
theorem inRange_of_ne {d : Decoder} (h : ∀ missing pos, d.stage ≠ .chunkData missing pos) :
    d.InRange :=
  fun missing pos hstage => absurd hstage (h missing pos)

/-- Behind a status line no chunk has begun. -/
theorem inRange_takeStatus (buffer : Bytes) (length : Nat) :
    (takeStatus buffer length).2.InRange := by
  refine inRange_of_ne ?_
  intro missing pos
  simp only [takeStatus]
  split
  · simp
  · split <;> simp

/-- Behind the headers no chunk has begun. -/
theorem inRange_takeHeaders (buffer : Bytes) (length : Nat) :
    (takeHeaders buffer length).2.InRange := by
  refine inRange_of_ne ?_
  intro missing pos
  simp only [takeHeaders, bodyStage]
  split <;> simp

/-- A chunk begins with a length that is in range. -/
theorem inRange_takeChunkSize (buffer : Bytes) (length : Nat) :
    (takeChunkSize buffer length).2.InRange := by
  simp only [takeChunkSize]
  split
  · exact inRange_of_ne (by simp)
  · split
    · exact inRange_of_ne (by simp)
    · exact inRange_chunkStage (ChunkSize.length_lt_of_parse ‹_›) _

/-- A report keeps what is missing of a chunk in range. -/
theorem inRange_advance (limits : Limits) {d : Decoder} (h : d.InRange) :
    (d.advance limits).2.InRange := by
  obtain ⟨stage, buffer⟩ := d
  cases stage with
  | status searched =>
    simp only [advance]
    split
    · exact h
    · exact inRange_of_ne (by simp)
    · exact inRange_takeStatus _ _
  | headers searched =>
    simp only [advance]
    split
    · exact h
    · exact inRange_of_ne (by simp)
    · exact inRange_takeHeaders _ _
  | chunkSize searched =>
    simp only [advance]
    split
    · exact h
    · exact inRange_of_ne (by simp)
    · exact inRange_takeChunkSize _ _
  | plain =>
    simp only [advance]
    split <;> exact inRange_of_ne (by simp)
  | chunkData missing pos =>
    -- Data that is there is counted down.
    have hmissing : missing < ChunkSize.bound := h missing pos rfl
    simp only [advance, takeChunkData]
    split
    · exact inRange_chunkStage hmissing _
    · exact inRange_chunkStage (Nat.lt_of_le_of_lt (Nat.sub_le _ _) hmissing) _
  | chunkEnd =>
    simp only [advance, takeChunkEnd]
    split <;> exact inRange_of_ne (by simp)

end Decoder

end NtripClient
