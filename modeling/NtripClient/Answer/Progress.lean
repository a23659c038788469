import NtripClient.Answer.Decoder

/-!
# `NtripClient.Answer.Progress`: a decoder gets on

A decoder reports one thing at a time. `uses_advance` says that it cannot go on
reporting without more bytes: each report uses up bytes that are there, unless it is
the last one or asks for more of them.
-/

set_option autoImplicit false

namespace NtripClient

namespace Decoder

/-- A report made from the bytes `before` leaves fewer of them; the last report and one that
asks for more leave no more of them. -/
def Uses (before : Bytes) (report : Signal × Decoder) : Prop :=
  match report.1 with
  | .more => report.2.buffer.length ≤ before.length
  | .finished => report.2.buffer.length ≤ before.length
  | .failed _ => report.2.buffer.length ≤ before.length
  | _ => report.2.buffer.length < before.length

/-- A part that was found ends where the search found its end. -/
theorem eq_some_of_ofSearch {stop? : Option Nat} {size limit overlap length : Nat}
    (h : Scan.ofSearch stop? size limit overlap = .found length) : stop? = some length := by
  unfold Scan.ofSearch at h
  split at h
  · cases h
  · split at h
    · cases h; rfl
    · cases h

/-- Dropping bytes that are there leaves fewer. -/
theorem length_drop_lt {bytes : Bytes} {n : Nat} (hne : bytes ≠ []) (hn : 0 < n) :
    (bytes.drop n).length < bytes.length := by
  have := List.length_pos_iff.2 hne
  rw [List.length_drop]
  omega

/-- A status line is used up. -/
theorem uses_takeStatus {buffer : Bytes} {length : Nat} (hne : buffer ≠ []) (hpos : 0 < length) :
    Uses buffer (takeStatus buffer length) := by
  have := length_drop_lt hne hpos
  unfold takeStatus
  simp only
  split
  · exact Nat.le_of_lt this
  · split <;> exact this

/-- A chunk size line is used up, unless it ends the connection. -/
theorem uses_takeChunkSize {buffer : Bytes} {length : Nat} (hne : buffer ≠ []) :
    Uses buffer (takeChunkSize buffer length) := by
  unfold takeChunkSize
  split
  · exact Nat.le_refl _
  · rename_i size hsize
    have := length_drop_lt hne (ChunkSize.consumed_pos hsize)
    simp only
    split
    · exact Nat.le_of_lt this
    · exact this

/-- Data of a chunk is used up, if there is any. -/
theorem uses_takeChunkData (buffer : Bytes) {missing : Nat} (hpos : 0 < missing) :
    Uses buffer (takeChunkData buffer missing) := by
  unfold takeChunkData
  split
  · exact Nat.le_refl _
  · rename_i hne
    exact length_drop_lt (by simpa using hne) hpos

/-- The bytes between two chunks are used up, if they are there. -/
theorem uses_takeChunkEnd (buffer : Bytes) : Uses buffer (takeChunkEnd buffer) := by
  unfold takeChunkEnd
  split
  · exact Nat.le_refl _
  · rename_i hlen
    show (buffer.drop ChunkSize.trailer).length < buffer.length
    rw [List.length_drop]
    simp only [ChunkSize.trailer] at hlen ⊢
    omega

/-- Every report uses up bytes, unless it is the last one or asks for more of them. -/
theorem uses_advance (limits : Limits) (decoder : Decoder) :
    Uses decoder.buffer (decoder.advance limits) := by
  obtain ⟨stage, buffer⟩ := decoder
  cases stage with
  | status searched =>
    simp only [advance]
    split
    · exact Nat.le_refl _
    · exact Nat.le_refl _
    · -- A line has been found, and it has at least the byte that ends it.
      rename_i length hscan
      obtain ⟨hne, hpos⟩ := Bytes.ne_nil_of_lineEnd? (eq_some_of_ofSearch hscan)
      exact uses_takeStatus hne hpos
  | headers searched =>
    simp only [advance]
    split
    · exact Nat.le_refl _
    · exact Nat.le_refl _
    · rename_i length hscan
      obtain ⟨hne, hpos⟩ := Bytes.ne_nil_of_blockEnd? (eq_some_of_ofSearch hscan)
      exact length_drop_lt hne hpos
  | plain =>
    simp only [advance]
    split
    · exact Nat.le_refl _
    · rename_i hne
      exact List.length_pos_iff.2 (by simpa using hne)
  | chunkSize searched =>
    simp only [advance]
    split
    · exact Nat.le_refl _
    · exact Nat.le_refl _
    · rename_i length hscan
      exact uses_takeChunkSize (Bytes.ne_nil_of_lineEnd? (eq_some_of_ofSearch hscan)).1
  | chunkData missing pos => exact uses_takeChunkData buffer pos
  | chunkEnd => exact uses_takeChunkEnd buffer

end Decoder

end NtripClient
