import NtripClient.Chunk.Size
import NtripClient.Proofs.Search
import NtripClient.Proofs.Trim

/-!
# `NtripClient.Proofs.Chunk.Length`: the part of a chunk size line that is its length

`ChunkSize.lengthPart` takes a line apart from both ends. `IsLengthAt` says without a search what is
left: the line is blanks, the length, blanks, an extension and a carriage return, each of which may
be missing. There is exactly one such part, and it is the one that is read (`isLength_iff`). A line
ends at its first line feed, and nothing behind it matters (`parse_line`).
-/

set_option autoImplicit false

namespace NtripClient.ChunkSize

/-- Where the length stands in a line without its line feed: behind blanks, and in front of
blanks, an extension and a carriage return. -/
structure IsLengthAt (line before size after extension ending : Bytes) : Prop where
  split : line = before ++ size ++ after ++ extension ++ ending
  /-- At most one carriage return is taken off, and only the last byte. -/
  ending : ending = [Bytes.cr] ∨ ending = [] ∧ line.getLast? ≠ some Bytes.cr
  /-- An extension starts at the first semicolon. -/
  extension : extension = [] ∨ ∃ text, extension = semicolon :: text
  inline : semicolon ∉ before ++ size ++ after
  before : ∀ b ∈ before, isAsciiBlank b = true
  after : ∀ b ∈ after, isAsciiBlank b = true
  /-- All blanks around the length are taken off. -/
  front : ∀ b ∈ size.head?, isAsciiBlank b = false
  back : ∀ b ∈ size.getLast?, isAsciiBlank b = false

/-- The part of a line that holds its length, which may be empty. -/
def IsLength (line size : Bytes) : Prop :=
  ∃ before after extension ending, IsLengthAt line before size after extension ending

/-- A line is what is left without a trailing carriage return, and the one that was there. -/
theorem stripLast_eq_iff {line content : Bytes} {b : UInt8} :
    Bytes.stripLast b line = content ↔
      ∃ ending, line = content ++ ending ∧
        (ending = [b] ∨ ending = [] ∧ line.getLast? ≠ some b) := by
  unfold Bytes.stripLast
  constructor
  · intro h
    split at h
    · rename_i hlast
      rw [← h]
      exact ⟨[b], (List.dropLast_append_getLast? b hlast).symm, .inl rfl⟩
    · rename_i hlast
      rw [← h]
      exact ⟨[], (List.append_nil line).symm, .inr ⟨rfl, hlast⟩⟩
  · rintro ⟨ending, rfl, rfl | ⟨rfl, hlast⟩⟩
    · simp
    · rw [if_neg hlast, List.append_nil]

/-- Every line has one part that holds its length, and it is the one that is read. -/
theorem isLength_iff {line size : Bytes} : IsLength line size ↔ lengthPart line = size := by
  constructor
  · -- The extension starts with a semicolon, so the cut at the first one drops exactly it.
    rintro ⟨before, after, extension, ending, h⟩
    have hcontent : Bytes.stripLast Bytes.cr line = before ++ size ++ after ++ extension :=
      stripLast_eq_iff.2 ⟨ending, h.split, h.ending⟩
    have hextension : extension.takeWhile (· != semicolon) = [] := by
      rcases h.extension with rfl | ⟨text, rfl⟩
      · rfl
      · exact List.takeWhile_cons_of_neg (by simp)
    have htake : (Bytes.stripLast Bytes.cr line).takeWhile (· != semicolon)
        = before ++ size ++ after := by
      rw [hcontent, List.takeWhile_append_of_pos (bne_of_not_mem h.inline), hextension,
        List.append_nil]
    simp only [lengthPart, htake]
    exact dropTrailing_dropWhile_eq_iff.2
      ⟨before, after, rfl, h.before, h.after, h.front, h.back⟩
  · intro h
    obtain ⟨ending, hending⟩ := stripLast_eq_iff.1 (rfl : Bytes.stripLast Bytes.cr line = _)
    obtain ⟨before, after, hinner, hbefore, hafter, hfront, hback⟩ :=
      dropTrailing_dropWhile_eq_iff.1 h
    refine ⟨before, after, (Bytes.stripLast Bytes.cr line).dropWhile (· != semicolon), ending,
      ?_, hending.2, ?_, ?_, hbefore, hafter, hfront, hback⟩
    · rw [← hinner, List.takeWhile_append_dropWhile]
      exact hending.1
    · -- What is left from the first semicolon on starts with it.
      cases hrest : (Bytes.stripLast Bytes.cr line).dropWhile (· != semicolon) with
      | nil => exact .inl rfl
      | cons b text =>
        have hhead : b ∈ ((Bytes.stripLast Bytes.cr line).dropWhile (· != semicolon)).head? := by
          rw [hrest]
          rfl
        have hb := of_mem_head?_dropWhile hhead
        exact .inr ⟨text, by rw [bne_eq_false_iff_eq.1 hb]⟩
    · rw [← hinner]
      intro hmem
      have hne := List.mem_takeWhile_imp hmem
      simp at hne

/-! ### Lines -/

/-- Without a line feed there is no line yet. -/
theorem parse_of_not_mem {bytes : Bytes} (h : Bytes.lf ∉ bytes) :
    parse bytes = .error .incomplete := by
  have hnone : Bytes.find? [Bytes.lf] bytes = none := by
    refine (Bytes.find?_eq_none_iff (List.cons_ne_nil _ _)).2 fun j hat => h ?_
    exact List.mem_of_mem_drop (hat.subset List.mem_cons_self)
  unfold parse
  rw [hnone]

/-- A line is read up to its line feed, whatever follows. -/
theorem parse_line {line : Bytes} (h : Bytes.lf ∉ line) (rest : Bytes) :
    parse (line ++ Bytes.lf :: rest)
      = if lengthPart line = [] then .error .invalid
        else (readDigits 0 (lengthPart line)).map fun length =>
          { consumed := line.length + 1, length } := by
  have hstop : Bytes.find? [Bytes.lf] (line ++ Bytes.lf :: rest) = some line.length := by
    rw [show line ++ Bytes.lf :: rest = line ++ [Bytes.lf] ++ rest by simp]
    exact Bytes.find?_append_of_not_mem h rest
  unfold parse
  rw [hstop]
  simp only [List.take_left, List.isEmpty_iff]

end NtripClient.ChunkSize
