import NtripClient.Proofs.Header.Line
import NtripClient.Proofs.Text.Utf8

/-!
# `NtripClient.Proofs.Header.RoundTrip`: headers that are written are read back

`HeaderMap.block` writes headers as lines. `Header.IsTidy` says of a header what its line must not
confuse: there is no colon in the key, no line feed at all, and nothing around the value that is
taken for a blank. Keys and values may be empty, keys may be repeated, and values may have any other
bytes.

Three readers have to agree on such a block. The search for its end finds nothing inside of it
(`Bytes.blockEnd?_block`), the lines are cut where they were joined (`HeaderMap.contents_lines`),
and each line gives its header (`Header.parse?_content`). So the block gives the headers that were
written, in their order (`HeaderMap.insertBlock_block`).
-/

set_option autoImplicit false

namespace NtripClient

/-! ### One line -/

namespace Header

/-- A header whose line says what it is. -/
structure IsTidy (header : Header) : Prop where
  /-- The key ends at the first colon, and the line at the first line feed. -/
  key : ':' ∉ header.key.toList ∧ '\n' ∉ header.key.toList
  value : Bytes.lf ∉ header.value
  /-- No blank in front of the value belongs to it. -/
  front : ∀ b, header.value.head? = some b → Bytes.isSpaceOrTab b = false
  /-- Neither does one behind it, nor a carriage return. -/
  back : ∀ b, header.value.getLast? = some b → Bytes.isSpaceOrTab b = false ∧ b ≠ Bytes.cr

/-- The line of a header without its line feed. -/
def content (header : Header) : Bytes :=
  Utf8.encode header.key ++ colon :: 32 :: header.value ++ [Bytes.cr]

variable {header : Header}

/-- The line of a header ends with a line feed. -/
theorem line_eq (header : Header) : header.line = header.content ++ [Bytes.lf] := by
  simp [line, content, Bytes.crlf]

/-- The bytes of a tidy key hold no colon. -/
theorem IsTidy.colon_not_mem (h : header.IsTidy) : colon ∉ Utf8.encode header.key :=
  fun hmem => h.key.1 ((Utf8.mem_encode_iff (by decide : ':'.toNat < 128)).1 hmem)

/-- The line of a tidy header holds no line feed but the one at its end. -/
theorem IsTidy.lf_not_mem (h : header.IsTidy) : Bytes.lf ∉ header.content := by
  have hkey : Bytes.lf ∉ Utf8.encode header.key :=
    fun hmem => h.key.2 ((Utf8.mem_encode_iff (by decide : '\n'.toNat < 128)).1 hmem)
  simp only [content, List.mem_append, List.mem_cons, List.not_mem_nil, or_false, not_or]
  exact ⟨⟨hkey, by decide, by decide, h.value⟩, by decide⟩

/-- The carriage return is trimmed, and nothing of the value is. -/
theorem IsTidy.trailingLength (h : header.IsTidy) :
    trailingLength (header.value ++ [Bytes.cr]) = 1 := by
  have hlast : (header.value.reverse.take 3).takeWhile isTrailing = [] := by
    cases hreverse : header.value.reverse with
    | nil => rfl
    | cons b rest =>
      have hback : header.value.getLast? = some b := by
        rw [← List.head?_reverse, hreverse]
        rfl
      have hmem : b ∈ header.value := List.mem_of_getLast? hback
      have hlf : b ≠ Bytes.lf := by
        rintro rfl
        exact h.value hmem
      rw [List.take_succ_cons, List.takeWhile_cons_of_neg]
      simp [isTrailing, h.back b hback, hlf]
  rw [Header.trailingLength, List.reverse_append]
  show ((Bytes.cr :: header.value.reverse.take 3).takeWhile isTrailing).length = 1
  rw [List.takeWhile_cons_of_pos (by decide), hlast]
  rfl

/-- Trimming takes off what was put around a tidy value, and nothing of the value. -/
theorem IsTidy.trimValue (h : header.IsTidy) :
    trimValue (32 :: header.value ++ [Bytes.cr]) = header.value := by
  have hfront : (32 :: header.value ++ [Bytes.cr]).dropWhile Bytes.isSpaceOrTab
      = header.value ++ [Bytes.cr] := by
    rw [List.cons_append, List.dropWhile_cons_of_pos (by decide)]
    cases hvalue : header.value with
    | nil => rfl
    | cons b rest =>
      rw [List.cons_append, List.dropWhile_cons_of_neg]
      rw [h.front b (by rw [hvalue]; rfl)]
      decide
  rw [Header.trimValue, hfront]
  simp [h.trailingLength]

/-- A line gives the header that was written. -/
theorem parse?_content (h : header.IsTidy) : parse? header.content = some header := by
  have hcontent : header.content
      = Utf8.encode header.key ++ colon :: (32 :: header.value ++ [Bytes.cr]) := by
    simp [content]
  rw [hcontent, parse?_append h.colon_not_mem, h.trimValue, Utf8.decode_encode]

end Header

/-! ### The end of the block -/

namespace Bytes

/-- Where a line ends, it ends with the only line feed that it has. -/
theorem eq_or_lt_of_crlf_prefix_drop {front rest : Bytes} {i : Nat} (hfront : lf ∉ front)
    (h : crlf <+: (front ++ lf :: rest).drop i) : i + 1 = front.length ∨ front.length < i := by
  obtain ⟨later, hlater⟩ := h
  have hfirst : (front ++ lf :: rest)[i]? = some cr := by
    have hzero : ((front ++ lf :: rest).drop i)[0]? = some cr := by
      rw [← hlater]
      rfl
    rwa [List.getElem?_drop] at hzero
  have hsecond : (front ++ lf :: rest)[i + 1]? = some lf := by
    rw [← List.getElem?_drop, ← hlater]
    rfl
  by_contra hnot
  by_cases hlt : i + 1 < front.length
  · rw [List.getElem?_append_left hlt] at hsecond
    exact hfront (List.mem_of_getElem? hsecond)
  · -- The first byte of a line end is not the line feed.
    have hi : i = front.length := by omega
    rw [hi, List.getElem?_append_right (Nat.le_refl _), Nat.sub_self] at hfirst
    cases hfirst

/-- The first header is written first. -/
theorem block_cons (header : Header) (headers : List Header) :
    HeaderMap.block (header :: headers) = header.line ++ HeaderMap.block headers := by
  rw [HeaderMap.block, List.flatMap_cons, List.append_assoc]
  rfl

variable {headers : List Header} {body : Bytes}

/-- A line with a colon is not the end of a block. -/
theorem not_crlf_prefix_line {header : Header} (h : header.IsTidy) (rest : Bytes) :
    ¬ crlf <+: header.line ++ rest := by
  intro hprefix
  rw [header.line_eq, List.append_assoc] at hprefix
  have hpos := eq_or_lt_of_crlf_prefix_drop (i := 0) h.lf_not_mem hprefix
  have hlength : 3 ≤ header.content.length := by
    simp only [Header.content, List.length_append, List.length_cons, List.length_nil]
    omega
  omega

/-- In a block followed by other bytes, two line ends meet at its end and not before. -/
theorem length_block_le {i : Nat} (h : ∀ header ∈ headers, header.IsTidy)
    (hat : crlf ++ crlf <+: (HeaderMap.block headers ++ body).drop i) :
    (HeaderMap.block headers).length ≤ i + 4 := by
  -- Over the lines: the two line ends meet behind the first line, or later.
  induction headers generalizing i with
  | nil => exact Nat.le_add_left 2 (i + 2)
  | cons header headers ih =>
    obtain ⟨hheader, hheaders⟩ := List.forall_mem_cons.1 h
    have hline : header.line.length = header.content.length + 1 := by
      rw [header.line_eq, List.length_append]
      rfl
    rw [block_cons, List.append_assoc] at hat
    rw [block_cons, List.length_append]
    have hfirst : crlf <+: (header.content ++ lf :: (HeaderMap.block headers ++ body)).drop i := by
      rw [header.line_eq, List.append_assoc] at hat
      exact (List.prefix_append crlf crlf).trans hat
    rcases eq_or_lt_of_crlf_prefix_drop hheader.lf_not_mem hfirst with hends | hbehind
    · -- The second line end stands behind the first line.
      obtain ⟨later, hlater⟩ := hat
      have hnext : crlf <+: HeaderMap.block headers ++ body := by
        have hdrop : crlf ++ later
            = (header.line ++ (HeaderMap.block headers ++ body)).drop (i + 2) := by
          rw [← List.drop_drop, ← hlater]
          rfl
        rw [show i + 2 = header.line.length by omega, List.drop_left] at hdrop
        exact ⟨later, hdrop⟩
      cases headers with
      | nil =>
        have htwo : (HeaderMap.block []).length = 2 := rfl
        omega
      | cons second others =>
        have hline := List.forall_mem_cons.1 hheaders
        rw [block_cons, List.append_assoc] at hnext
        exact absurd hnext (not_crlf_prefix_line hline.1 _)
    · rw [List.drop_append, List.drop_of_length_le (by omega), List.nil_append, hline] at hat
      have hle := ih hheaders hat
      omega

/-- The end of a block is found where it was written, whatever follows. -/
theorem blockEnd?_block (h : ∀ header ∈ headers, header.IsTidy) (body : Bytes) :
    blockEnd? 0 (HeaderMap.block headers ++ body) = some (HeaderMap.block headers).length := by
  cases headers with
  | nil =>
    rw [blockEnd?_zero, if_pos]
    · rfl
    · exact List.prefix_append crlf body
  | cons header headers =>
    have hnot : ¬ crlf <+: HeaderMap.block (header :: headers) ++ body := by
      rw [block_cons, List.append_assoc]
      exact not_crlf_prefix_line (List.forall_mem_cons.1 h).1 _
    -- The last line is followed by the blank one.
    have hends : ∃ init, HeaderMap.block (header :: headers) = init ++ (crlf ++ crlf) := by
      obtain ⟨before, last, hlast⟩ : ∃ before last, header :: headers = before ++ [last] :=
        ⟨_, _, (List.dropLast_concat_getLast (List.cons_ne_nil header headers)).symm⟩
      refine ⟨before.flatMap Header.line ++
        (Utf8.encode last.key ++ Header.colon :: 32 :: last.value), ?_⟩
      rw [hlast]
      simp [HeaderMap.block, Header.line]
    obtain ⟨init, hinit⟩ := hends
    have hfound : find? (crlf ++ crlf) (HeaderMap.block (header :: headers) ++ body)
        = some init.length := by
      refine (find?_eq_some_iff crlfcrlf_ne_nil).2 ⟨?_, ?_⟩
      · rw [hinit, List.append_assoc, List.drop_left]
        exact List.prefix_append _ _
      · intro i hi hat
        have hle := length_block_le h hat
        rw [hinit, List.length_append] at hle
        change init.length + 4 ≤ i + 4 at hle
        omega
    rw [blockEnd?_zero, if_neg hnot, hfound, hinit, List.length_append]
    rfl

end Bytes

/-! ### The lines of the block -/

namespace HeaderMap

variable {headers : List Header}

/-- Bytes without a line feed and one line feed behind them are one line. -/
theorem linesInto_of_not_mem {front : Bytes} (current : Bytes) (h : Bytes.lf ∉ front) :
    Bytes.linesInto [] current (front ++ [Bytes.lf])
      = [current.reverse ++ front ++ [Bytes.lf]] := by
  induction front generalizing current with
  | nil => simp [Bytes.linesInto]
  | cons b front ih =>
    obtain ⟨hb, hfront⟩ := not_or.1 (mt List.mem_cons.2 h)
    rw [List.cons_append, Bytes.linesInto, if_neg (Ne.symm hb), ih _ hfront]
    simp

/-- A line that was written is cut off as one line. -/
theorem contents_line {header : Header} (h : header.IsTidy) :
    contents header.line = [header.content] := by
  rw [contents, Bytes.lines, header.line_eq, linesInto_of_not_mem [] h.lf_not_mem]
  simp [Bytes.stripLast]

/-- Lines are cut where they were joined. -/
theorem contents_lines (h : ∀ header ∈ headers, header.IsTidy) :
    contents (headers.flatMap Header.line) = headers.map Header.content := by
  induction headers with
  | nil => rfl
  | cons header headers ih =>
    obtain ⟨hheader, hheaders⟩ := List.forall_mem_cons.1 h
    have hwhole : header.line = [] ∨ ∃ front, header.line = front ++ [Bytes.lf] :=
      .inr ⟨_, header.line_eq⟩
    rw [List.flatMap_cons, contents, Bytes.lines_append hwhole, List.map_append, List.map_cons,
      ← contents, ← contents, contents_line hheader, ih hheaders]
    rfl

/-- Each line gives the header that was written. -/
theorem headersOf_contents (h : ∀ header ∈ headers, header.IsTidy) :
    headersOf (headers.map Header.content) = headers := by
  induction headers with
  | nil => rfl
  | cons header headers ih =>
    obtain ⟨hheader, hheaders⟩ := List.forall_mem_cons.1 h
    rw [headersOf, List.map_cons, List.filterMap_cons_some (Header.parse?_content hheader)]
    exact congrArg (header :: ·) (ih hheaders)

/-- A block gives the headers that were written, in their order. -/
theorem insertBlock_block (h : ∀ header ∈ headers, header.IsTidy) :
    (empty.insertBlock (block headers)).1 = ofList headers := by
  have hwhole : headers.flatMap Header.line = [] ∨
      ∃ front, headers.flatMap Header.line = front ++ [Bytes.lf] := by
    rcases List.eq_nil_or_concat headers with rfl | ⟨init, last, rfl⟩
    · exact .inl rfl
    · refine .inr ⟨init.flatMap Header.line ++ last.content, ?_⟩
      rw [List.concat_eq_append, List.flatMap_append, List.flatMap_singleton, last.line_eq,
        List.append_assoc]
  have hnone : ∀ line ∈ contents (headers.flatMap Header.line), isBlankLine line = false := by
    rw [contents_lines h]
    intro line hmem
    obtain ⟨header, -, rfl⟩ := List.mem_map.1 hmem
    -- A blank line has no colon.
    have hcolon : Header.colon ∈ header.content := by simp [Header.content]
    cases hblank : isBlankLine header.content with
    | false => rfl
    | true =>
      rcases isBlankLine_iff.1 hblank with heq | heq
      · rw [heq] at hcolon
        cases hcolon
      · rw [heq] at hcolon
        exact absurd hcolon (by decide)
  rw [block, insertBlock_fst_of_whole hwhole hnone, contents_lines h, headersOf_contents h]

/-! ### What the map says of them -/

/-- The first value of a key is the first of all its values. -/
theorem get?_eq_head?_getAll (map : HeaderMap) (key : String) :
    map.get? key = (map.getAll key).head? := by
  rw [get?, getAll, List.head?_map, List.head?_filter, toList, Array.find?_toList]

/-- Chunks are selected by one header, which has to match exactly. -/
theorem isChunked_ofList_iff (headers : List Header) :
    (ofList headers).isChunked = true ↔
      { key := "Transfer-Encoding", value := Utf8.encode "chunked" } ∈ headers := by
  rw [isChunked_ofList, List.any_eq_true]
  constructor
  · rintro ⟨header, hmem, hselects⟩
    obtain ⟨key, value⟩ := header
    simp only [Header.selectsChunked, Bool.and_eq_true, beq_iff_eq] at hselects
    obtain ⟨rfl, rfl⟩ := hselects
    exact hmem
  · intro hmem
    exact ⟨_, hmem, by simp [Header.selectsChunked, Header.transferEncoding, Header.chunkedCoding]⟩

end HeaderMap

end NtripClient
