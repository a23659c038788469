import Mathlib.Data.List.TakeWhile
import NtripClient.Proofs.Answer.Advance

/-!
# `NtripClient.Proofs.Header.Block`: where a header block ends

Two searches decide where a header block ends. The decoder cuts it off at the first CRLFCRLF,
or after a CRLF at its very front. The map reads it line by line, cuts lines at line feeds, and
stops at the first line that is empty or a bare carriage return.

The searches agree on a block exactly if none of its lines is blank but the last one
(`headers_of_advance`). If they do, every line with a colon gives a header. A block with bare
line feeds may have a blank line in its middle (`advance_strayBlock`), and then its last lines
are cut off, but not read. Where every line feed follows a carriage return, no line is blank
before the end (`consumed_insertBlock_of_lineFeeds`).
-/

set_option autoImplicit false

namespace NtripClient

/-! ### Lines of longer byte strings -/

namespace Bytes

/-- The lines that were cut already stay in front. -/
theorem linesInto_eq (done : List Bytes) (current bytes : Bytes) :
    linesInto done current bytes = done.reverse ++ linesInto [] current bytes := by
  induction bytes generalizing done current with
  | nil =>
    rw [linesInto, linesInto]
    split <;> simp
  | cons b rest ih =>
    rw [linesInto, linesInto]
    split
    · rw [ih, ih [(b :: current).reverse], List.reverse_cons, List.append_assoc]
      rfl
    · exact ih done (b :: current)

/-- A line feed ends a line, whatever follows. -/
theorem linesInto_append (current front rest : Bytes) :
    linesInto [] current (front ++ lf :: rest)
      = linesInto [] current (front ++ [lf]) ++ lines rest := by
  -- Over the bytes before the line feed, with the line that is being read.
  induction front generalizing current with
  | nil =>
    rw [List.nil_append, List.nil_append, linesInto, if_pos rfl, linesInto_eq, linesInto,
      if_pos rfl]
    rfl
  | cons b front ih =>
    rw [List.cons_append, List.cons_append, linesInto, linesInto]
    split
    · rw [linesInto_eq, linesInto_eq [(b :: current).reverse] [] (front ++ [lf]), ih,
        List.append_assoc]
    · exact ih (b :: current)

/-- Bytes that end with a line feed are cut into lines apart from what follows. -/
theorem lines_append {bytes : Bytes} (h : bytes = [] ∨ ∃ front, bytes = front ++ [lf])
    (rest : Bytes) : lines (bytes ++ rest) = lines bytes ++ lines rest := by
  rcases h with rfl | ⟨front, rfl⟩
  · rfl
  · rw [List.append_assoc]
    exact linesInto_append [] front rest

/-- A header block in front of other bytes: whole lines, and the first blank line that ends a
block. -/
structure BeginsWithBlock (bytes content rest : Bytes) : Prop where
  split : bytes = content ++ crlf ++ rest
  whole : content = [] ∨ ∃ init, content = init ++ [lf]
  first : blockEnd? 0 bytes = some (content ++ crlf).length

/-- What the search for the end of a block finds is a block. -/
theorem exists_block_of_blockEnd? {bytes : Bytes} {stop : Nat} (h : blockEnd? 0 bytes = some stop) :
    ∃ content, bytes.take stop = content ++ crlf ∧
      BeginsWithBlock bytes content (bytes.drop stop) := by
  have hlength : (bytes.take stop).length = stop :=
    List.length_take_of_le (settles_blockEnd?.within h)
  have hblock : ∀ content, bytes.take stop = content ++ crlf →
      (content = [] ∨ ∃ init, content = init ++ [lf]) →
      BeginsWithBlock bytes content (bytes.drop stop) := by
    intro content htake hwhole
    refine ⟨?_, hwhole, ?_⟩
    · rw [← htake, List.take_append_drop]
    · rw [← htake, hlength, h]
  have hfound := h
  rw [blockEnd?_zero] at hfound
  split at hfound
  · rename_i hempty
    cases hfound
    have htake : bytes.take 2 = [] ++ crlf := (List.prefix_iff_eq_take.1 hempty).symm
    exact ⟨[], htake, hblock [] htake (.inl rfl)⟩
  · obtain ⟨i, hi, rfl⟩ := Option.map_eq_some_iff.1 hfound
    obtain ⟨rest, hrest⟩ := ((find?_eq_some_iff crlfcrlf_ne_nil).1 hi).1
    -- The first of the two line ends belongs to the lines.
    have htake : bytes.take (i + 4) = (bytes.take i ++ crlf) ++ crlf := by
      rw [List.take_add, ← hrest]
      simp [crlf]
    exact ⟨bytes.take i ++ crlf, htake,
      hblock _ htake (.inr ⟨bytes.take i ++ [cr], by simp [crlf]⟩)⟩

/-- Every line feed follows a carriage return. -/
def LineFeedsFollow (bytes : Bytes) : Prop :=
  ∀ front rest, bytes = front ++ lf :: rest → ∃ init, front = init ++ [cr]

/-- A line stands behind a line feed or at the front, and it ends with a line feed or at the
end. -/
structure IsLineOf (line bytes front rest : Bytes) : Prop where
  split : bytes = front ++ line ++ rest
  behind : front = [] ∨ ∃ init, front = init ++ [lf]
  ends : rest = [] ∨ ∃ init, line = init ++ [lf]
  ne_nil : line ≠ []

/-- Each piece that bytes are cut into is a line of them. -/
theorem exists_isLineOf_of_mem_linesInto {line current bytes : Bytes}
    (h : line ∈ linesInto [] current bytes) :
    ∃ front rest, IsLineOf line (current.reverse ++ bytes) front rest := by
  -- Over the bytes: a line feed ends the current line, any other byte belongs to it.
  induction bytes generalizing current with
  | nil =>
    rw [linesInto] at h
    split at h
    · cases h
    · rename_i hcurrent
      have hline : line = current.reverse := by simpa using h
      refine ⟨[], [], by simp [hline], .inl rfl, .inl rfl, ?_⟩
      rw [hline]
      simpa using hcurrent
  | cons b rest ih =>
    rw [linesInto] at h
    split at h
    · rename_i hb
      subst hb
      rw [linesInto_eq] at h
      rcases List.mem_append.1 h with hmem | hmem
      · have hline : line = current.reverse ++ [lf] := by simpa using hmem
        refine ⟨[], rest, by simp [hline], .inl rfl, .inr ⟨_, hline⟩, ?_⟩
        rw [hline]
        simp
      · obtain ⟨front, rest', hsplit, hbehind, hends, hne⟩ := ih hmem
        rw [List.reverse_nil, List.nil_append] at hsplit
        refine ⟨current.reverse ++ lf :: front, rest', by simp [hsplit], .inr ?_, hends, hne⟩
        rcases hbehind with rfl | ⟨init, rfl⟩
        · exact ⟨current.reverse, rfl⟩
        · exact ⟨current.reverse ++ lf :: init, by simp⟩
    · obtain ⟨front, rest', hline⟩ := ih h
      refine ⟨front, rest', ?_, hline.behind, hline.ends, hline.ne_nil⟩
      rw [← hline.split]
      simp

/-- In bytes that end with a line feed every line does. -/
theorem IsLineOf.exists_eq {line bytes front rest : Bytes} (h : IsLineOf line bytes front rest)
    (hends : bytes = [] ∨ ∃ init, bytes = init ++ [lf]) : ∃ init, line = init ++ [lf] := by
  have hsplit := h.split
  rcases h.ends with rfl | hline
  · rcases hends with rfl | ⟨all, rfl⟩
    · simp [h.ne_nil] at hsplit
    · -- The last byte of the line is that of all bytes.
      rcases List.eq_nil_or_concat line with hnil | ⟨init, b, rfl⟩
      · exact absurd hnil h.ne_nil
      · rw [List.append_nil, List.concat_eq_append, ← List.append_assoc] at hsplit
        obtain ⟨-, hb⟩ := List.append_inj' hsplit rfl
        cases hb
        exact ⟨init, List.concat_eq_append⟩
  · exact hline

/-- The first end of a block comes before any other. -/
theorem blockEnd?_le {front rest : Bytes} {stop : Nat}
    (h : blockEnd? 0 (front ++ (crlf ++ crlf) ++ rest) = some stop) :
    stop ≤ front.length + 4 := by
  rw [blockEnd?_zero] at h
  split at h
  · cases h
    omega
  · obtain ⟨i, hi, rfl⟩ := Option.map_eq_some_iff.1 h
    have hat : crlf ++ crlf <+: (front ++ (crlf ++ crlf) ++ rest).drop front.length := by
      rw [List.append_assoc, List.drop_left]
      exact List.prefix_append _ _
    have hle : ¬ front.length < i :=
      fun hlt => ((find?_eq_some_iff crlfcrlf_ne_nil).1 hi).2 _ hlt hat
    omega

end Bytes

/-! ### Lines and headers -/

/-- A line holds a header if it has a colon. -/
theorem Header.isSome_parse?_iff (line : Bytes) : (parse? line).isSome ↔ colon ∈ line := by
  have hnone : line.dropWhile (· != colon) = [] ↔ colon ∉ line := by
    rw [List.dropWhile_eq_nil_iff]
    constructor
    · intro hall hmem
      have hne := hall colon hmem
      simp at hne
    · intro hnot b hmem
      have hne : b ≠ colon := by
        intro heq
        exact hnot (heq ▸ hmem)
      simpa using hne
  unfold parse?
  cases hafter : line.dropWhile (· != colon) with
  | nil => simpa using hnone.1 hafter
  | cons b after =>
    rw [hafter] at hnone
    simpa using hnone

namespace HeaderMap

/-- The lines of a block without their line feeds. -/
def contents (block : Bytes) : List Bytes :=
  (Bytes.lines block).map (Bytes.stripLast Bytes.lf)

/-- The headers that lines hold, in order. -/
def headersOf (contents : List Bytes) : List Header :=
  contents.filterMap Header.parse?

/-- A blank line is empty or a lone carriage return. -/
theorem isBlankLine_iff {line : Bytes} :
    isBlankLine line = true ↔ line = [] ∨ line = [Bytes.cr] := by
  simp [isBlankLine]

/-- Lines up to a blank one. -/
def beforeBlank (contents : List Bytes) : List Bytes :=
  contents.takeWhile (!isBlankLine ·)

/-- A line adds the header it holds. -/
theorem insertLine_eq (map : HeaderMap) (line : Bytes) :
    map.insertLine line = map.insertAll (headersOf [line]) := by
  unfold insertLine headersOf
  cases hparse : Header.parse? line with
  | none => rw [List.filterMap_cons_none hparse]; rfl
  | some header => rw [List.filterMap_cons_some hparse]; rfl

/-- Lines add the headers they hold, up to a blank one. -/
theorem insertLines_fst (map : HeaderMap) (consumed : Nat) (lines : List Bytes) :
    (map.insertLines consumed lines).1
      = map.insertAll (headersOf (beforeBlank (lines.map (Bytes.stripLast Bytes.lf)))) := by
  induction lines generalizing map consumed with
  | nil => rfl
  | cons line rest ih =>
    simp only [insertLines, beforeBlank, List.map_cons, List.takeWhile_cons]
    cases hblank : isBlankLine (Bytes.stripLast Bytes.lf line) with
    | true => rfl
    | false =>
      -- The header of the first line is added before those of the others.
      simp only [Bool.false_eq_true, if_false, Bool.not_false, if_true]
      rw [ih, insertLine_eq, insertAll, insertAll, ← List.foldl_append, ← insertAll]
      simp only [headersOf, beforeBlank, ← List.filterMap_append]
      rfl

/-- Lines are read up to the blank line behind them exactly if none of them is blank. -/
theorem consumed_insertLines_iff (map : HeaderMap) (consumed : Nat) (lines : List Bytes) :
    (map.insertLines consumed (lines ++ [Bytes.crlf])).2
        = consumed + (lines ++ [Bytes.crlf]).flatten.length ↔
      ∀ line ∈ lines, isBlankLine (Bytes.stripLast Bytes.lf line) = false := by
  induction lines generalizing map consumed with
  | nil => simp [insertLines, isBlankLine, Bytes.stripLast, Bytes.crlf]
  | cons line lines ih =>
    rw [List.cons_append, insertLines, List.flatten_cons, List.length_append, List.forall_mem_cons]
    cases hblank : isBlankLine (Bytes.stripLast Bytes.lf line) with
    | true =>
      -- Reading stops here, and at least the last line is left.
      have hlast : 0 < (lines ++ [Bytes.crlf]).flatten.length := by
        rw [List.flatten_append, List.length_append]
        exact Nat.lt_of_lt_of_le (by decide) (Nat.le_add_left _ _)
      simp only [if_true, Bool.true_eq_false, false_and, iff_false]
      omega
    | false =>
      simp only [Bool.false_eq_true, if_false, true_and]
      rw [← Nat.add_assoc]
      exact ih (map.insertLine (Bytes.stripLast Bytes.lf line)) (consumed + line.length)

section
variable {content : Bytes}

/-- A block is cut into the lines of its content and a blank line. -/
theorem lines_block (h : content = [] ∨ ∃ front, content = front ++ [Bytes.lf]) :
    Bytes.lines (content ++ Bytes.crlf) = Bytes.lines content ++ [Bytes.crlf] :=
  Bytes.lines_append h Bytes.crlf

/-- A block is read as a whole exactly if it has no blank line before its end. -/
theorem consumed_insertBlock_iff (h : content = [] ∨ ∃ front, content = front ++ [Bytes.lf]) :
    (empty.insertBlock (content ++ Bytes.crlf)).2 = (content ++ Bytes.crlf).length ↔
      ∀ line ∈ contents content, isBlankLine line = false := by
  -- The lines of the block are as long as the block, because cutting loses nothing.
  have hread := consumed_insertLines_iff empty 0 (Bytes.lines content)
  have hflatten : (Bytes.lines content ++ [Bytes.crlf]).flatten = content ++ Bytes.crlf := by
    rw [List.flatten_append, Bytes.flatten_lines]
    rfl
  rw [hflatten, Nat.zero_add, ← lines_block h] at hread
  rw [insertBlock, hread, contents, List.forall_mem_map]

/-- A block gives the headers of its lines, up to a blank one. -/
theorem insertBlock_fst (h : content = [] ∨ ∃ front, content = front ++ [Bytes.lf]) :
    (empty.insertBlock (content ++ Bytes.crlf)).1
      = ofList (headersOf (beforeBlank (contents content))) := by
  have hblank : isBlankLine (Bytes.stripLast Bytes.lf Bytes.crlf) = true := by decide
  rw [insertBlock, insertLines_fst, lines_block h, List.map_append, ofList, contents]
  -- The blank line at the end is not among the lines before a blank one.
  congr 2
  unfold beforeBlank
  rw [List.takeWhile_append]
  split
  · rename_i hlength
    rw [(List.takeWhile_prefix _).eq_of_length hlength]
    simp [hblank]
  · rfl

/-- Without a blank line before its end, a block gives the headers of all its lines. -/
theorem insertBlock_fst_of_whole (h : content = [] ∨ ∃ front, content = front ++ [Bytes.lf])
    (hwhole : ∀ line ∈ contents content, isBlankLine line = false) :
    (empty.insertBlock (content ++ Bytes.crlf)).1 = ofList (headersOf (contents content)) := by
  have hall : beforeBlank (contents content) = contents content := by
    unfold beforeBlank
    refine List.takeWhile_eq_self_iff.2 ?_
    intro line hmem
    rw [hwhole line hmem]
    rfl
  rw [insertBlock_fst h, hall]

end

/-- Every line with a colon gives one header. -/
theorem length_headersOf (contents : List Bytes) :
    (headersOf contents).length = contents.countP (Header.colon ∈ ·) := by
  induction contents with
  | nil => rfl
  | cons line contents ih =>
    have hsome := Header.isSome_parse?_iff line
    unfold headersOf at ih ⊢
    cases hparse : Header.parse? line with
    | none =>
      rw [hparse] at hsome
      rw [List.filterMap_cons_none hparse, List.countP_cons_of_neg (by simpa using hsome), ih]
    | some header =>
      rw [hparse] at hsome
      rw [List.filterMap_cons_some hparse, List.countP_cons_of_pos (by simpa using hsome),
        List.length_cons, ih]

end HeaderMap

namespace Decoder

variable {limits : Limits} {d next : Decoder} {map : HeaderMap}

/-- A part that was found is not too long. -/
theorem le_of_ofSearch {stop? : Option Nat} {size limit overlap length : Nat}
    (h : Scan.ofSearch stop? size limit overlap = .found length) : length ≤ limit := by
  have hstop := eq_some_of_ofSearch h
  unfold Scan.ofSearch at h
  rw [hstop] at h
  split at h
  · cases h
  · exact Nat.le_of_not_lt ‹_›

/-- A decoder that reports headers has cut off a block and read it. -/
theorem block_of_headers (h : d.Sound) (hadvance : d.advance limits = (.headers map, next)) :
    ∃ content, Bytes.BeginsWithBlock d.buffer content next.buffer ∧
      (content ++ Bytes.crlf).length ≤ limits.block ∧
      map = (HeaderMap.empty.insertBlock (content ++ Bytes.crlf)).1 ∧
      next.stage = bodyStage map := by
  obtain ⟨stage, buffer⟩ := d
  have hreports := reports_advance limits h
  rw [hadvance] at hreports
  cases hreports with
  | headers before after =>
    -- Only one stage belongs to the phase.
    cases stage with
    | headers searched =>
      have hfront : Bytes.blockEnd? searched buffer = Bytes.blockEnd? 0 buffer :=
        Bytes.blockEnd?_eq h
      simp only [advance, scanBlock] at hadvance
      split at hadvance
      · cases hadvance
      · cases hadvance
      · rename_i stop hfound
        have hstop : Bytes.blockEnd? 0 buffer = some stop := hfront ▸ eq_some_of_ofSearch hfound
        obtain ⟨content, htake, hblock⟩ := Bytes.exists_block_of_blockEnd? hstop
        have hlength : (content ++ Bytes.crlf).length = stop :=
          Option.some.inj (hblock.first.symm.trans hstop)
        cases hadvance
        refine ⟨content, hblock, ?_, by rw [htake], rfl⟩
        rw [hlength]
        exact le_of_ofSearch hfound
    | status searched => cases before
    | plain => cases before
    | chunkSize searched => cases before
    | chunkData missing pos => cases before
    | chunkEnd => cases before

/-- **What is cut off is what is read, unless a line is blank too early.** A decoder that
reports headers has cut a block from the front of its bytes. All bytes of the block are read
exactly if none of its lines is blank but the last one. Then each line with a colon gives a
header, in order, and one that selects chunked framing does so wherever it stands. If a line is
blank before, only the lines in front of it give headers. -/
theorem headers_of_advance (h : d.Sound) (hadvance : d.advance limits = (.headers map, next)) :
    ∃ content, Bytes.BeginsWithBlock d.buffer content next.buffer ∧
      (content ++ Bytes.crlf).length ≤ limits.block ∧
      next.stage = bodyStage map ∧
      map = (HeaderMap.empty.insertBlock (content ++ Bytes.crlf)).1 ∧
      map.toList = HeaderMap.headersOf (HeaderMap.beforeBlank (HeaderMap.contents content)) ∧
      ((HeaderMap.empty.insertBlock (content ++ Bytes.crlf)).2 = (content ++ Bytes.crlf).length ↔
        ∀ line ∈ HeaderMap.contents content, HeaderMap.isBlankLine line = false) ∧
      ((∀ line ∈ HeaderMap.contents content, HeaderMap.isBlankLine line = false) →
        map.toList = HeaderMap.headersOf (HeaderMap.contents content) ∧
        map.toList.length = (HeaderMap.contents content).countP (Header.colon ∈ ·) ∧
        (map.isChunked = true ↔ ∃ line ∈ HeaderMap.contents content,
          ∃ header, Header.parse? line = some header ∧ header.selectsChunked = true)) := by
  obtain ⟨content, hblock, hfits, hmap, hstage⟩ := block_of_headers h hadvance
  refine ⟨content, hblock, hfits, hstage, hmap, ?_,
    HeaderMap.consumed_insertBlock_iff hblock.whole, ?_⟩
  · rw [hmap, HeaderMap.insertBlock_fst hblock.whole, HeaderMap.toList_ofList]
  · intro hnone
    have hof := HeaderMap.insertBlock_fst_of_whole hblock.whole hnone
    have hlist : map.toList = HeaderMap.headersOf (HeaderMap.contents content) := by
      rw [hmap, hof, HeaderMap.toList_ofList]
    refine ⟨hlist, by rw [hlist, HeaderMap.length_headersOf], ?_⟩
    rw [hmap, hof, HeaderMap.isChunked_ofList, List.any_eq_true]
    -- A header that selects chunks is that of a line.
    simp only [HeaderMap.headersOf, List.mem_filterMap]
    constructor
    · rintro ⟨header, ⟨line, hmem, hparse⟩, hselects⟩
      exact ⟨line, hmem, header, hparse, hselects⟩
    · rintro ⟨line, hmem, header, hparse, hselects⟩
      exact ⟨header, ⟨line, hmem, hparse⟩, hselects⟩

/-- A block with a bare line feed and a line without a colon, and the front of a body. -/
def mixedBlock : Bytes :=
  Utf8.encode "A: b\nno colon\r\nTransfer-Encoding: chunked\r\n\r\n5\r\n"

/-- The block is read as a whole, and selects chunked framing. -/
theorem headers_of_advance_mixedBlock :
    Sound { stage := .headers 0, buffer := mixedBlock } ∧
    ∃ map, advance { line := 80, block := 80 } { stage := .headers 0, buffer := mixedBlock }
        = (.headers map, { stage := .chunkSize 0, buffer := Utf8.encode "5\r\n" }) ∧
      ∃ content, Bytes.BeginsWithBlock mixedBlock content (Utf8.encode "5\r\n") ∧
        map.toList = HeaderMap.headersOf (HeaderMap.beforeBlank (HeaderMap.contents content)) := by
  have hsound : Sound { stage := .headers 0, buffer := mixedBlock } := Bytes.searched_zero _ _
  have hadvance : advance { line := 80, block := 80 } { stage := .headers 0, buffer := mixedBlock }
      = (.headers { entries := #[{ key := "A", value := Utf8.encode "b" },
            { key := "Transfer-Encoding", value := Utf8.encode "chunked" }], isChunked := true },
          { stage := .chunkSize 0, buffer := Utf8.encode "5\r\n" }) := by decide +kernel
  obtain ⟨content, hblock, -, -, -, hlist, -⟩ := headers_of_advance hsound hadvance
  exact ⟨hsound, _, hadvance, content, hblock, hlist⟩

/-- A block with an empty line in front of the header that selects chunked framing. -/
def strayBlock : Bytes :=
  Utf8.encode "A: b\n\nTransfer-Encoding: chunked\r\n\r\n"

/-- The block is cut off as a whole, but only its first line gives a header. The bytes behind
the empty line are lost, and the body is taken to be plain. -/
theorem advance_strayBlock :
    advance { line := 80, block := 80 } { stage := .headers 0, buffer := strayBlock }
        = (.headers { entries := #[{ key := "A", value := Utf8.encode "b" }] },
            { stage := .plain, buffer := [] }) ∧
      strayBlock.length = 36 ∧ (HeaderMap.empty.insertBlock strayBlock).2 = 6 ∧
      (∃ line ∈ HeaderMap.contents strayBlock, ∃ header, Header.parse? line = some header ∧
        header.selectsChunked = true) := by
  refine ⟨by decide +kernel, by decide +kernel, by decide +kernel,
    Utf8.encode "Transfer-Encoding: chunked\r", by decide +kernel,
    { key := "Transfer-Encoding", value := Utf8.encode "chunked" }, by decide +kernel,
    by decide +kernel⟩

end Decoder

/-! ### Blocks without bare line feeds -/

namespace HeaderMap

variable {bytes content rest : Bytes}

/-- No line is blank before the end of a block whose line feeds all follow carriage returns. -/
theorem isBlankLine_eq_false (h : Bytes.BeginsWithBlock bytes content rest)
    (hfeeds : Bytes.LineFeedsFollow content) :
    ∀ line ∈ contents content, isBlankLine line = false := by
  intro line hmem
  obtain ⟨whole, hwhole, rfl⟩ := List.mem_map.1 hmem
  obtain ⟨front, behind, hline⟩ := Bytes.exists_isLineOf_of_mem_linesInto hwhole
  obtain ⟨line, rfl⟩ := hline.exists_eq h.whole
  have hcontent : content = front ++ line ++ Bytes.lf :: behind := by
    have hsplit : content = front ++ (line ++ [Bytes.lf]) ++ behind := hline.split
    simpa using hsplit
  have hstrip : Bytes.stripLast Bytes.lf (line ++ [Bytes.lf]) = line := by
    simp [Bytes.stripLast]
  rw [hstrip]
  -- A blank line would let the block end earlier than at its first empty line.
  cases hblank : isBlankLine line with
  | false => rfl
  | true =>
    exfalso
    obtain ⟨init, hinit⟩ := hfeeds (front ++ line) behind hcontent
    have hfirst := h.first
    rcases isBlankLine_iff.1 hblank with rfl | rfl
    · -- The line feed before the line would be a carriage return.
      rw [List.append_nil] at hinit
      rcases hline.behind with rfl | ⟨before, rfl⟩
      · simp at hinit
      · cases (List.append_inj' hinit rfl).2
    · rcases hline.behind with rfl | ⟨before, rfl⟩
      · -- The block would have ended at its front.
        rw [h.split, hcontent, Bytes.blockEnd?_zero,
          if_pos (by simp [Bytes.crlf, List.prefix_iff_eq_append])] at hfirst
        simp [Bytes.crlf] at hfirst
      · -- The block would have ended with this line.
        obtain ⟨init', hinit'⟩ := hfeeds before (Bytes.cr :: Bytes.lf :: behind)
          (by simp [hcontent])
        have hbytes : bytes
            = init' ++ (Bytes.crlf ++ Bytes.crlf) ++ (behind ++ Bytes.crlf ++ rest) := by
          rw [h.split, hcontent, hinit']
          simp [Bytes.crlf]
        have hle := Bytes.blockEnd?_le (hbytes ▸ hfirst)
        have hlength : (content ++ Bytes.crlf).length = init'.length + behind.length + 6 := by
          rw [hcontent, hinit']
          simp only [List.length_append, List.length_cons, List.length_nil, Bytes.crlf]
          omega
        omega

/-- A block whose line feeds all follow carriage returns is read as a whole. -/
theorem consumed_insertBlock_of_lineFeeds (h : Bytes.BeginsWithBlock bytes content rest)
    (hfeeds : Bytes.LineFeedsFollow content) :
    (empty.insertBlock (content ++ Bytes.crlf)).2 = (content ++ Bytes.crlf).length :=
  (consumed_insertBlock_iff h.whole).2 (isBlankLine_eq_false h hfeeds)

end HeaderMap

end NtripClient
