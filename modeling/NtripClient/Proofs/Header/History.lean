import NtripClient.Proofs.Header.RoundTrip

/-!
# `NtripClient.Proofs.Header.History`: what a header map keeps, whatever is done to it

A header map is changed by inserting a header, by extending it with several, by collecting a new
one from a list, and by reading a block. Each of these adds some headers, in order, behind those
that are there (`apply_eq`). So a map is never more than the list of its headers: it is the one that
is made of this list (`run_eq_ofList`), and what it remembers of chunked framing is true.

Blocks may be read in pieces. A piece that consists of whole lines, none of them blank, can be read
apart from what follows it (`insertBlock_append`). What follows a blank line is not read at all
(`insertBlock_of_blank`).
-/

set_option autoImplicit false

namespace NtripClient

namespace Bytes

/-- A blank line: nothing, or a lone carriage return, in front of a line feed. -/
def IsBlank (line : Bytes) : Prop :=
  line = [lf] ∨ line = [cr, lf]

/-- Whole lines: nothing, or bytes that end with a line feed. -/
def IsWhole (bytes : Bytes) : Prop :=
  bytes = [] ∨ ∃ init, bytes = init ++ [lf]

/-- Nowhere behind whole lines is there a blank one. -/
def HasNoBlank (bytes : Bytes) : Prop :=
  ∀ front line rest, bytes = front ++ line ++ rest → IsWhole front → ¬ IsBlank line

instance (line : Bytes) : Decidable (IsBlank line) :=
  inferInstanceAs (Decidable (line = [lf] ∨ line = [cr, lf]))

/-- A blank line ends with a line feed. -/
theorem IsBlank.exists_eq {line : Bytes} (h : IsBlank line) : ∃ init, line = init ++ [lf] := by
  rcases h with rfl | rfl
  · exact ⟨[], rfl⟩
  · exact ⟨[cr], rfl⟩

/-- Bytes with a blank line behind whole lines are cut in front of it and behind it. -/
theorem lines_of_blank {front line : Bytes} (hwhole : front.IsWhole) (h : line.IsBlank)
    (rest : Bytes) : lines (front ++ line ++ rest) = lines front ++ line :: lines rest := by
  have hline : lines line = [line] := by rcases h with rfl | rfl <;> rfl
  rw [List.append_assoc, lines_append hwhole, lines_append (.inr h.exists_eq), hline]
  rfl

/-- Bytes have no blank line if none of the lines they are cut into is blank. -/
theorem hasNoBlank_iff {bytes : Bytes} :
    bytes.HasNoBlank ↔ ∀ line ∈ lines bytes, ¬ IsBlank line := by
  constructor
  · intro h line hmem
    obtain ⟨front, rest, hline⟩ := exists_isLineOf_of_mem_linesInto hmem
    exact h front line rest hline.split hline.behind
  · rintro h front line rest rfl hwhole hblank
    refine h line ?_ hblank
    rw [lines_of_blank hwhole hblank]
    exact List.mem_append_right _ List.mem_cons_self

end Bytes

namespace HeaderMap

/-- A blank line is taken for blank without its line feed. -/
theorem isBlankLine_of_isBlank {line : Bytes} (h : line.IsBlank) :
    isBlankLine (Bytes.stripLast Bytes.lf line) = true := by
  rcases h with rfl | rfl <;> decide

/-- A line that ends with a line feed and is not blank is not taken for blank. -/
theorem isBlankLine_eq_false_of_not_isBlank {content : Bytes}
    (h : ¬ Bytes.IsBlank (content ++ [Bytes.lf])) :
    isBlankLine (Bytes.stripLast Bytes.lf (content ++ [Bytes.lf])) = false := by
  rw [show Bytes.stripLast Bytes.lf (content ++ [Bytes.lf]) = content by simp [Bytes.stripLast]]
  cases hblank : isBlankLine content with
  | false => rfl
  | true =>
    rcases isBlankLine_iff.1 hblank with rfl | rfl
    · exact absurd (.inl rfl) h
    · exact absurd (.inr rfl) h

/-- The lines of bytes that have no blank one are not taken for blank. -/
theorem isBlankLine_eq_false_of_hasNoBlank {bytes : Bytes} (hwhole : bytes.IsWhole)
    (h : bytes.HasNoBlank) :
    ∀ line ∈ Bytes.lines bytes, isBlankLine (Bytes.stripLast Bytes.lf line) = false := by
  intro line hmem
  have hnot := Bytes.hasNoBlank_iff.1 h line hmem
  obtain ⟨front, rest, hline⟩ := Bytes.exists_isLineOf_of_mem_linesInto hmem
  obtain ⟨content, rfl⟩ := hline.exists_eq hwhole
  exact isBlankLine_eq_false_of_not_isBlank hnot

/-! ### Blocks in pieces -/

/-- Bytes read before are added to those that are read now. -/
theorem insertLines_eq (map : HeaderMap) (consumed : Nat) (lines : List Bytes) :
    map.insertLines consumed lines
      = ((map.insertLines 0 lines).1, consumed + (map.insertLines 0 lines).2) := by
  induction lines generalizing map consumed with
  | nil => rfl
  | cons line lines ih =>
    simp only [insertLines]
    split
    · simp
    · rw [ih, ih _ (0 + line.length)]
      simp [Nat.add_assoc]

/-- Lines that are not blank are read apart from what follows. -/
theorem insertLines_append (map : HeaderMap) (consumed : Nat) {lines : List Bytes}
    (h : ∀ line ∈ lines, isBlankLine (Bytes.stripLast Bytes.lf line) = false)
    (more : List Bytes) :
    map.insertLines consumed (lines ++ more)
      = (map.insertLines consumed lines).1.insertLines (map.insertLines consumed lines).2 more := by
  induction lines generalizing map consumed with
  | nil => rfl
  | cons line lines ih =>
    obtain ⟨hline, hlines⟩ := List.forall_mem_cons.1 h
    simp only [List.cons_append, insertLines, hline, Bool.false_eq_true, if_false]
    exact ih _ _ hlines

/-- Lines behind a blank one are not read. -/
theorem insertLines_of_blank (map : HeaderMap) (consumed : Nat) (lines : List Bytes) {line : Bytes}
    (h : isBlankLine (Bytes.stripLast Bytes.lf line) = true) (more : List Bytes) :
    map.insertLines consumed (lines ++ line :: more)
      = map.insertLines consumed (lines ++ [line]) := by
  induction lines generalizing map consumed with
  | nil => simp only [List.nil_append, insertLines, h, if_true]
  | cons first lines ih =>
    simp only [List.cons_append, insertLines, ih]

/-- Whole lines without a blank one are read apart from the bytes that follow them. -/
theorem insertBlock_append (map : HeaderMap) {first : Bytes} (hwhole : first.IsWhole)
    (h : first.HasNoBlank) (second : Bytes) :
    map.insertBlock (first ++ second)
      = (((map.insertBlock first).1.insertBlock second).1,
          (map.insertBlock first).2 + ((map.insertBlock first).1.insertBlock second).2) := by
  rw [insertBlock, Bytes.lines_append hwhole,
    insertLines_append map 0 (isBlankLine_eq_false_of_hasNoBlank hwhole h), insertLines_eq]
  rfl

/-- The bytes behind a blank line are not read. -/
theorem insertBlock_of_blank (map : HeaderMap) {front line : Bytes} (hwhole : front.IsWhole)
    (h : line.IsBlank) (rest : Bytes) :
    map.insertBlock (front ++ line ++ rest) = map.insertBlock (front ++ line) := by
  have hnothing := Bytes.lines_of_blank hwhole h []
  rw [List.append_nil] at hnothing
  rw [insertBlock, Bytes.lines_of_blank hwhole h,
    insertLines_of_blank map 0 _ (isBlankLine_of_isBlank h), insertBlock, hnothing]
  rfl

/-! ### Steps -/

/-- What can be done to a header map. -/
inductive Step where
  /-- Adds a header. -/
  | insert (header : Header)
  /-- Adds headers. -/
  | extend (headers : List Header)
  /-- Makes a new map. -/
  | collect (headers : List Header)
  /-- Reads a block. -/
  | block (bytes : Bytes)

/-- The headers that a step adds. Those of a block are the ones of its lines before a blank one. -/
def Step.added : Step → List Header
  | .insert header => [header]
  | .extend headers => headers
  | .collect headers => headers
  | .block bytes => headersOf (beforeBlank (contents bytes))

/-- A step makes a new map. -/
def Step.isNew : Step → Bool
  | .collect _ => true
  | _ => false

/-- Takes one step. -/
def apply (map : HeaderMap) : Step → HeaderMap
  | .insert header => map.insert header
  | .extend headers => map.insertAll headers
  | .collect headers => ofList headers
  | .block bytes => (map.insertBlock bytes).1

/-- The map that some steps lead to, from no headers. -/
def run (steps : List Step) : HeaderMap :=
  steps.foldl apply empty

/-- All that a step does is to add headers, in order, to the map or to an empty one. -/
theorem apply_eq (map : HeaderMap) (step : Step) :
    map.apply step = (if step.isNew then empty else map).insertAll step.added := by
  cases step with
  | insert header => rfl
  | extend headers => rfl
  | collect headers => rfl
  | block bytes => exact insertLines_fst map 0 (Bytes.lines bytes)

/-- Headers may be added in two stages. -/
theorem insertAll_append (map : HeaderMap) (first second : List Header) :
    map.insertAll (first ++ second) = (map.insertAll first).insertAll second :=
  List.foldl_append

/-- The last step is taken last. -/
theorem run_concat (steps : List Step) (step : Step) :
    run (steps ++ [step]) = (run steps).apply step := by
  rw [run, List.foldl_append]
  rfl

/-- Steps that make no new map add their headers to the one that is there. -/
theorem foldl_apply (map : HeaderMap) {steps : List Step} (h : ∀ step ∈ steps, step.isNew = false) :
    steps.foldl apply map = map.insertAll (steps.flatMap Step.added) := by
  induction steps generalizing map with
  | nil => rfl
  | cons step steps ih =>
    obtain ⟨hstep, hsteps⟩ := List.forall_mem_cons.1 h
    rw [List.foldl_cons, ih _ hsteps, apply_eq, hstep, List.flatMap_cons, insertAll_append]
    rfl

/-- A map is no more than the list of its headers. -/
def IsOfList (map : HeaderMap) : Prop :=
  map = ofList map.toList

/-- A map that is made of a list is no more than this list. -/
theorem isOfList_ofList (headers : List Header) : (ofList headers).IsOfList := by
  rw [IsOfList, toList_ofList]

/-- Adding headers adds them to the list, and nothing else. -/
theorem IsOfList.insertAll {map : HeaderMap} (h : map.IsOfList) (headers : List Header) :
    (map.insertAll headers).IsOfList := by
  rw [IsOfList, toList_insertAll, ofList, insertAll_append, ← ofList, ← h]

/-- A step leaves a map that is no more than its list. -/
theorem IsOfList.apply {map : HeaderMap} (h : map.IsOfList) (step : Step) :
    (map.apply step).IsOfList := by
  rw [apply_eq]
  split
  · exact isOfList_ofList _
  · exact h.insertAll _

/-- So do any number of steps. -/
theorem isOfList_foldl {map : HeaderMap} (h : map.IsOfList) (steps : List Step) :
    (steps.foldl HeaderMap.apply map).IsOfList := by
  induction steps generalizing map with
  | nil => exact h
  | cons step steps ih => exact ih (h.apply step)

/-- Whatever is done to a map, it is no more than its list. -/
theorem isOfList_run (steps : List Step) : (run steps).IsOfList :=
  isOfList_foldl (isOfList_ofList []) steps

/-- Maps with the same list are the same. -/
theorem IsOfList.eq_iff {first second : HeaderMap} (hfirst : first.IsOfList)
    (hsecond : second.IsOfList) : first = second ↔ first.toList = second.toList := by
  refine ⟨congrArg toList, fun h => ?_⟩
  rw [hfirst, hsecond, h]

/-- What such a map remembers of chunked framing can be read off its list. -/
theorem IsOfList.isChunked_iff {map : HeaderMap} (h : map.IsOfList) :
    map.isChunked = true ↔
      ∃ header ∈ map.toList, header.key = "Transfer-Encoding" ∧
        header.value = Utf8.encode "chunked" := by
  rw [h, isChunked_ofList_iff, toList_ofList]
  constructor
  · intro hmem
    exact ⟨_, hmem, rfl, rfl⟩
  · rintro ⟨⟨key, value⟩, hmem, rfl, rfl⟩
    exact hmem

/-- A key is there exactly if it has a value. -/
theorem contains_iff (map : HeaderMap) (key : String) :
    map.contains key = true ↔ map.getAll key ≠ [] := by
  rw [contains, getAll, toList, ← Array.any_toList, List.any_eq_true, ne_eq, List.map_eq_nil_iff,
    List.filter_eq_nil_iff]
  simp

/-! ### The main result -/

/-- What holds of the map that some steps lead to. -/
structure Keeps (steps : List Step) : Prop where
  /-- Whatever is done to the map, the entries it has stay as they are, and others are added behind
  them in order. -/
  appends : ∀ more, (∀ step ∈ more, step.isNew = false) →
    (run (steps ++ more)).toList = (run steps).toList ++ more.flatMap Step.added
  /-- A map that is made new has the headers it is made of. -/
  collects : ∀ headers, (run (steps ++ [.collect headers])).toList = headers
  /-- What it remembers of chunked framing is true. -/
  chunked : (run steps).isChunked = true ↔
    ∃ header ∈ (run steps).toList, header.key = "Transfer-Encoding" ∧
      header.value = Utf8.encode "chunked"
  /-- The first value of a key is the first of all its values. -/
  first : ∀ key, (run steps).get? key = ((run steps).getAll key).head?
  /-- A key is there exactly if it has a value. -/
  contains : ∀ key, (run steps).contains key = true ↔ (run steps).getAll key ≠ []
  /-- The values of a key are those of its entries, in their order. -/
  all : ∀ key, (run steps).getAll key
    = ((run steps).toList.filter fun header => header.key = key).map Header.value
  /-- There is no more to a map than its entries. -/
  eq_iff : ∀ other, run steps = run other ↔ (run steps).toList = (run other).toList
  /-- Lines that end with a line feed, none of them blank, are read apart from what follows. -/
  pieces : ∀ first second : Bytes, (∃ init, first = init ++ [Bytes.lf]) → first.HasNoBlank →
    (run steps).insertBlock (first ++ second)
      = (((run (steps ++ [.block first])).insertBlock second).1,
          ((run steps).insertBlock first).2
            + ((run (steps ++ [.block first])).insertBlock second).2)
  /-- Neither the map nor the number of bytes read depends on what follows a blank line. -/
  stops : ∀ front line rest : Bytes, front.IsWhole → line.IsBlank →
    (run steps).insertBlock (front ++ line ++ rest) = (run steps).insertBlock (front ++ line)

/-- **A header map keeps what it is given.** For all sequences of steps, the entries are only ever
appended to, chunked framing is remembered exactly if an entry selects it, the values of a key are
those of its entries, and maps are the same exactly if their entries are. A block can be read in
pieces that end with a line, and nothing behind its first blank line matters. -/
theorem keeps_run (steps : List Step) : Keeps steps := by
  have hlist := isOfList_run steps
  constructor
  case appends =>
    intro more hmore
    rw [run, List.foldl_append, foldl_apply _ hmore, toList_insertAll, run]
  case collects =>
    intro headers
    rw [run_concat]
    exact toList_ofList headers
  case chunked => exact hlist.isChunked_iff
  case first => exact get?_eq_head?_getAll _
  case contains => exact contains_iff _
  case all => exact fun key => rfl
  case eq_iff => exact fun other => hlist.eq_iff (isOfList_run other)
  case pieces =>
    intro first second hends hnone
    rw [insertBlock_append _ (.inr hends) hnone, run_concat]
    rfl
  case stops =>
    intro front line rest hwhole hblank
    exact insertBlock_of_blank _ hwhole hblank rest

/-- A map that was made of a list, read from the front of a block, and added to. -/
def mixedSteps : List Step :=
  [.insert { key := "Lost", value := [] }, .collect [{ key := "A", value := [233] }],
    .block (Utf8.encode "A: b\nno colon\r\n"), .extend [{ key := "B", value := [] }]]

/-- It has three entries, and reads the rest of the block up to the blank line. -/
theorem keeps_run_mixedSteps :
    (run mixedSteps).toList.map Header.key = ["A", "A", "B"] ∧
      Bytes.HasNoBlank (Utf8.encode "C: d\n") ∧
      (run mixedSteps).insertBlock (Utf8.encode "C: d\n" ++ Utf8.encode "\r\nE: f\n")
        = (run (mixedSteps ++ [.block (Utf8.encode "C: d\n")]), 7) := by
  have hnone : Bytes.HasNoBlank (Utf8.encode "C: d\n") := Bytes.hasNoBlank_iff.2 (by decide +kernel)
  refine ⟨by decide +kernel, hnone, ?_⟩
  rw [(keeps_run mixedSteps).pieces _ _ ⟨Utf8.encode "C: d", by decide +kernel⟩ hnone]
  decide +kernel

end HeaderMap

end NtripClient
