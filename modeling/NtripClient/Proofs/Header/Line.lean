import NtripClient.Proofs.Header.Block
import NtripClient.Proofs.Trim

/-!
# `NtripClient.Proofs.Header.Line`: what a header line is taken apart into

`Header.parse?` cuts a line with searches from both ends. Here the same is said without a search.
`Header.IsCut` says that the parts of a line make it up, and that the blanks in front of the value
and the bytes trimmed behind it are the longest runs there are. The two runs have different rules:
in front there are spaces and tabs only, as many as there are (`IsBlankFront`), and behind there are
carriage returns and line feeds as well, but at most four bytes (`IsTrimmedBack`).

* `IsLongest.prefix_iff` and `IsLongest.suffix_iff` tie a longest run at either end of a list to the
  search that finds it.
* `Header.parse?_eq_some_iff`: a line gives a header exactly if it can be cut into the parts of
  this header.
* `Header.parse?_exact` is the main statement. A value of blanks only is no exception: the back is
  trimmed of what the front has left.
-/

set_option autoImplicit false

namespace NtripClient

/-- A run with a property, such that none with this property is longer. -/
structure IsLongest {α : Type} (P : List α → Prop) (run : List α) : Prop where
  holds : P run
  longest : ∀ other, P other → other.length ≤ run.length

section
variable {α : Type} {p : α → Bool} {l run : List α}

/-- The longest run at the front of a list is the one that a search from the front takes. -/
theorem IsLongest.prefix_iff :
    IsLongest (fun run => run <+: l ∧ ∀ x ∈ run, p x = true) run ↔ run = l.takeWhile p := by
  have hfits : l.takeWhile p <+: l ∧ ∀ x ∈ l.takeWhile p, p x = true :=
    ⟨List.takeWhile_prefix p, fun _ => List.mem_takeWhile_imp⟩
  have hlongest : ∀ other, other <+: l ∧ (∀ x ∈ other, p x = true) →
      other.length ≤ (l.takeWhile p).length := by
    rintro other ⟨⟨rest, rfl⟩, hother⟩
    rw [List.takeWhile_append_of_pos hother, List.length_append]
    omega
  constructor
  · intro h
    -- Two runs at one front that are equally long are the same.
    have hle := hlongest run h.holds
    have hge := h.longest _ hfits
    exact (List.prefix_of_prefix_length_le h.holds.1 hfits.1 hle).eq_of_length (by omega)
  · rintro rfl
    exact ⟨hfits, hlongest⟩

/-- The longest run at the end of a list that is not too long is the one that a search from the end
takes. -/
theorem IsLongest.suffix_iff (most : Nat) :
    IsLongest (fun run => run <:+ l ∧ run.length ≤ most ∧ ∀ x ∈ run, p x = true) run ↔
      run.reverse = (l.reverse.take most).takeWhile p := by
  have hreverse : ∀ run : List α, (run <:+ l ∧ run.length ≤ most ∧ ∀ x ∈ run, p x = true) ↔
      run.reverse <+: l.reverse.take most ∧ ∀ x ∈ run.reverse, p x = true := by
    intro run
    simp [List.prefix_take_iff, and_assoc]
  rw [← IsLongest.prefix_iff]
  constructor
  · intro h
    refine ⟨(hreverse run).1 h.holds, ?_⟩
    intro other hother
    have hle := h.longest other.reverse ((hreverse _).2 (by simpa using hother))
    simpa using hle
  · intro h
    refine ⟨(hreverse run).2 h.holds, ?_⟩
    intro other hother
    have hle := h.longest other.reverse ((hreverse other).1 hother)
    simpa using hle

end

namespace Header

/-- Spaces and tabs at the front of some bytes. -/
def IsBlankFront (bytes run : Bytes) : Prop :=
  run <+: bytes ∧ ∀ b ∈ run, b = 32 ∨ b = 9

/-- At most four spaces, tabs, carriage returns and line feeds at the end of some bytes. -/
def IsTrimmedBack (bytes run : Bytes) : Prop :=
  run <:+ bytes ∧ run.length ≤ 4 ∧ ∀ b ∈ run, b = 32 ∨ b = 9 ∨ b = 13 ∨ b = 10

/-- The parts of a line. -/
structure IsCut (line key lead value trail : Bytes) : Prop where
  /-- The parts, with a colon behind the key, make up the line. -/
  split : line = key ++ 58 :: (lead ++ value ++ trail)
  /-- No colon comes before this one. -/
  key : 58 ∉ key
  /-- All the blanks behind the colon are in front of the value. -/
  lead : IsLongest (IsBlankFront (lead ++ value ++ trail)) lead
  /-- What can be trimmed from the end of all that remains is behind it. -/
  trail : IsLongest (IsTrimmedBack (value ++ trail)) trail

variable {line key lead value trail bytes : Bytes}

/-- The blanks in front of a value are all that stand in a row there. -/
theorem isLongest_blankFront_iff :
    IsLongest (IsBlankFront bytes) lead ↔ lead = bytes.takeWhile Bytes.isSpaceOrTab := by
  have hblank : ∀ b, Bytes.isSpaceOrTab b = true ↔ b = 32 ∨ b = 9 := by
    intro b
    simp [Bytes.isSpaceOrTab]
  simp only [← IsLongest.prefix_iff, hblank]
  rfl

/-- What is trimmed behind a value is all that stands in a row among its last bytes. -/
theorem isLongest_trimmedBack_iff :
    IsLongest (IsTrimmedBack bytes) trail ↔
      trail.reverse = (bytes.reverse.take trailingTrim).takeWhile isTrailing := by
  have htrailing : ∀ b, isTrailing b = true ↔ b = 32 ∨ b = 9 ∨ b = 13 ∨ b = 10 := by
    intro b
    simp [isTrailing, Bytes.isSpaceOrTab, Bytes.cr, Bytes.lf, or_assoc]
  simp only [← IsLongest.suffix_iff, htrailing]
  rfl

/-- A value is what the two runs leave between them. -/
theorem trimValue_eq_iff :
    trimValue bytes = value ↔ ∃ lead trail, bytes = lead ++ value ++ trail ∧
      IsLongest (IsBlankFront bytes) lead ∧ IsLongest (IsTrimmedBack (value ++ trail)) trail := by
  have hbytes := List.takeWhile_append_dropWhile (p := Bytes.isSpaceOrTab) (l := bytes)
  have hlength : ∀ {rest trail : Bytes}, IsLongest (IsTrimmedBack rest) trail →
      trailingLength rest = trail.length := by
    intro rest trail htrail
    rw [trailingLength, ← isLongest_trimmedBack_iff.1 htrail, List.length_reverse]
  constructor
  · rintro rfl
    obtain ⟨trail, htrail⟩ : ∃ trail,
        IsLongest (IsTrimmedBack (bytes.dropWhile Bytes.isSpaceOrTab)) trail :=
      ⟨_, isLongest_trimmedBack_iff.2 (List.reverse_reverse _)⟩
    have hrest : trimValue bytes ++ trail = bytes.dropWhile Bytes.isSpaceOrTab := by
      show List.take _ _ ++ trail = _
      rw [hlength htrail]
      exact List.suffix_iff_eq_append.1 htrail.holds.1
    refine ⟨_, trail, ?_, isLongest_blankFront_iff.2 rfl, ?_⟩
    · rw [List.append_assoc, hrest, hbytes]
    · rwa [hrest]
  · rintro ⟨lead, trail, hsplit, hlead, htrail⟩
    -- The front is what the search takes, so the rest is what it leaves.
    rw [isLongest_blankFront_iff.1 hlead, List.append_assoc] at hsplit
    have hrest := List.append_cancel_left (hbytes.trans hsplit)
    show List.take _ _ = value
    rw [hrest, hlength htrail, List.length_append, Nat.add_sub_cancel, List.take_left]

/-- A line is cut at its first colon. -/
theorem parse?_append (hkey : colon ∉ key) (after : Bytes) :
    parse? (key ++ colon :: after) = some { key := Utf8.decode key, value := trimValue after } := by
  rw [parse?, dropWhile_bne_append hkey, takeWhile_bne_append hkey]

/-- A line gives a header exactly if it can be cut into the parts of this header. -/
theorem parse?_eq_some_iff {header : Header} :
    parse? line = some header ↔ ∃ key lead trail, header.key = Utf8.decode key ∧
      IsCut line key lead header.value trail := by
  constructor
  · intro h
    have hcolon : colon ∈ line := (isSome_parse?_iff line).1 (by rw [h]; rfl)
    obtain ⟨key, after, rfl, hkey⟩ := List.eq_append_cons_of_mem hcolon
    cases (parse?_append hkey after).symm.trans h
    obtain ⟨lead, trail, hafter, hlead, htrail⟩ := trimValue_eq_iff.1 (Eq.refl (trimValue after))
    rw [hafter] at hlead
    exact ⟨key, lead, trail, rfl, congrArg (fun after => key ++ colon :: after) hafter, hkey, hlead,
      htrail⟩
  · rintro ⟨key, lead, trail, hdecode, rfl, hkey, hlead, htrail⟩
    have hvalue := trimValue_eq_iff.2 ⟨lead, trail, rfl, hlead, htrail⟩
    have hparse := parse?_append hkey (lead ++ header.value ++ trail)
    rw [hvalue, ← hdecode] at hparse
    exact hparse

/-- A value does not begin with a blank, which would be one more in front of it. -/
theorem IsCut.head (h : IsCut line key lead value trail) : ∀ b ∈ value.head?, b ≠ 32 ∧ b ≠ 9 := by
  intro b hb
  obtain ⟨rest, rfl⟩ := List.head?_eq_some_iff.1 hb
  rw [← not_or]
  intro hblank
  have hmore : IsBlankFront (lead ++ b :: rest ++ trail) (lead ++ [b]) := by
    constructor
    · exact ⟨rest ++ trail, by simp⟩
    · intro x hx
      rcases List.mem_append.1 hx with hlead | hlast
      · exact h.lead.holds.2 x hlead
      · rwa [List.mem_singleton.1 hlast]
  have hle := h.lead.longest _ hmore
  rw [List.length_append, List.length_singleton] at hle
  omega

/-- A value ends with a byte that can be trimmed only if no more than those behind it may be. -/
theorem IsCut.last (h : IsCut line key lead value trail) :
    ∀ b ∈ value.getLast?, b = 32 ∨ b = 9 ∨ b = 13 ∨ b = 10 → trail.length = 4 := by
  intro b hb htrimmed
  obtain ⟨front, rfl⟩ := List.getLast?_eq_some_iff.1 hb
  have hmost := h.trail.holds.2.1
  by_contra hne
  have hmore : IsTrimmedBack (front ++ [b] ++ trail) (b :: trail) := by
    refine ⟨⟨front, by simp⟩, ?_, ?_⟩
    · rw [List.length_cons]
      omega
    · intro x hx
      rcases List.mem_cons.1 hx with rfl | hx
      · exact htrimmed
      · exact h.trail.holds.2.2 x hx
  have hle := h.trail.longest _ hmore
  rw [List.length_cons] at hle
  omega

/-- **What a header line is taken apart into.** For all bytes, a line without a colon holds no
header. A line with a colon holds the header whose key is the text in front of the first one, and
whose value is what is left behind it between two runs that are as long as they may be. Such a value
does not begin with a blank, and it ends with a byte that could be trimmed only if four were. -/
theorem parse?_exact (line : Bytes) :
    (parse? line = none ↔ 58 ∉ line) ∧
      (∀ header, parse? line = some header ↔ ∃ key lead trail, header.key = Utf8.decode key ∧
        IsCut line key lead header.value trail) ∧
      ∀ key lead value trail, IsCut line key lead value trail →
        (∀ b ∈ value.head?, b ≠ 32 ∧ b ≠ 9) ∧
        ∀ b ∈ value.getLast?, b = 32 ∨ b = 9 ∨ b = 13 ∨ b = 10 → trail.length = 4 := by
  refine ⟨?_, fun header => parse?_eq_some_iff, fun key lead value trail h => ⟨h.head, h.last⟩⟩
  rw [← Option.not_isSome_iff_eq_none, isSome_parse?_iff]
  rfl

/-- Six bytes could be trimmed from this line, and the colon in its value counts for nothing. -/
example : parse? (Utf8.encode " Key :\t a: b\t \r\r\n\n")
    = some { key := " Key ", value := Utf8.encode "a: b\t " } := by
  decide +kernel

end Header

end NtripClient
