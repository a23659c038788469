/-!
# `NtripClient.Text.Range`: sets of characters as ranges of code points

A Unicode property is kept as closed ranges of code points, ascending and apart. A
search can then stop at the first range that lies behind the code point it looks for,
and finds what a search of all ranges would find (`contains_iff`).
-/

set_option autoImplicit false

namespace NtripClient

/-- Closed ranges of code points. -/
abbrev CodeRanges := List (Nat × Nat)

namespace CodeRanges

/-- Looks for a range that holds `code`. The ranges must be ascending. -/
def contains (code : Nat) : CodeRanges → Bool
  | [] => false
  | (first, last) :: rest =>
    if code < first then false else code ≤ last || contains code rest

/-- The ranges are ascending and apart, and none of them is empty. -/
def isAscending : CodeRanges → Bool
  | [] => true
  | [(first, last)] => first ≤ last
  | (first, last) :: (next, stop) :: rest =>
    first ≤ last && last + 1 < next && isAscending ((next, stop) :: rest)

/-- Ranges after the first one lie behind it. -/
theorem lt_of_mem_of_isAscending {first last : Nat} {rest : CodeRanges}
    (h : isAscending ((first, last) :: rest) = true) {range : Nat × Nat} (hr : range ∈ rest) :
    last < range.1 := by
  induction rest generalizing first last with
  | nil => cases hr
  | cons head rest ih =>
    obtain ⟨next, stop⟩ := head
    simp only [isAscending, Bool.and_eq_true, decide_eq_true_eq] at h
    obtain ⟨⟨-, hnext⟩, htail⟩ := h
    rcases List.mem_cons.1 hr with rfl | hr
    · exact Nat.lt_of_succ_lt hnext
    · have hle : next ≤ stop := by
        cases rest with
        | nil => simpa [isAscending] using htail
        | cons head rest =>
          simp only [isAscending, Bool.and_eq_true, decide_eq_true_eq] at htail
          exact htail.1.1
      have := ih htail hr
      omega

/-- What follows an ascending table's first range is ascending. -/
theorem isAscending_tail {range : Nat × Nat} {rest : CodeRanges}
    (h : isAscending (range :: rest) = true) : isAscending rest = true := by
  cases rest with
  | nil => rfl
  | cons head rest =>
    simp only [isAscending, Bool.and_eq_true] at h
    exact h.2

/-- The search finds every code point that lies in one of the ranges, and no other. -/
theorem contains_iff {ranges : CodeRanges} (h : ranges.isAscending = true) (code : Nat) :
    ranges.contains code = true ↔ ∃ range ∈ ranges, range.1 ≤ code ∧ code ≤ range.2 := by
  induction ranges with
  | nil => simp [contains]
  | cons range rest ih =>
    obtain ⟨first, last⟩ := range
    simp only [contains, List.mem_cons, exists_eq_or_imp]
    split
    · rename_i hlt
      -- The other ranges lie even further behind.
      constructor
      · intro hfalse
        cases hfalse
      · rintro (⟨hle, -⟩ | ⟨range, hr, hle, -⟩)
        · omega
        · have hbehind := lt_of_mem_of_isAscending h hr
          have hrange : first ≤ last := by
            cases rest with
            | nil => cases hr
            | cons head rest =>
              simp only [isAscending, Bool.and_eq_true, decide_eq_true_eq] at h
              exact h.1.1
          omega
    · rename_i hge
      rw [Bool.or_eq_true, decide_eq_true_eq, ih (isAscending_tail h)]
      have hfirst : first ≤ code := Nat.not_lt.1 hge
      simp [hfirst]

/-- What is not found lies outside of every range. -/
theorem contains_eq_false_iff {ranges : CodeRanges} (h : ranges.isAscending = true)
    (code : Nat) :
    ranges.contains code = false ↔ ∀ range ∈ ranges, code < range.1 ∨ range.2 < code := by
  rw [← Bool.not_eq_true, contains_iff h]
  constructor
  · intro hnone range hr
    have hnot : ¬ (range.1 ≤ code ∧ code ≤ range.2) := fun hin => hnone ⟨range, hr, hin⟩
    omega
  · rintro houtside ⟨range, hr, hfirst, hlast⟩
    have := houtside range hr
    omega

end CodeRanges

end NtripClient
