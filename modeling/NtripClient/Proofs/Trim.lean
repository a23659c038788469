import Mathlib.Data.List.DropRight
import NtripClient.Bytes

/-!
# `NtripClient.Proofs.Trim`: what is left of a text when it is trimmed or cut

Readers trim the texts they take apart: a chunk size on both sides, a status line at its end.
`dropTrailing` is `List.rdropWhile`, so what is known of the end of a list is known of it. Readers
also cut a text at the first mark of some kind, and `takeWhile_bne_append` and
`dropWhile_bne_append` say what they get.
`dropTrailing_dropWhile_eq_iff` says without a search which part of a text is left between its
blank ends.
-/

set_option autoImplicit false

namespace NtripClient

variable {α : Type} {p : α → Bool} {l text tail : List α}

/-- Trimming the end of a list is what the library calls dropping from the right. -/
theorem dropTrailing_eq_rdropWhile (p : α → Bool) (l : List α) :
    dropTrailing p l = l.rdropWhile p := rfl

/-- Nothing is left that was not there. -/
theorem isPrefix_dropTrailing (p : α → Bool) (l : List α) : dropTrailing p l <+: l :=
  List.rdropWhile_prefix p l

/-- Elements that are all dropped make no difference at the end. -/
theorem dropTrailing_append_of_pos (h : ∀ x ∈ tail, p x = true) :
    dropTrailing p (l ++ tail) = dropTrailing p l := by
  rw [dropTrailing, List.reverse_append,
    List.dropWhile_append_of_pos fun x hx => h x (List.mem_reverse.1 hx), dropTrailing]

/-- What is in front of an element that stays does stay. -/
theorem dropTrailing_append_of_ne_nil (h : dropTrailing p tail ≠ []) :
    dropTrailing p (l ++ tail) = l ++ dropTrailing p tail := by
  have hstays : tail.reverse.dropWhile p ≠ [] := fun hnil => h (by rw [dropTrailing, hnil]; rfl)
  rw [dropTrailing, List.reverse_append, List.dropWhile_append, if_neg, List.reverse_append,
    List.reverse_reverse, dropTrailing]
  simpa using hstays

/-- Nothing is dropped behind an element that stays. -/
theorem dropTrailing_eq_self (h : ∀ x ∈ l.getLast?, p x = false) : dropTrailing p l = l := by
  rw [dropTrailing_eq_rdropWhile, List.rdropWhile_eq_self_iff]
  intro hne
  rw [h _ (List.getLast?_eq_getLast_of_ne_nil hne)]
  exact Bool.false_ne_true

/-- An end that stays keeps all that is in front of it. -/
theorem dropTrailing_append_of_getLast? (h : ∀ x ∈ l.getLast?, p x = false) :
    dropTrailing p (l ++ tail) = l ++ dropTrailing p tail := by
  by_cases hnil : dropTrailing p tail = []
  · have hdropped : ∀ x ∈ tail, p x = true := List.rdropWhile_eq_nil_iff.1 hnil
    rw [dropTrailing_append_of_pos hdropped, hnil, List.append_nil, dropTrailing_eq_self h]
  · exact dropTrailing_append_of_ne_nil hnil

/-- An element is left, or it is one of those that are dropped. -/
theorem mem_dropTrailing_or {x : α} (h : x ∈ l) : x ∈ dropTrailing p l ∨ p x = true := by
  have hl : dropTrailing p l ++ l.rtakeWhile p = l := List.rdropWhile_append_rtakeWhile
  rw [← hl] at h
  rcases List.mem_append.1 h with hleft | hdropped
  · exact .inl hleft
  · exact .inr (List.mem_rtakeWhile_imp hdropped)

/-- The last element that is left stays. -/
theorem of_mem_getLast?_dropTrailing {x : α} (h : x ∈ (dropTrailing p l).getLast?) :
    p x = false := by
  have hne : l.rdropWhile p ≠ [] := by
    rintro hnil
    rw [dropTrailing_eq_rdropWhile, hnil] at h
    cases h
  have hlast := List.rdropWhile_last_not p l hne
  rw [dropTrailing_eq_rdropWhile, List.getLast?_eq_getLast_of_ne_nil hne] at h
  cases h
  simpa using hlast

/-- The first element that is left behind a run that was dropped is not of the run. -/
theorem of_mem_head?_dropWhile {x : α} (h : x ∈ (l.dropWhile p).head?) : p x = false := by
  have hnot := List.head?_dropWhile_not p l
  rw [h] at hnot
  simpa using hnot

/-! ### Cutting at the first of its kind -/

section
variable [BEq α] [LawfulBEq α] {x : α} {front : List α}

/-- What is not among these is unlike each of them. -/
theorem bne_of_not_mem (h : x ∉ front) : ∀ y ∈ front, (y != x) = true := by
  intro y hy
  rw [bne_iff_ne]
  rintro rfl
  exact h hy

/-- In front of the first element of its kind is what stands there. -/
theorem takeWhile_bne_append (h : x ∉ front) (rest : List α) :
    (front ++ x :: rest).takeWhile (· != x) = front := by
  rw [List.takeWhile_append_of_pos (bne_of_not_mem h)]
  simp

/-- And the element is the first of what is left. -/
theorem dropWhile_bne_append (h : x ∉ front) (rest : List α) :
    (front ++ x :: rest).dropWhile (· != x) = x :: rest := by
  rw [List.dropWhile_append_of_pos (bne_of_not_mem h)]
  simp

/-- There is an element of the kind where a search for it stops, or the list is at its end. -/
theorem dropWhile_bne_cases (x : α) (l : List α) :
    l.dropWhile (· != x) = [] ∨ ∃ rest, l.dropWhile (· != x) = x :: rest := by
  cases hdrop : l.dropWhile (· != x) with
  | nil => exact .inl rfl
  | cons y rest =>
    have hy : (y != x) = false :=
      of_mem_head?_dropWhile (p := (· != x)) (l := l) (by rw [hdrop]; rfl)
    rw [bne_eq_false_iff_eq] at hy
    exact .inr ⟨rest, by rw [hy]⟩

end

/-! ### Both ends -/

/-- What is left of a text between its ends is the part that lies between elements that are all
dropped, and that starts and ends with elements that stay. -/
theorem dropTrailing_dropWhile_eq_iff :
    dropTrailing p (l.dropWhile p) = text ↔
      ∃ before after, l = before ++ text ++ after ∧
        (∀ x ∈ before, p x = true) ∧ (∀ x ∈ after, p x = true) ∧
        (∀ x ∈ text.head?, p x = false) ∧ ∀ x ∈ text.getLast?, p x = false := by
  constructor
  · rintro rfl
    have hbehind : dropTrailing p (l.dropWhile p) ++ (l.dropWhile p).rtakeWhile p
        = l.dropWhile p := List.rdropWhile_append_rtakeWhile
    refine ⟨l.takeWhile p, (l.dropWhile p).rtakeWhile p, ?_, ?_, ?_, ?_, ?_⟩
    · rw [List.append_assoc, hbehind, List.takeWhile_append_dropWhile]
    · exact fun x hx => List.mem_takeWhile_imp hx
    · exact fun x hx => List.mem_rtakeWhile_imp hx
    · intro x hx
      refine of_mem_head?_dropWhile (l := l) ?_
      -- What is left has its first element from the text behind the front.
      rw [← hbehind, List.head?_append, hx]
      rfl
    · exact fun x hx => of_mem_getLast?_dropTrailing hx
  · rintro ⟨before, after, rfl, hbefore, hafter, hhead, hlast⟩
    rw [List.append_assoc, List.dropWhile_append_of_pos hbefore]
    cases text with
    | nil =>
      rw [List.nil_append, List.dropWhile_eq_nil_iff.2 hafter]
      rfl
    | cons x text =>
      have hx : ¬ p x = true := by
        rw [hhead x rfl]
        exact Bool.false_ne_true
      rw [List.cons_append, List.dropWhile_cons_of_neg hx, ← List.cons_append,
        dropTrailing_append_of_pos hafter, dropTrailing_eq_self hlast]

end NtripClient
