import NtripClient.Bytes

/-!
# `NtripClient.Proofs.Search`: searching bytes that are still arriving

A reader looks for the end of a line or a header block in the bytes it has, and looks again
when more arrive. `find?_eq_some_iff` says what a search finds: the first place at which
the pattern stands. From it follow the two facts that make it safe to look early and to
resume.

A result is final: an end that was found stays where it is, and an end that was not there
yet lies behind the bytes of that time (`settles_lineEnd?`, `settles_blockEnd?`).

Nothing is missed: `Searched` says that no occurrence starts in the first bytes, whatever
is appended. A search that starts behind them finds what a search from the front finds
(`lineEnd?_eq`, `blockEnd?_eq`).
-/

set_option autoImplicit false

namespace NtripClient.Bytes

variable {pattern bytes : Bytes} {i n stop : Nat}

/-! ### What a search finds -/

/-- The offset that a search starts from is added to what it finds. -/
theorem findAfter_eq (pattern : Bytes) (offset : Nat) (bytes : Bytes) :
    findAfter pattern offset bytes = (find? pattern bytes).map (· + offset) := by
  induction bytes generalizing offset with
  | nil => simp only [find?, findAfter]; split <;> simp
  | cons b rest ih =>
    simp only [find?, findAfter]
    split
    · simp
    · rw [ih (offset + 1), ih (0 + 1), Option.map_map]
      congr 1
      funext k
      simp only [Function.comp]
      omega

/-- A pattern stands at the front, or it is looked for behind the first byte. -/
theorem find?_cons (pattern : Bytes) (b : UInt8) (rest : Bytes) :
    find? pattern (b :: rest)
      = if pattern <+: b :: rest then some 0 else (find? pattern rest).map (· + 1) := by
  rw [find?, findAfter, findAfter_eq]
  simp only [List.isPrefixOf_iff_prefix]

/-- A search finds the first place at which the pattern stands. -/
theorem find?_eq_some_iff (hne : pattern ≠ []) :
    find? pattern bytes = some i ↔
      pattern <+: bytes.drop i ∧ ∀ j < i, ¬ pattern <+: bytes.drop j := by
  induction bytes generalizing i with
  | nil => simp [find?, findAfter, hne]
  | cons b rest ih =>
    rw [find?_cons]
    by_cases h : pattern <+: b :: rest
    · -- The pattern stands at the front, and no place comes before that.
      rw [if_pos h]
      constructor
      · intro hi
        cases hi
        exact ⟨h, fun j hj => absurd hj (Nat.not_lt_zero j)⟩
      · rintro ⟨-, hfirst⟩
        cases i with
        | zero => rfl
        | succ i => exact absurd h (hfirst 0 (Nat.succ_pos i))
    · -- The front is no such place, and the others are those of the rest.
      rw [if_neg h]
      cases i with
      | zero => simp [h]
      | succ i =>
        simp only [Option.map_eq_some_iff, Nat.add_right_cancel_iff, exists_eq_right, ih,
          List.drop_succ_cons]
        refine and_congr_right fun _ => ⟨?_, ?_⟩
        · intro hfirst j hj
          cases j with
          | zero => exact h
          | succ j => exact hfirst j (Nat.lt_of_succ_lt_succ hj)
        · intro hfirst j hj
          exact hfirst (j + 1) (Nat.succ_lt_succ hj)

/-- A search finds nothing if the pattern stands nowhere. -/
theorem find?_eq_none_iff (hne : pattern ≠ []) :
    find? pattern bytes = none ↔ ∀ j, ¬ pattern <+: bytes.drop j := by
  induction bytes with
  | nil => simp [find?, findAfter, hne]
  | cons b rest ih =>
    rw [find?_cons]
    by_cases h : pattern <+: b :: rest
    · rw [if_pos h]
      constructor
      · intro hnone
        cases hnone
      · intro hall
        exact absurd h (hall 0)
    · rw [if_neg h, Option.map_eq_none_iff, ih]
      refine ⟨?_, fun hall j => hall (j + 1)⟩
      intro hall j
      cases j with
      | zero => exact h
      | succ j => exact hall j

/-- The pattern lies within the bytes in which it stands. -/
theorem add_length_le_of_prefix_drop (hne : pattern ≠ []) (h : pattern <+: bytes.drop i) :
    i + pattern.length ≤ bytes.length := by
  have hlen := h.length_le
  have hpos := List.length_pos_iff.2 hne
  rw [List.length_drop] at hlen
  omega

/-- Bytes that are appended do not change what stands within the others. -/
theorem prefix_drop_append_iff (more : Bytes) (h : i + pattern.length ≤ bytes.length) :
    pattern <+: (bytes ++ more).drop i ↔ pattern <+: bytes.drop i := by
  rw [List.drop_append_of_le_length (by omega)]
  refine ⟨?_, fun hprefix => hprefix.trans (List.prefix_append _ _)⟩
  intro hprefix
  refine List.prefix_of_prefix_length_le hprefix (List.prefix_append _ _) ?_
  rw [List.length_drop]
  omega

/-- A pattern is found behind bytes that do not hold its first one. -/
theorem find?_append_of_not_mem {b : UInt8} {pattern front : Bytes} (h : b ∉ front)
    (rest : Bytes) :
    find? (b :: pattern) (front ++ (b :: pattern) ++ rest) = some front.length := by
  induction front with
  | nil =>
    rw [List.nil_append, List.cons_append, find?_cons, if_pos]
    · rfl
    · exact List.prefix_append (b :: pattern) rest
  | cons first front ih =>
    have hfirst : ¬ b :: pattern <+: first :: (front ++ (b :: pattern) ++ rest) := by
      intro hprefix
      exact h (by rw [(List.cons_prefix_cons.1 hprefix).1]; exact List.mem_cons_self)
    have hfront : b ∉ front := fun hmem => h (List.mem_cons_of_mem _ hmem)
    rw [List.cons_append, List.cons_append, find?_cons, if_neg hfirst, ih hfront]
    rfl

/-! ### Results are final -/

/-- A pattern that was found is found at the same place when bytes are appended. -/
theorem find?_append (hne : pattern ≠ []) (h : find? pattern bytes = some i) (more : Bytes) :
    find? pattern (bytes ++ more) = some i := by
  obtain ⟨hat, hfirst⟩ := (find?_eq_some_iff hne).1 h
  have hle := add_length_le_of_prefix_drop hne hat
  refine (find?_eq_some_iff hne).2 ⟨(prefix_drop_append_iff more hle).2 hat, ?_⟩
  intro j hj hat'
  exact hfirst j hj ((prefix_drop_append_iff more (by omega)).1 hat')

/-- A pattern that is found only after bytes were appended reaches into them. -/
theorem length_lt_of_find?_append (hne : pattern ≠ []) {more : Bytes}
    (hnone : find? pattern bytes = none) (h : find? pattern (bytes ++ more) = some i) :
    bytes.length < i + pattern.length := by
  refine Nat.lt_of_not_le ?_
  intro hle
  obtain ⟨hat, -⟩ := (find?_eq_some_iff hne).1 h
  exact (find?_eq_none_iff hne).1 hnone i ((prefix_drop_append_iff more hle).1 hat)

/-- A search for an end whose results are final: an end that was found stays where it is
when bytes are appended, and one that appears then lies behind the bytes there were. -/
structure Settles (stop? : Bytes → Option Nat) : Prop where
  within : ∀ {bytes stop}, stop? bytes = some stop → stop ≤ bytes.length
  stays : ∀ {bytes stop} (more : Bytes), stop? bytes = some stop →
    stop? (bytes ++ more) = some stop
  later : ∀ {bytes more stop}, stop? bytes = none → stop? (bytes ++ more) = some stop →
    bytes.length < stop

/-- What is found depends on no byte behind it. -/
theorem Settles.take {stop? : Bytes → Option Nat} (h : Settles stop?) {bytes : Bytes} {stop : Nat}
    (hstop : stop? bytes = some stop) : stop? (bytes.take stop) = some stop := by
  have hlength : (bytes.take stop).length = stop := List.length_take_of_le (h.within hstop)
  have hsplit : bytes.take stop ++ bytes.drop stop = bytes := List.take_append_drop _ _
  cases hfound : stop? (bytes.take stop) with
  | none =>
    -- An end that comes with later bytes lies behind the first ones.
    have hlater := h.later hfound (hsplit.symm ▸ hstop)
    omega
  | some found =>
    have hstays := h.stays (bytes.drop stop) hfound
    rw [hsplit, hstop] at hstays
    exact hstays.symm

/-! ### Nothing is missed -/

/-- The pattern does not stand at any of the first `n` places, and it will not when bytes
are appended. -/
def Searched (pattern : Bytes) (n : Nat) (bytes : Bytes) : Prop :=
  ∀ j < n, j + pattern.length ≤ bytes.length ∧ ¬ pattern <+: bytes.drop j

/-- Before a search nothing is done. -/
theorem searched_zero (pattern bytes : Bytes) : Searched pattern 0 bytes :=
  fun j hj => absurd hj (Nat.not_lt_zero j)

/-- A place that is done stays so when bytes are appended. -/
theorem Searched.append (h : Searched pattern n bytes) (more : Bytes) :
    Searched pattern n (bytes ++ more) := by
  intro j hj
  obtain ⟨hle, hnot⟩ := h j hj
  refine ⟨by rw [List.length_append]; omega, fun hat => hnot ?_⟩
  exact (prefix_drop_append_iff more hle).1 hat

/-- After a search in vain, all places are done but those at which the pattern may have
begun. -/
theorem searched_of_find?_eq_none (hne : pattern ≠ []) (h : find? pattern bytes = none) :
    Searched pattern (bytes.length - (pattern.length - 1)) bytes := by
  have hpos := List.length_pos_iff.2 hne
  exact fun j hj => ⟨by omega, (find?_eq_none_iff hne).1 h j⟩

/-- A search that leaves out places that are done finds what a search from the front finds. -/
theorem findFrom?_eq_find? (hne : pattern ≠ []) (h : Searched pattern n bytes) :
    findFrom? pattern n bytes = find? pattern bytes := by
  rw [findFrom?, findAfter_eq]
  cases hfound : find? pattern (bytes.drop n) with
  | none =>
    have hnone := (find?_eq_none_iff hne).1 hfound
    refine ((find?_eq_none_iff hne).2 ?_).symm
    intro j hat
    -- A place is among those that are done, or behind them.
    by_cases hj : j < n
    · exact (h j hj).2 hat
    · refine hnone (j - n) ?_
      rwa [List.drop_drop, Nat.add_sub_of_le (by omega)]
  | some i =>
    obtain ⟨hat, hfirst⟩ := (find?_eq_some_iff hne).1 hfound
    rw [List.drop_drop, Nat.add_comm] at hat
    refine ((find?_eq_some_iff hne).2 ⟨hat, ?_⟩).symm
    intro j hj hat'
    change j < i + n at hj
    by_cases hlt : j < n
    · exact (h j hlt).2 hat'
    · refine hfirst (j - n) (by omega) ?_
      rwa [List.drop_drop, Nat.add_sub_of_le (by omega)]

/-! ### The ends of lines and header blocks -/

/-- A line end has bytes. -/
theorem crlf_ne_nil : crlf ≠ [] := by decide

/-- Two line ends have bytes. -/
theorem crlfcrlf_ne_nil : crlf ++ crlf ≠ [] := by decide

/-- A line ends behind its first line end. -/
theorem lineEnd?_zero (bytes : Bytes) : lineEnd? 0 bytes = (find? crlf bytes).map (· + 2) := rfl

/-- A block is an empty line, or it ends behind its first two line ends in a row. -/
theorem blockEnd?_zero (bytes : Bytes) :
    blockEnd? 0 bytes
      = if crlf <+: bytes then some 2 else (find? (crlf ++ crlf) bytes).map (· + 4) := by
  simp only [blockEnd?, List.isPrefixOf_iff_prefix]
  rfl

/-- A search for the end of a line may be resumed. -/
theorem lineEnd?_eq (h : Searched crlf n bytes) : lineEnd? n bytes = lineEnd? 0 bytes := by
  rw [lineEnd?, findFrom?_eq_find? crlf_ne_nil h, lineEnd?_zero]

/-- A search for the end of a block may be resumed. -/
theorem blockEnd?_eq (h : Searched (crlf ++ crlf) n bytes) :
    blockEnd? n bytes = blockEnd? 0 bytes := by
  rw [blockEnd?, findFrom?_eq_find? crlfcrlf_ne_nil h, blockEnd?_zero]
  simp only [List.isPrefixOf_iff_prefix]

/-- A line that ends goes no further when bytes are appended. -/
theorem settles_lineEnd? : Settles (lineEnd? 0) where
  within {bytes stop} h := by
    rw [lineEnd?_zero] at h
    obtain ⟨i, hi, rfl⟩ := Option.map_eq_some_iff.1 h
    exact add_length_le_of_prefix_drop crlf_ne_nil ((find?_eq_some_iff crlf_ne_nil).1 hi).1
  stays {bytes stop} more h := by
    rw [lineEnd?_zero] at h ⊢
    obtain ⟨i, hi, rfl⟩ := Option.map_eq_some_iff.1 h
    rw [find?_append crlf_ne_nil hi]
    rfl
  later {bytes more stop} hnone h := by
    rw [lineEnd?_zero] at hnone h
    obtain ⟨i, hi, rfl⟩ := Option.map_eq_some_iff.1 h
    exact length_lt_of_find?_append crlf_ne_nil (Option.map_eq_none_iff.1 hnone) hi

/-- Bytes that do not start with a line end and hold a whole one do not start with one
when others are appended. -/
theorem not_crlf_prefix_append {bytes : Bytes} (h : ¬ crlf <+: bytes) (hlen : 2 ≤ bytes.length)
    (more : Bytes) : ¬ crlf <+: bytes ++ more := by
  intro hprefix
  have hle : 0 + crlf.length ≤ bytes.length := by rwa [Nat.zero_add]
  exact h ((prefix_drop_append_iff more hle).1 hprefix)

/-- A header block that ends goes no further when bytes are appended. -/
theorem settles_blockEnd? : Settles (blockEnd? 0) where
  within {bytes stop} h := by
    rw [blockEnd?_zero] at h
    split at h
    · rename_i hempty
      cases h
      exact hempty.length_le
    · obtain ⟨i, hi, rfl⟩ := Option.map_eq_some_iff.1 h
      exact add_length_le_of_prefix_drop crlfcrlf_ne_nil
        ((find?_eq_some_iff crlfcrlf_ne_nil).1 hi).1
  stays {bytes stop} more h := by
    rw [blockEnd?_zero] at h ⊢
    by_cases hempty : crlf <+: bytes
    · -- An empty block starts with the line end that ends it.
      rw [if_pos (hempty.trans (List.prefix_append _ _))]
      rwa [if_pos hempty] at h
    · rw [if_neg hempty] at h
      obtain ⟨i, hi, rfl⟩ := Option.map_eq_some_iff.1 h
      have hle := add_length_le_of_prefix_drop crlfcrlf_ne_nil
        ((find?_eq_some_iff crlfcrlf_ne_nil).1 hi).1
      have hlen : 2 ≤ bytes.length := Nat.le_trans (Nat.le_add_left 2 (i + 2)) hle
      rw [if_neg (not_crlf_prefix_append hempty hlen more), find?_append crlfcrlf_ne_nil hi]
      rfl
  later {bytes more stop} hnone h := by
    rw [blockEnd?_zero] at hnone h
    split at hnone
    · cases hnone
    · rename_i hempty
      split at h
      · -- The line end stands at the front only because its second byte was appended.
        rename_i hprefix
        cases h
        refine Nat.lt_of_not_le ?_
        intro hlen
        exact not_crlf_prefix_append hempty hlen more hprefix
      · obtain ⟨i, hi, rfl⟩ := Option.map_eq_some_iff.1 h
        exact length_lt_of_find?_append crlfcrlf_ne_nil (Option.map_eq_none_iff.1 hnone) hi

/-- After a search for a line end in vain, only the last byte may belong to one. -/
theorem searched_of_lineEnd? (h : lineEnd? 0 bytes = none) :
    Searched crlf (bytes.length - 1) bytes :=
  searched_of_find?_eq_none crlf_ne_nil (Option.map_eq_none_iff.1 h)

/-- After a search for the end of a block in vain, only the last three bytes may belong to
one. -/
theorem searched_of_blockEnd? (h : blockEnd? 0 bytes = none) :
    Searched (crlf ++ crlf) (bytes.length - 3) bytes := by
  rw [blockEnd?_zero] at h
  split at h
  · cases h
  · exact searched_of_find?_eq_none crlfcrlf_ne_nil (Option.map_eq_none_iff.1 h)

end NtripClient.Bytes
