import NtripClient.Bytes
import NtripClient.Text.Extending
import NtripClient.Text.Numeral
import NtripClient.Text.Printable

/-!
# `NtripClient.Text.Quoted`: text and bytes between double quotes

How a value is shown to a reader of a log. Text keeps every character but the
quote, the backslash, those that cannot be seen and those that would attach to the
character before them (`escapeChar_eq_self_iff`). A byte string keeps printable ASCII
only, and carries a `b` before its opening quote.
-/

set_option autoImplicit false

namespace NtripClient.Quoted

/-- The escapes that text and byte strings share. -/
def escape? (code : Nat) : Option (List Char) :=
  if code = 0x22 then some ['\\', '"']
  else if code = 0x5C then some ['\\', '\\']
  else if code = 0x0A then some ['\\', 'n']
  else if code = 0x0D then some ['\\', 'r']
  else if code = 0x09 then some ['\\', 't']
  else if code = 0x00 then some ['\\', '0']
  else none

/-- The character stands for itself: it can be seen, and does not attach to the one
before it. -/
def staysPlain (c : Char) : Bool :=
  isPrintable c && !isExtending c && !isIgnorable c

/-- One character of quoted text. -/
def escapeChar (c : Char) : List Char :=
  match escape? c.toNat with
  | some escaped => escaped
  | none =>
    if staysPlain c then [c]
    else ['\\', 'u', '\x7b'] ++ Numeral.hexadecimal c.toNat ++ ['\x7d']

/-- Every escape that text and byte strings share has two characters. -/
theorem length_of_escape? {code : Nat} {escaped : List Char} (h : escape? code = some escaped) :
    escaped.length = 2 := by
  unfold escape? at h
  repeat' split at h
  all_goals cases h <;> rfl

/-- The characters that stay are those outside of the ranges of all three tables. -/
theorem staysPlain_iff (c : Char) : staysPlain c = true ↔
    ∀ range ∈ unprintableRanges ++ extendingRanges ++ ignorableRanges,
      c.toNat < range.1 ∨ range.2 < c.toNat := by
  simp only [staysPlain, isPrintable, isExtending, isIgnorable, Bool.and_eq_true,
    Bool.not_eq_true', CodeRanges.contains_eq_false_iff isAscending_unprintableRanges,
    CodeRanges.contains_eq_false_iff isAscending_extendingRanges,
    CodeRanges.contains_eq_false_iff isAscending_ignorableRanges, List.mem_append, or_imp,
    forall_and]

/-- A character of a text is shown as itself if it is neither quote nor backslash and lies in none
of the ranges. All others are escaped. -/
theorem escapeChar_eq_self_iff (c : Char) : escapeChar c = [c] ↔ c ≠ '"' ∧ c ≠ '\\' ∧
    ∀ range ∈ unprintableRanges ++ extendingRanges ++ ignorableRanges,
      c.toNat < range.1 ∨ range.2 < c.toNat := by
  rw [← staysPlain_iff]
  unfold escapeChar
  constructor
  · intro h
    split at h
    · rename_i escaped hescape
      have hlength := length_of_escape? hescape
      rw [h] at hlength
      cases hlength
    · rename_i hescape
      split at h
      · rename_i hplain
        refine ⟨?_, ?_, hplain⟩
        · rintro rfl
          cases hescape
        · rintro rfl
          cases hescape
      · cases h
  · rintro ⟨hquote, hslash, hplain⟩
    -- The other characters with an escape of their own are control characters.
    have hcontrol : 0x1F < c.toNat := by
      have houtside := (staysPlain_iff c).1 hplain (0, 0x1F)
        (List.mem_append_left _ (List.mem_append_left _ List.mem_cons_self))
      omega
    have hnone : escape? c.toNat = none := by
      have hquote : c.toNat ≠ 0x22 := fun h => hquote (Char.toNat_inj.1 h)
      have hslash : c.toNat ≠ 0x5C := fun h => hslash (Char.toNat_inj.1 h)
      unfold escape?
      rw [if_neg hquote, if_neg hslash, if_neg (by omega), if_neg (by omega), if_neg (by omega),
        if_neg (by omega)]
    rw [hnone, if_pos hplain]

/-- One byte of a quoted byte string. -/
def escapeByte (b : UInt8) : List Char :=
  match escape? b.toNat with
  | some escaped => escaped
  | none =>
    if 0x20 ≤ b && b ≤ 0x7E then [Char.ofNat b.toNat]
    else
      ['\\', 'x'] ++ Numeral.hexadecimal (b.toNat / 16) ++ Numeral.hexadecimal (b.toNat % 16)

/-- Text between double quotes. -/
def text (s : String) : String :=
  String.ofList (['"'] ++ s.toList.flatMap escapeChar ++ ['"'])

/-- A byte string between double quotes, after a `b`. -/
def bytes (bs : Bytes) : String :=
  String.ofList (['b', '"'] ++ bs.flatMap escapeByte ++ ['"'])

end NtripClient.Quoted
