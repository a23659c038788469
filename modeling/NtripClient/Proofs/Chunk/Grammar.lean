import Mathlib.Data.Nat.Digits.Defs
import NtripClient.Proofs.Chunk.Coding
import NtripClient.Text.Utf8

/-!
# `NtripClient.Proofs.Chunk.Grammar`: what a chunk size line may be

`ChunkSize.parse` reads a line from left to right, and stops at the first thing that is wrong.
Here the same is said without a reader. `IsLength` says which part of a line is its length, and
`IsHexNumeral` which number a text stands for: its last digit counts ones, the one before it
sixteens, and so on.

A line is accepted exactly if its length is a numeral of a number below `2 ^ 64`. It is too large
exactly if some digits at its front already are, whatever follows them, because more digits make
no smaller number. In all other cases it has no length, and the bytes behind its line feed never
matter (`parse_exact`).
-/

set_option autoImplicit false

namespace NtripClient

/-! ### Numerals -/

/-- A text of hexadecimal digits, in any letter case, and the number it stands for. -/
def IsHexNumeral (text : Bytes) (number : Nat) : Prop :=
  ∃ digits : List HexDigit, text = digits.map HexDigit.byte ∧
    number = Nat.ofDigits 16 (digits.map fun d => d.value.val).reverse

/-- Reading digits one behind the other gives the number that their places give. -/
theorem HexDigit.number_eq (value : Nat) (digits : List HexDigit) :
    HexDigit.number value digits
      = Nat.ofDigits 16 (digits.map fun d => d.value.val).reverse + 16 ^ digits.length * value := by
  induction digits generalizing value with
  | nil => simp [HexDigit.number]
  | cons d digits ih =>
    have hnext : HexDigit.number value (d :: digits)
        = HexDigit.number (value * 16 + d.value.val) digits := rfl
    rw [hnext, ih, List.map_cons, List.reverse_cons, Nat.ofDigits_append, Nat.ofDigits_singleton,
      List.length_reverse, List.length_map, List.length_cons, Nat.pow_succ, Nat.mul_add,
      Nat.mul_comm value 16, Nat.mul_assoc]
    omega

/-- The number of a text is the one that is read digit by digit from the front. -/
theorem isHexNumeral_iff {text : Bytes} {number : Nat} :
    IsHexNumeral text number ↔
      ∃ digits : List HexDigit, text = digits.map HexDigit.byte ∧
        HexDigit.number 0 digits = number := by
  simp only [IsHexNumeral, HexDigit.number_eq, Nat.mul_zero, Nat.add_zero, eq_comm]

namespace ChunkSize

/-- A byte that is read as a digit is one as it is written. -/
theorem exists_digit {b : UInt8} {n : Nat} (h : digit? b = some n) :
    ∃ d : HexDigit, d.byte = b ∧ d.value.val = n := by
  have hall : ∀ i : Fin 256, ∀ n ∈ digit? (UInt8.ofNat i.val),
      ∃ value : Fin 16, ∃ isUpper : Bool,
        HexDigit.byte { value, isUpper } = UInt8.ofNat i.val ∧ value.val = n := by
    decide +kernel
  have hb : UInt8.ofNat b.toNat = b := UInt8.ofNat_toNat
  obtain ⟨value, isUpper, hbyte, hvalue⟩ := hall ⟨b.toNat, b.toNat_lt⟩ n (hb.symm ▸ h)
  exact ⟨{ value, isUpper }, hbyte.trans hb, hvalue⟩

/-- A byte that is no digit ends the reading. -/
theorem readDigits_cons_of_none {b : UInt8} (h : digit? b = none) (value : Nat) (text : Bytes) :
    readDigits value (b :: text) = .error .invalid := by
  simp only [readDigits, h]

/-- A digit is added to the number unless the number gets too large. -/
theorem readDigits_cons_of_some {b : UInt8} {d : Nat} (h : digit? b = some d) (value : Nat)
    (text : Bytes) :
    readDigits value (b :: text)
      = if value * 16 + d < bound then readDigits (value * 16 + d) text
        else .error .overflow := by
  simp only [readDigits, h]

section
variable {value number : Nat} {text : Bytes}

/-- The digits of a text stand in front of all that is no digit. -/
theorem digits_cons_of_none {b : UInt8} (h : digit? b = none) (digits : List HexDigit)
    (tail : Bytes) (heq : b :: text = digits.map HexDigit.byte ++ tail) : digits = [] := by
  cases digits with
  | nil => rfl
  | cons d digits =>
    rw [List.map_cons, List.cons_append] at heq
    have hdigit := d.byte_spec.1
    rw [← (List.cons.inj heq).1, h] at hdigit
    cases hdigit

/-- A digit in front of a text is the first digit of the text, whichever way it is split. -/
theorem digits_cons_of_some {b : UInt8} {n : Nat} (h : digit? b = some n) {d : HexDigit}
    {digits : List HexDigit} {tail : Bytes}
    (heq : b :: text = (d :: digits).map HexDigit.byte ++ tail) :
    d.value.val = n ∧ text = digits.map HexDigit.byte ++ tail := by
  rw [List.map_cons, List.cons_append] at heq
  obtain ⟨hb, htext⟩ := List.cons.inj heq
  have hdigit := d.byte_spec.1
  rw [← hb, h] at hdigit
  exact ⟨(Option.some.inj hdigit).symm, htext⟩

/-- A number is read exactly from its digits, as long as it is not too large. -/
theorem readDigits_eq_ok_iff (hv : value < bound) :
    readDigits value text = .ok number ↔
      ∃ digits : List HexDigit, text = digits.map HexDigit.byte ∧
        HexDigit.number value digits = number ∧ number < bound := by
  constructor
  · intro h
    induction text generalizing value with
    | nil =>
      cases h
      exact ⟨[], rfl, rfl, hv⟩
    | cons b text ih =>
      cases hb : digit? b with
      | none =>
        rw [readDigits_cons_of_none hb] at h
        cases h
      | some n =>
        rw [readDigits_cons_of_some hb] at h
        split at h
        · rename_i hlt
          obtain ⟨d, rfl, rfl⟩ := exists_digit hb
          obtain ⟨digits, rfl, hnumber⟩ := ih hlt h
          exact ⟨d :: digits, rfl, hnumber⟩
        · cases h
  · rintro ⟨digits, rfl, rfl, hlt⟩
    exact readDigits_map_byte value digits hlt

/-- A number is too large exactly if some digits in front are too many. -/
theorem readDigits_eq_overflow_iff (hv : value < bound) :
    readDigits value text = .error .overflow ↔
      ∃ (digits : List HexDigit) (tail : Bytes), text = digits.map HexDigit.byte ++ tail ∧
        bound ≤ HexDigit.number value digits := by
  induction text generalizing value with
  | nil =>
    constructor
    · intro h
      cases h
    · rintro ⟨digits, tail, heq, hle⟩
      rw [List.nil_eq_append_iff, List.map_eq_nil_iff] at heq
      rw [heq.1] at hle
      exact absurd hv (Nat.not_lt.2 hle)
  | cons b text ih =>
    cases hb : digit? b with
    | none =>
      rw [readDigits_cons_of_none hb]
      constructor
      · intro h
        cases h
      · rintro ⟨digits, tail, heq, hle⟩
        rw [digits_cons_of_none hb digits tail heq] at hle
        exact absurd hv (Nat.not_lt.2 hle)
    | some n =>
      rw [readDigits_cons_of_some hb]
      split
      · rename_i hlt
        rw [ih hlt]
        constructor
        · rintro ⟨digits, tail, rfl, hle⟩
          obtain ⟨d, rfl, rfl⟩ := exists_digit hb
          exact ⟨d :: digits, tail, rfl, hle⟩
        · rintro ⟨digits, tail, heq, hle⟩
          cases digits with
          | nil => exact absurd hv (Nat.not_lt.2 hle)
          | cons d digits =>
            obtain ⟨rfl, htext⟩ := digits_cons_of_some hb heq
            exact ⟨digits, tail, htext, hle⟩
      · rename_i hge
        -- The first digit is one too many, and what follows does not matter.
        obtain ⟨d, rfl, rfl⟩ := exists_digit hb
        exact iff_of_true rfl ⟨[d], text, rfl, Nat.not_lt.1 hge⟩

/-- Digits are never read in vain for a line feed that is missing. -/
theorem readDigits_ne_incomplete (value : Nat) (text : Bytes) :
    readDigits value text ≠ .error .incomplete := by
  induction text generalizing value with
  | nil => exact nofun
  | cons b text ih =>
    cases hb : digit? b with
    | none =>
      rw [readDigits_cons_of_none hb]
      exact nofun
    | some n =>
      rw [readDigits_cons_of_some hb]
      split
      · exact ih _
      · exact nofun

end

/-! ### Lines -/

/-- What is read from a line in front of other bytes, `size` being the part that holds its length:
one of three, and which one is said by the line alone. -/
structure ReadsExactly (line size rest : Bytes) : Prop where
  /-- A length is read exactly if the part is a numeral of it and it fits in 64 bits. -/
  accepts : ∀ consumed length,
    parse (line ++ Bytes.lf :: rest) = .ok { consumed, length } ↔
      consumed = line.length + 1 ∧ size ≠ [] ∧ IsHexNumeral size length ∧ length < 2 ^ 64
  /-- A length is too large exactly if digits at the front of the part already are. -/
  overflows : parse (line ++ Bytes.lf :: rest) = .error .overflow ↔
    ∃ run tail number, size = run ++ tail ∧ IsHexNumeral run number ∧ 2 ^ 64 ≤ number
  /-- There is no length in all other cases. -/
  refuses : parse (line ++ Bytes.lf :: rest) = .error .invalid ↔
    (¬ ∃ length, size ≠ [] ∧ IsHexNumeral size length ∧ length < 2 ^ 64) ∧
      ¬ ∃ run tail number, size = run ++ tail ∧ IsHexNumeral run number ∧ 2 ^ 64 ≤ number
  /-- Zeros in front of a length change nothing, however many there are. -/
  zeros : ∀ padded count, Bytes.lf ∉ padded → size ≠ [] →
    IsLength padded (List.replicate count 48 ++ size) →
    parse (padded ++ Bytes.lf :: rest)
      = (parse (line ++ Bytes.lf :: rest)).map fun read =>
          { read with consumed := padded.length + 1 }
  /-- The bytes behind the line feed do not matter. -/
  later : ∀ more, parse (line ++ Bytes.lf :: more) = parse (line ++ Bytes.lf :: rest)

section
variable {line : Bytes}

/-- A line is accepted exactly if its length part is a numeral that fits in 64 bits. -/
theorem accepts_iff (h : Bytes.lf ∉ line) (rest : Bytes) (consumed length : Nat) :
    parse (line ++ Bytes.lf :: rest) = .ok { consumed, length } ↔
      consumed = line.length + 1 ∧ lengthPart line ≠ [] ∧
        IsHexNumeral (lengthPart line) length ∧ length < 2 ^ 64 := by
  rw [parse_line h]
  by_cases hempty : lengthPart line = []
  · rw [if_pos hempty]
    exact iff_of_false nofun fun hall => hall.2.1 hempty
  · rw [if_neg hempty]
    have hread : readDigits 0 (lengthPart line) = .ok length ↔ _ :=
      readDigits_eq_ok_iff (show 0 < bound by decide)
    have hbound : bound = 2 ^ 64 := rfl
    have hnumeral : (∃ digits : List HexDigit, lengthPart line = digits.map HexDigit.byte ∧
        HexDigit.number 0 digits = length ∧ length < bound) ↔
          IsHexNumeral (lengthPart line) length ∧ length < 2 ^ 64 := by
      rw [isHexNumeral_iff, hbound]
      constructor
      · rintro ⟨digits, htext, hnumber, hlt⟩
        exact ⟨⟨digits, htext, hnumber⟩, hlt⟩
      · rintro ⟨⟨digits, htext, hnumber⟩, hlt⟩
        exact ⟨digits, htext, hnumber, hlt⟩
    rw [← hnumeral, ← hread]
    cases hdigits : readDigits 0 (lengthPart line) with
    | error e => exact iff_of_false nofun (by simp)
    | ok number => simp [Except.map, hempty, eq_comm]

/-- A length is too large exactly if some digits at its front already are. -/
theorem overflows_iff (h : Bytes.lf ∉ line) (rest : Bytes) :
    parse (line ++ Bytes.lf :: rest) = .error .overflow ↔
      ∃ run tail number, lengthPart line = run ++ tail ∧ IsHexNumeral run number ∧
        2 ^ 64 ≤ number := by
  have hread : readDigits 0 (lengthPart line) = .error .overflow ↔ _ :=
    readDigits_eq_overflow_iff (show 0 < bound by decide)
  have hnumeral : (∃ (digits : List HexDigit) (tail : Bytes),
      lengthPart line = digits.map HexDigit.byte ++ tail ∧ bound ≤ HexDigit.number 0 digits) ↔
        ∃ run tail number, lengthPart line = run ++ tail ∧ IsHexNumeral run number ∧
          2 ^ 64 ≤ number := by
    constructor
    · rintro ⟨digits, tail, htext, hle⟩
      exact ⟨_, tail, _, htext, isHexNumeral_iff.2 ⟨digits, rfl, rfl⟩, hle⟩
    · rintro ⟨run, tail, number, htext, hrun, hle⟩
      obtain ⟨digits, rfl, rfl⟩ := isHexNumeral_iff.1 hrun
      exact ⟨digits, tail, htext, hle⟩
  rw [← hnumeral, ← hread, parse_line h]
  by_cases hempty : lengthPart line = []
  · rw [if_pos hempty, hempty]
    exact iff_of_false nofun nofun
  · rw [if_neg hempty]
    cases readDigits 0 (lengthPart line) with
    | error e => simp only [Except.map, Except.error.injEq]
    | ok number => exact iff_of_false nofun nofun

/-- A line is never missing its line feed. -/
theorem parse_line_ne_incomplete (h : Bytes.lf ∉ line) (rest : Bytes) :
    parse (line ++ Bytes.lf :: rest) ≠ .error .incomplete := by
  have hne := readDigits_ne_incomplete 0 (lengthPart line)
  rw [parse_line h]
  split
  · exact nofun
  · cases hread : readDigits 0 (lengthPart line) with
    | error e => exact fun heq => hne (by rw [hread, Except.error.inj heq])
    | ok number => exact nofun

/-- A line is refused exactly if it is neither accepted nor too large. -/
theorem refuses_iff (h : Bytes.lf ∉ line) (rest : Bytes) :
    parse (line ++ Bytes.lf :: rest) = .error .invalid ↔
      (∀ read, parse (line ++ Bytes.lf :: rest) ≠ .ok read) ∧
        parse (line ++ Bytes.lf :: rest) ≠ .error .overflow := by
  have hne := parse_line_ne_incomplete h rest
  generalize parse (line ++ Bytes.lf :: rest) = result at hne
  constructor
  · rintro rfl
    exact ⟨nofun, nofun⟩
  · rintro ⟨hok, hoverflow⟩
    cases result with
    | ok read => exact absurd rfl (hok read)
    | error e =>
      cases e with
      | incomplete => exact absurd rfl hne
      | invalid => rfl
      | overflow => exact absurd rfl hoverflow

/-- Zeros in front of digits are read, and leave the value as it is. -/
theorem readDigits_zeros (count : Nat) (text : Bytes) :
    readDigits 0 (List.replicate count 48 ++ text) = readDigits 0 text := by
  induction count with
  | zero => rfl
  | succ count ih =>
    rw [List.replicate_succ, List.cons_append, readDigits_cons_of_some (d := 0) rfl,
      if_pos (by decide), ih]

/-- Zeros in front of the length change nothing but the number of bytes that the line uses. -/
theorem parse_padded (h : Bytes.lf ∉ line) (rest : Bytes) {padded : Bytes} {count : Nat}
    (hpadded : Bytes.lf ∉ padded) (hne : lengthPart line ≠ [])
    (hlength : lengthPart padded = List.replicate count 48 ++ lengthPart line) :
    parse (padded ++ Bytes.lf :: rest)
      = (parse (line ++ Bytes.lf :: rest)).map fun read =>
          { read with consumed := padded.length + 1 } := by
  have hne' : List.replicate count 48 ++ lengthPart line ≠ [] := by simp [hne]
  rw [parse_line hpadded, parse_line h, hlength, if_neg hne, if_neg hne', readDigits_zeros]
  cases readDigits 0 (lengthPart line) with
  | error e => rfl
  | ok number => rfl

end

/-- **A size line is read exactly by its grammar.** For all bytes, a line is missing exactly if
there is no line feed. Bytes with a line feed are a line, a line feed and other bytes. Exactly one
part of the line holds its length, and what is read is said by this part: the number of which it
is the numeral, if that is below `2 ^ 64`; too large, if some digits at its front are; and no
length in all other cases. -/
theorem parse_exact (bytes : Bytes) :
    (parse bytes = .error .incomplete ↔ Bytes.lf ∉ bytes) ∧
      ∀ line rest, bytes = line ++ Bytes.lf :: rest → Bytes.lf ∉ line →
        ∃ size, IsLength line size ∧ (∀ other, IsLength line other → other = size) ∧
          ReadsExactly line size rest := by
  constructor
  · refine ⟨fun hincomplete hmem => ?_, parse_of_not_mem⟩
    obtain ⟨line, rest, rfl, hline⟩ := List.eq_append_cons_of_mem hmem
    exact parse_line_ne_incomplete hline rest hincomplete
  · rintro line rest - h
    refine ⟨lengthPart line, isLength_iff.2 rfl, fun other hother => (isLength_iff.1 hother).symm,
      ?_⟩
    constructor
    case accepts => exact accepts_iff h rest
    case overflows => exact overflows_iff h rest
    case refuses =>
      rw [refuses_iff h, ← overflows_iff h rest]
      refine and_congr_left fun _ => ⟨?_, ?_⟩
      · rintro hnone ⟨length, hlength⟩
        exact hnone _ ((accepts_iff h rest _ length).2 ⟨rfl, hlength⟩)
      · rintro hnone ⟨consumed, length⟩ hread
        exact hnone ⟨length, ((accepts_iff h rest consumed length).1 hread).2⟩
    case zeros =>
      intro padded count hpadded hne hlength
      exact parse_padded h rest hpadded hne (isLength_iff.1 hlength)
    case later =>
      intro more
      rw [parse_line h, parse_line h]

/-- A line with blanks, leading zeros, letters in both cases and an extension. -/
def ornateLine : Bytes :=
  Utf8.encode " 00fF\t;name=value\r"

/-- It is read exactly: its length is a numeral of 255. -/
theorem parse_exact_ornateLine :
    Bytes.lf ∉ ornateLine ∧
      parse (ornateLine ++ Bytes.lf :: Utf8.encode "DATA") = .ok { consumed := 19, length := 255 } ∧
      ∃ size, IsLength ornateLine size ∧ ReadsExactly ornateLine size (Utf8.encode "DATA") ∧
        IsHexNumeral size 255 := by
  have hline : Bytes.lf ∉ ornateLine := by decide +kernel
  have hread : parse (ornateLine ++ Bytes.lf :: Utf8.encode "DATA")
      = .ok { consumed := 19, length := 255 } := by decide +kernel
  obtain ⟨size, hsize, -, hexact⟩ := (parse_exact _).2 ornateLine (Utf8.encode "DATA") rfl hline
  exact ⟨hline, hread, size, hsize, hexact, ((hexact.accepts _ _).1 hread).2.2.1⟩

end ChunkSize

end NtripClient
