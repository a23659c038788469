/-!
# `NtripClient.Text.Numeral`: numbers as digits

Decimal and hexadecimal numerals, written without leading zeros and read with any
number of them. `decimal?` reads what `decimal` writes, and nothing but digits.
`below?` reads numerals of any base up to sixteen whose values have a bound. In base
ten it reads the numbers that `decimal?` reads and that are less than the bound, without
working out the value of a numeral that exceeds it.
-/

set_option autoImplicit false

namespace NtripClient.Numeral

/-- The decimal digits of a number, without leading zeros. -/
def decimal (n : Nat) : List Char :=
  Nat.toDigits 10 n

/-- The lower-case hexadecimal digits of a number, without leading zeros. -/
def hexadecimal (n : Nat) : List Char :=
  Nat.toDigits 16 n

/-- Reads one or more decimal digits. -/
def decimal? (digits : List Char) : Option Nat :=
  if digits.isEmpty then none
  else if digits.all Char.isDigit then some (Nat.ofDigitChars 10 digits 0)
  else none

/-- The value of a hexadecimal digit, in either case. -/
def hexDigit? (c : Char) : Option Nat :=
  if '0' ≤ c ∧ c ≤ '9' then some (c.toNat - '0'.toNat)
  else if 'a' ≤ c ∧ c ≤ 'f' then some (c.toNat - 'a'.toNat + 10)
  else if 'A' ≤ c ∧ c ≤ 'F' then some (c.toNat - 'A'.toNat + 10)
  else none

/-- Reads digits behind those that gave `value`, as long as the value stays below
`bound`. -/
def belowFrom? (base bound value : Nat) : List Char → Option Nat
  | [] => some value
  | c :: rest =>
    match hexDigit? c with
    | none => none
    | some digit =>
      if digit < base ∧ value * base + digit < bound then
        belowFrom? base bound (value * base + digit) rest
      else none

/-- Reads one or more digits of a base, the number being less than `bound`. -/
def below? (base bound : Nat) (digits : List Char) : Option Nat :=
  if digits.isEmpty then none else belowFrom? base bound 0 digits

/-- A decimal number is written with digits. -/
theorem isDigit_of_mem_decimal {n : Nat} {c : Char} (h : c ∈ decimal n) : c.isDigit = true :=
  Nat.isDigit_of_mem_toDigits (by decide) (by decide) h

/-- Zeros in front of it are digits as well. -/
theorem isDigit_of_mem_zeros {count n : Nat} {c : Char}
    (h : c ∈ List.replicate count '0' ++ decimal n) : c.isDigit = true := by
  rcases List.mem_append.1 h with zero | digit
  · rw [List.eq_of_mem_replicate zero]
    rfl
  · exact isDigit_of_mem_decimal digit

/-- Zeros in front do not change the number. -/
theorem ofDigitChars_zeros (count : Nat) (digits : List Char) :
    Nat.ofDigitChars 10 (List.replicate count '0' ++ digits) 0 = Nat.ofDigitChars 10 digits 0 := by
  induction count with
  | zero => rfl
  | succ count ih =>
    rw [List.replicate_succ, List.cons_append, Nat.ofDigitChars_cons]
    exact ih

/-- Zeros in front of the digits of a number do not change what is read. -/
theorem decimal?_zeros (count n : Nat) :
    decimal? (List.replicate count '0' ++ decimal n) = some n := by
  have digits : (List.replicate count '0' ++ decimal n).all Char.isDigit = true :=
    List.all_eq_true.2 fun c hc => isDigit_of_mem_zeros hc
  have nonempty : (List.replicate count '0' ++ decimal n).isEmpty = false := by
    simp [decimal, Nat.toDigits_ne_nil]
  simp only [decimal?, nonempty, digits, Bool.false_eq_true, if_false, if_true, ofDigitChars_zeros]
  rw [decimal, Nat.ofDigitChars_toDigits (by decide) (by decide)]

/-- A decimal digit has its decimal value. -/
theorem hexDigit?_of_isDigit {c : Char} (h : c.isDigit = true) :
    hexDigit? c = some (c.toNat - '0'.toNat) := by
  have digit : '0' ≤ c ∧ c ≤ '9' := by
    simpa [Char.isDigit, Char.le_def] using h
  rw [hexDigit?, if_pos digit]

/-- Any other hexadecimal digit is ten or more. -/
theorem le_of_hexDigit?_of_not_isDigit {c : Char} {digit : Nat} (h : hexDigit? c = some digit)
    (hc : c.isDigit = false) : 10 ≤ digit := by
  have other : ¬ ('0' ≤ c ∧ c ≤ '9') := by
    intro bounds
    have : c.isDigit = true := by simpa [Char.isDigit, Char.le_def] using bounds
    simp [hc] at this
  rw [hexDigit?, if_neg other] at h
  split at h
  · cases h
    omega
  · split at h
    · cases h
      omega
    · cases h

/-- Further digits do not make a number less. -/
theorem le_ofDigitChars (digits : List Char) (value : Nat) :
    value ≤ Nat.ofDigitChars 10 digits value := by
  induction digits generalizing value with
  | nil => simp
  | cons c rest ih =>
    rw [Nat.ofDigitChars_cons]
    have := ih (10 * value + (c.toNat - '0'.toNat))
    omega

/-- In base ten, reading digits below a bound is reading them all and comparing. -/
theorem belowFrom?_ten {bound value : Nat} (hv : value < bound) (digits : List Char) :
    belowFrom? 10 bound value digits =
      (if digits.all Char.isDigit then some (Nat.ofDigitChars 10 digits value) else none).filter
        (· < bound) := by
  induction digits generalizing value with
  | nil => simp [belowFrom?, Option.filter, hv]
  | cons c rest ih =>
    rw [belowFrom?]
    cases hc : c.isDigit with
    | true =>
      simp only [hexDigit?_of_isDigit hc, Nat.ofDigitChars_cons, List.all_cons, hc, Bool.true_and,
        Nat.mul_comm value 10]
      have hdigit : c.toNat - '0'.toNat < 10 := by
        have := Char.isDigit_iff_toNat.1 hc
        simp only [Char.reduceToNat] at this ⊢
        omega
      by_cases hlt : 10 * value + (c.toNat - '0'.toNat) < bound
      · rw [if_pos ⟨hdigit, hlt⟩, ih hlt]
      · rw [if_neg (fun both => hlt both.2)]
        -- the value is no less at the end than where the reading stops
        have hle := le_ofDigitChars rest (10 * value + (c.toNat - '0'.toNat))
        split
        · simp only [Option.filter_some, decide_eq_true_eq]
          rw [if_neg (by omega)]
        · rfl
    | false =>
      simp only [List.all_cons, hc, Bool.false_and, Bool.false_eq_true, if_false,
        Option.filter_none]
      cases hd : hexDigit? c with
      | none => rfl
      | some digit =>
        have := le_of_hexDigit?_of_not_isDigit hd hc
        exact if_neg (by omega)

/-- In base ten, `below?` reads what `decimal?` reads, if it is less than the bound. -/
theorem below?_ten {bound : Nat} (hb : 0 < bound) (digits : List Char) :
    below? 10 bound digits = (decimal? digits).filter (· < bound) := by
  rw [below?, decimal?]
  cases digits.isEmpty with
  | true => rfl
  | false => exact belowFrom?_ten hb digits

end NtripClient.Numeral
