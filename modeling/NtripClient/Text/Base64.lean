import NtripClient.Bytes

/-!
# `NtripClient.Text.Base64`: the standard base64 alphabet, padded

Three bytes are written as four digits of six bits each. One or two bytes left
over are written as two or three digits and padded to four with `=`. `decode?`
reads exactly such text.
-/

set_option autoImplicit false

namespace NtripClient.Base64

/-- The digit for a value below 64. -/
def digit (value : Nat) : Char :=
  if value < 26 then Char.ofNat ('A'.toNat + value)
  else if value < 52 then Char.ofNat ('a'.toNat + (value - 26))
  else if value < 62 then Char.ofNat ('0'.toNat + (value - 52))
  else if value = 62 then '+'
  else '/'

/-- The value of a digit. -/
def value? (c : Char) : Option Nat :=
  if 'A' ≤ c ∧ c ≤ 'Z' then some (c.toNat - 'A'.toNat)
  else if 'a' ≤ c ∧ c ≤ 'z' then some (c.toNat - 'a'.toNat + 26)
  else if '0' ≤ c ∧ c ≤ '9' then some (c.toNat - '0'.toNat + 52)
  else if c = '+' then some 62
  else if c = '/' then some 63
  else none

/-- The character that fills the last group of four. -/
def pad : Char := '='

/-- Writes bytes as base64 digits, padded. -/
def encode : Bytes → List Char
  | [] => []
  | [a] =>
    let n := a.toNat
    [digit (n / 4), digit (n % 4 * 16), pad, pad]
  | [a, b] =>
    let n := a.toNat * 256 + b.toNat
    [digit (n / 1024), digit (n / 16 % 64), digit (n % 16 * 4), pad]
  | a :: b :: c :: rest =>
    let n := (a.toNat * 256 + b.toNat) * 256 + c.toNat
    digit (n / 262144) :: digit (n / 4096 % 64) :: digit (n / 64 % 64) :: digit (n % 64)
      :: encode rest

/-- Reads padded base64. Refuses characters outside the alphabet, padding before
the end, a last group that is not full, and padding over bits that are not zero. -/
def decode? : List Char → Option Bytes
  | [] => some []
  | [p, q, r, s] => do
    let x ← value? p
    let y ← value? q
    if r = pad then
      if s = pad ∧ y % 16 = 0 then some [UInt8.ofNat (x * 4 + y / 16)] else none
    else
      let z ← value? r
      if s = pad then
        if z % 4 = 0 then
          some [UInt8.ofNat (x * 4 + y / 16), UInt8.ofNat (y % 16 * 16 + z / 4)]
        else none
      else
        let w ← value? s
        some [UInt8.ofNat (x * 4 + y / 16), UInt8.ofNat (y % 16 * 16 + z / 4),
          UInt8.ofNat (z % 4 * 64 + w)]
  | p :: q :: r :: s :: rest => do
    let x ← value? p
    let y ← value? q
    let z ← value? r
    let w ← value? s
    let tail ← decode? rest
    some (UInt8.ofNat (x * 4 + y / 16) :: UInt8.ofNat (y % 16 * 16 + z / 4)
      :: UInt8.ofNat (z % 4 * 64 + w) :: tail)
  | _ => none

/-- The value of a digit is the one it was written for. -/
theorem value?_digit {n : Nat} (h : n < 64) : value? (digit n) = some n := by
  have key : ∀ i : Fin 64, value? (digit i.val) = some i.val := by decide
  exact key ⟨n, h⟩

/-- No digit is the padding. -/
theorem digit_ne_pad {n : Nat} (h : n < 64) : digit n ≠ pad := by
  have key : ∀ i : Fin 64, digit i.val ≠ pad := by decide
  exact key ⟨n, h⟩

/-- A full group of four digits stands for three bytes, wherever it stands. -/
theorem decode?_group {v : Nat} (hv : v < 16777216) (rest : List Char) :
    decode? (digit (v / 262144) :: digit (v / 4096 % 64) :: digit (v / 64 % 64) :: digit (v % 64)
        :: rest)
      = (decode? rest).map fun tail =>
        UInt8.ofNat (v / 65536) :: UInt8.ofNat (v / 256 % 256) :: UInt8.ofNat (v % 256)
          :: tail := by
  have h1 := value?_digit (show v / 262144 < 64 by omega)
  have h2 := value?_digit (show v / 4096 % 64 < 64 by omega)
  have h3 := value?_digit (show v / 64 % 64 < 64 by omega)
  have h4 := value?_digit (show v % 64 < 64 by omega)
  have e1 : v / 262144 * 4 + v / 4096 % 64 / 16 = v / 65536 := by omega
  have e2 : v / 4096 % 64 % 16 * 16 + v / 64 % 64 / 4 = v / 256 % 256 := by omega
  have e3 : v / 64 % 64 % 4 * 64 + v % 64 = v % 256 := by omega
  cases rest with
  | nil =>
    simp only [decode?, h1, h2, h3, h4, digit_ne_pad (show v / 64 % 64 < 64 by omega),
      digit_ne_pad (show v % 64 < 64 by omega), Option.bind_eq_bind, Option.bind_some, if_false,
      Option.map_some, e1, e2, e3]
  | cons c rest =>
    simp only [decode?, h1, h2, h3, h4, Option.bind_eq_bind, Option.bind_some, e1, e2, e3]
    cases decode? (c :: rest) <;> rfl

/-- Reading what was written gives the bytes back. -/
theorem decode?_encode (bytes : Bytes) : decode? (encode bytes) = some bytes := by
  fun_induction encode bytes with
  | case1 => rfl
  | case2 a n =>
    have ha : a.toNat < 256 := a.toNat_lt
    have hn : n / 4 * 4 + n % 4 * 16 / 16 = a.toNat := by omega
    have hz : n % 4 * 16 % 16 = 0 := by omega
    simp only [decode?, value?_digit (show n / 4 < 64 by omega),
      value?_digit (show n % 4 * 16 < 64 by omega), hn, hz, Option.bind_eq_bind, Option.bind_some,
      and_self, if_true, UInt8.ofNat_toNat]
  | case3 a b n =>
    have ha : a.toNat < 256 := a.toNat_lt
    have hb : b.toNat < 256 := b.toNat_lt
    have e1 : n / 1024 * 4 + n / 16 % 64 / 16 = a.toNat := by omega
    have e2 : n / 16 % 64 % 16 * 16 + n % 16 * 4 / 4 = b.toNat := by omega
    have hz : n % 16 * 4 % 4 = 0 := by omega
    simp only [decode?, value?_digit (show n / 1024 < 64 by omega),
      value?_digit (show n / 16 % 64 < 64 by omega), value?_digit (show n % 16 * 4 < 64 by omega),
      digit_ne_pad (show n % 16 * 4 < 64 by omega), e1, e2, hz, Option.bind_eq_bind,
      Option.bind_some, if_true, if_false, UInt8.ofNat_toNat]
  | case4 a b c rest n ih =>
    have ha : a.toNat < 256 := a.toNat_lt
    have hb : b.toNat < 256 := b.toNat_lt
    have hc : c.toNat < 256 := c.toNat_lt
    have e1 : n / 65536 = a.toNat := by omega
    have e2 : n / 256 % 256 = b.toNat := by omega
    have e3 : n % 256 = c.toNat := by omega
    rw [decode?_group (show n < 16777216 by omega), ih, e1, e2, e3]
    simp only [Option.map_some, UInt8.ofNat_toNat]

end NtripClient.Base64
