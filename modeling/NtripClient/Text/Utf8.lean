import NtripClient.Bytes

/-!
# `NtripClient.Text.Utf8`: text as bytes, and bytes as text

`encode` writes text as UTF-8. `decode` reads any bytes as text: every maximal
ill-formed piece becomes one U+FFFD, so nothing is refused, and what `encode` writes
is read back as it was (`decode_encode`). `decode?` reads only what `encode` writes.

A sequence longer than one byte starts with a lead byte. The lead fixes how many
bytes follow and, through the range of the second byte, rules out overlong forms,
surrogates and values above U+10FFFF. A piece is ill formed at the first byte
that does not continue it, and that byte starts the next piece.
-/

set_option autoImplicit false

namespace NtripClient.Utf8

/-- The UTF-8 bytes of a text. -/
def encode (text : String) : Bytes :=
  text.toList.flatMap String.utf8EncodeChar

/-- The character that stands for an ill-formed piece. -/
def replacement : Char := '\uFFFD'

/-- What the first byte of a longer sequence says about the bytes after it. -/
structure Lead where
  /-- The least value of the second byte. -/
  low : UInt8
  /-- The greatest value of the second byte. -/
  high : UInt8
  /-- The number of bytes that follow. -/
  following : Nat
  /-- The bits that the lead itself gives to the code point. -/
  bits : Nat
deriving DecidableEq, Repr

/-- The leads, by the value of the byte. C0, C1 and F5 to FF lead nothing, and
80 to BF only continue. -/
def lead? (b : UInt8) : Option Lead :=
  if 0xC2 ≤ b ∧ b ≤ 0xDF then some ⟨0x80, 0xBF, 1, b.toNat - 0xC0⟩
  else if b = 0xE0 then some ⟨0xA0, 0xBF, 2, 0⟩
  else if b = 0xED then some ⟨0x80, 0x9F, 2, 0x0D⟩
  else if 0xE1 ≤ b ∧ b ≤ 0xEF then some ⟨0x80, 0xBF, 2, b.toNat - 0xE0⟩
  else if b = 0xF0 then some ⟨0x90, 0xBF, 3, 0⟩
  else if 0xF1 ≤ b ∧ b ≤ 0xF3 then some ⟨0x80, 0xBF, 3, b.toNat - 0xF0⟩
  else if b = 0xF4 then some ⟨0x80, 0x8F, 3, 4⟩
  else none

/-- A byte that continues a sequence. -/
def isContinuation (b : UInt8) : Bool :=
  0x80 ≤ b && b ≤ 0xBF

/-- The bytes after a lead that belong to its sequence: none unless the second
byte is in the lead's range. -/
def Lead.tail (lead : Lead) : Bytes → Bytes
  | [] => []
  | b :: rest =>
    if lead.low ≤ b && b ≤ lead.high then
      b :: (rest.take (lead.following - 1)).takeWhile isContinuation
    else []

/-- The character that a byte and what follows it start with, and how many of
the bytes that follow belong to it. -/
def next (b : UInt8) (rest : Bytes) : Char × Nat :=
  if b < 0x80 then (Char.ofNat b.toNat, 0)
  else
    match lead? b with
    | none => (replacement, 0)
    | some lead =>
      let tail := lead.tail rest
      if tail.length = lead.following then
        (Char.ofNat (tail.foldl (fun code c => code * 64 + (c.toNat - 0x80)) lead.bits),
          tail.length)
      else (replacement, tail.length)

/-- The loop behind `decode`: `done` holds the characters read so far, last
first, and the next `skip` bytes belong to the last of them. -/
def decodeInto (done : List Char) : Nat → Bytes → List Char
  | _, [] => done.reverse
  | skip + 1, _ :: rest => decodeInto done skip rest
  | 0, b :: rest =>
    let unit := next b rest
    decodeInto (unit.1 :: done) unit.2 rest

/-- The characters of a byte string, with U+FFFD for every ill-formed piece. -/
def decodeChars (bytes : Bytes) : List Char :=
  decodeInto [] 0 bytes

/-- Reads any byte string as text, with U+FFFD for every ill-formed piece. -/
def decode (bytes : Bytes) : String :=
  String.ofList (decodeChars bytes)

/-- Reads well-formed UTF-8 only: bytes that are what their own text encodes to. -/
def decode? (bytes : Bytes) : Option String :=
  let text := decode bytes
  if encode text = bytes then some text else none

/-- The characters read so far stand before those that follow. -/
theorem decodeInto_eq (done : List Char) (skip : Nat) (bytes : Bytes) :
    decodeInto done skip bytes = done.reverse ++ decodeInto [] skip bytes := by
  induction bytes generalizing done skip with
  | nil => simp [decodeInto]
  | cons b rest ih =>
    cases skip with
    | succ skip => simp only [decodeInto]; exact ih done skip
    | zero =>
      simp only [decodeInto]
      rw [ih ((next b rest).1 :: done), ih [(next b rest).1]]
      simp

/-- Bytes that belong to the character before them are passed over. -/
theorem decodeInto_append (tail rest : Bytes) :
    decodeInto [] tail.length (tail ++ rest) = decodeChars rest := by
  induction tail with
  | nil => rfl
  | cons b tail ih => exact ih

/-- A character whose bytes start a byte string is the first one read from it. -/
theorem decodeChars_of_next {b : UInt8} (tail : Bytes) {rest : Bytes} {c : Char}
    (h : next b (tail ++ rest) = (c, tail.length)) :
    decodeChars (b :: (tail ++ rest)) = c :: decodeChars rest := by
  simp only [decodeChars, decodeInto, h]
  rw [decodeInto_eq, decodeInto_append]
  rfl

/-- A small number is the value of its byte. -/
theorem toNat_ofNat {n : Nat} (h : n < 256) : (UInt8.ofNat n).toNat = n := by
  simp [UInt8.toNat_ofNat', Nat.mod_eq_of_lt h]

/-- Six bits and the mark of a continuing byte make a continuing byte. -/
theorem isContinuation_ofNat {n : Nat} (h : n < 64) :
    isContinuation (UInt8.ofNat (n + 128)) = true := by
  have key : ∀ i : Fin 64, isContinuation (UInt8.ofNat (i.val + 128)) = true := by decide
  exact key ⟨n, h⟩

/-- The leads of two-byte sequences. -/
theorem lead?_two {n : Nat} (h : 194 ≤ n ∧ n ≤ 223) :
    lead? (UInt8.ofNat n) = some ⟨0x80, 0xBF, 1, n - 192⟩ := by
  have key : ∀ i : Fin 30, lead? (UInt8.ofNat (i.val + 194)) = some ⟨0x80, 0xBF, 1, i.val + 2⟩ := by
    decide
  have := key ⟨n - 194, by omega⟩
  simpa [show n - 194 + 194 = n by omega, show n - 194 + 2 = n - 192 by omega] using this

/-- The leads of three-byte sequences. -/
theorem lead?_three {n : Nat} (h : n < 16) :
    lead? (UInt8.ofNat (n + 224))
      = some ⟨if n = 0 then 0xA0 else 0x80, if n = 13 then 0x9F else 0xBF, 2, n⟩ := by
  have key : ∀ i : Fin 16, lead? (UInt8.ofNat (i.val + 224))
      = some ⟨if i.val = 0 then 0xA0 else 0x80, if i.val = 13 then 0x9F else 0xBF, 2, i.val⟩ := by
    decide
  exact key ⟨n, h⟩

/-- The leads of four-byte sequences. -/
theorem lead?_four {n : Nat} (h : n < 5) :
    lead? (UInt8.ofNat (n + 240))
      = some ⟨if n = 0 then 0x90 else 0x80, if n = 4 then 0x8F else 0xBF, 3, n⟩ := by
  have key : ∀ i : Fin 5, lead? (UInt8.ofNat (i.val + 240))
      = some ⟨if i.val = 0 then 0x90 else 0x80, if i.val = 4 then 0x8F else 0xBF, 3, i.val⟩ := by
    decide
  exact key ⟨n, h⟩

/-- Bytes that all continue are all taken. -/
theorem takeWhile_isContinuation {bytes : Bytes} (h : ∀ x ∈ bytes, isContinuation x = true) :
    bytes.takeWhile isContinuation = bytes := by
  induction bytes with
  | nil => rfl
  | cons b rest ih =>
    rw [List.takeWhile_cons, if_pos (h b (by simp)), ih fun x hx => h x (by simp [hx])]

/-- A lead with a second byte in its range and as many continuing bytes as it asks for is
read as one character. -/
theorem next_of_lead {b : UInt8} {lead : Lead} {second : UInt8} (more : Bytes) {rest : Bytes}
    {c : Char}
    (hb : ¬ b < 0x80) (hlead : lead? b = some lead)
    (hlow : lead.low.toNat ≤ second.toNat) (hhigh : second.toNat ≤ lead.high.toNat)
    (hlen : more.length + 1 = lead.following) (hmore : ∀ x ∈ more, isContinuation x = true)
    (hc : Char.ofNat ((second :: more).foldl (fun code x => code * 64 + (x.toNat - 0x80)) lead.bits)
      = c) :
    next b (second :: more ++ rest) = (c, (second :: more).length) := by
  have htail : lead.tail (second :: more ++ rest) = second :: more := by
    have htake : (more ++ rest).take (lead.following - 1) = more := by
      rw [← hlen, Nat.add_sub_cancel, List.take_left']
      rfl
    have hrange : (lead.low ≤ second && second ≤ lead.high) = true := by
      simpa [UInt8.le_iff_toNat_le] using ⟨hlow, hhigh⟩
    simp only [List.cons_append, Lead.tail, hrange, if_true, htake]
    congr 1
    exact takeWhile_isContinuation hmore
  simp only [next, hb, if_false, hlead, htail, List.length_cons, hlen, if_true]
  rw [hc]

/-- The bytes of a character are read as that character, whatever follows. -/
theorem decodeChars_encodeChar (c : Char) (rest : Bytes) :
    decodeChars (String.utf8EncodeChar c ++ rest) = c :: decodeChars rest := by
  have hvalid : c.toNat < 0xD800 ∨ (0xDFFF < c.toNat ∧ c.toNat < 0x110000) := c.valid
  have hc : Char.ofNat c.toNat = c := Char.ofNat_toNat c
  unfold String.utf8EncodeChar
  simp only [show c.val.toNat = c.toNat from rfl]
  split
  · -- One byte.
    refine decodeChars_of_next [] ?_
    have hb : UInt8.ofNat c.toNat < 0x80 := by
      rw [UInt8.lt_iff_toNat_lt, toNat_ofNat (by omega)]
      show c.toNat < 128
      omega
    simp only [next, hb, if_true, toNat_ofNat (show c.toNat < 256 by omega), hc]
    rfl
  · -- Two bytes or more: a lead byte, and bytes that hold six bits each.
    have hb {n : Nat} (h₁ : 128 ≤ n) (h₂ : n < 256) : ¬ UInt8.ofNat n < 0x80 := by
      rw [UInt8.lt_iff_toNat_lt, toNat_ofNat h₂]
      exact Nat.not_lt.2 h₁
    have hcont (n : Nat) : isContinuation (UInt8.ofNat (n % 64 + 128)) = true :=
      isContinuation_ofNat (Nat.mod_lt n (by decide))
    have hlow (n : Nat) : (UInt8.ofNat (n % 64 + 128)).toNat = n % 64 + 128 :=
      toNat_ofNat (by omega)
    split
    · refine decodeChars_of_next [_] (next_of_lead []
        (hb (by omega) (by omega)) (lead?_two (by omega)) ?_ ?_ rfl (by simp)
        ((congrArg Char.ofNat ?_).trans hc))
      · rw [hlow]
        show 128 ≤ _
        omega
      · rw [hlow]
        show _ ≤ 191
        omega
      · simp only [List.foldl_cons, List.foldl_nil, hlow]
        omega
    · split
      · refine decodeChars_of_next [_, _] (next_of_lead [_]
          (hb (by omega) (by omega)) (lead?_three (by omega)) ?_ ?_ rfl
          (by simpa only [List.forall_mem_singleton] using hcont c.toNat)
          ((congrArg Char.ofNat ?_).trans hc))
        · rw [hlow]
          -- The second byte is limited, which excludes surrogates and overlong forms.
          show UInt8.toNat (if _ then 0xA0 else 0x80) ≤ _
          split
          · show 160 ≤ _
            omega
          · show 128 ≤ _
            omega
        · rw [hlow]
          show _ ≤ UInt8.toNat (if _ then 0x9F else 0xBF)
          split
          · show _ ≤ 159
            omega
          · show _ ≤ 191
            omega
        · simp only [List.foldl_cons, List.foldl_nil, hlow]
          omega
      · refine decodeChars_of_next [_, _, _] (next_of_lead [_, _]
          (hb (by omega) (by omega)) (lead?_four (by omega)) ?_ ?_ rfl
          (by simpa only [List.forall_mem_cons, List.not_mem_nil, false_implies, implies_true,
            and_true] using ⟨hcont (c.toNat / 64), hcont c.toNat⟩)
          ((congrArg Char.ofNat ?_).trans hc))
        · rw [hlow]
          show UInt8.toNat (if _ then 0x90 else 0x80) ≤ _
          split
          · show 144 ≤ _
            omega
          · show 128 ≤ _
            omega
        · rw [hlow]
          show _ ≤ UInt8.toNat (if _ then 0x8F else 0xBF)
          split
          · show _ ≤ 143
            omega
          · show _ ≤ 191
            omega
        · simp only [List.foldl_cons, List.foldl_nil, hlow]
          omega

/-- The bytes of some characters are read as those characters. -/
theorem decodeChars_flatMap (text : List Char) :
    decodeChars (text.flatMap String.utf8EncodeChar) = text := by
  induction text with
  | nil => rfl
  | cons c text ih => rw [List.flatMap_cons, decodeChars_encodeChar, ih]

/-- What `encode` writes is read back as it was. -/
theorem decode_encode (text : String) : decode (encode text) = text := by
  rw [decode, encode, decodeChars_flatMap, String.ofList_toList]

/-- Well-formed UTF-8 is read back as it was. -/
theorem decode?_encode (text : String) : decode? (encode text) = some text := by
  rw [decode?, decode_encode, if_pos rfl]

end NtripClient.Utf8
