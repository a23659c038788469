import NtripClient.Proofs.Chunk.Length

/-!
# `NtripClient.Proofs.Chunk.Coding`: writing a chunked body

A server has a choice in how it writes a chunk size line: the case of each digit, leading
zeros, blanks on both sides, an extension. `SizeLine` has exactly this choice, and
`SizeLine.parse_bytes` says that every such line is read back: its own length, and the
length it announces.

`ChunkedBody` is a list of chunks, each behind a line that announces it, and a last line that
announces nothing. The data of a chunk is any bytes but none at all.
`ChunkedBody.dataWithin` is the data among the first bytes of such a body, wherever they end:
inside a line, inside the data, or in the line end behind it.
-/

set_option autoImplicit false

namespace NtripClient

/-! ### Digits -/

/-- A hexadecimal digit as it is written. -/
structure HexDigit where
  /-- The value. -/
  value : Fin 16
  /-- Written as a capital letter, if it is a letter. -/
  isUpper : Bool
deriving DecidableEq, Repr

/-- The byte that a digit is written as. -/
def HexDigit.byte (d : HexDigit) : UInt8 :=
  if d.value.val < 10 then 48 + d.value.val.toUInt8
  else (if d.isUpper then 55 else 87) + d.value.val.toUInt8

/-- The number that digits are the rest of, behind those that gave `value`. -/
def HexDigit.number (value : Nat) (digits : List HexDigit) : Nat :=
  digits.foldl (fun value d => value * 16 + d.value.val) value

/-- What a digit is written as: a byte that is read as its value and that no other part of a
line could be. -/
theorem HexDigit.byte_spec (d : HexDigit) :
    ChunkSize.digit? d.byte = some d.value.val ∧ isAsciiBlank d.byte = false ∧
      d.byte ≠ ChunkSize.semicolon ∧ d.byte ≠ Bytes.cr ∧ d.byte ≠ Bytes.lf := by
  have hall : ∀ (value : Fin 16) (isUpper : Bool),
      let b := HexDigit.byte { value, isUpper }
      ChunkSize.digit? b = some value.val ∧ isAsciiBlank b = false ∧
        b ≠ ChunkSize.semicolon ∧ b ≠ Bytes.cr ∧ b ≠ Bytes.lf := by
    decide
  exact hall d.value d.isUpper

/-- More digits make no smaller number. -/
theorem HexDigit.le_number (value : Nat) (digits : List HexDigit) :
    value ≤ HexDigit.number value digits := by
  induction digits generalizing value with
  | nil => exact Nat.le_refl value
  | cons d digits ih =>
    calc value ≤ value * 16 + d.value.val := by omega
      _ ≤ HexDigit.number (value * 16 + d.value.val) digits := ih _

/-- Digits are read back, unless their number is too large. -/
theorem ChunkSize.readDigits_map_byte (value : Nat) (digits : List HexDigit)
    (h : HexDigit.number value digits < bound) :
    readDigits value (digits.map HexDigit.byte) = .ok (HexDigit.number value digits) := by
  induction digits generalizing value with
  | nil => rfl
  | cons d digits ih =>
    have hnext : HexDigit.number value (d :: digits)
        = HexDigit.number (value * 16 + d.value.val) digits := rfl
    rw [hnext] at h ⊢
    -- What is read so far is no larger than the whole number.
    have hlt : value * 16 + d.value.val < bound :=
      Nat.lt_of_le_of_lt (HexDigit.le_number _ digits) h
    rw [List.map_cons, readDigits, d.byte_spec.1]
    simp only
    rw [if_pos hlt]
    exact ih _ h

/-! ### Lines -/

/-- A chunk size line as a server may write it. -/
structure SizeLine where
  /-- The blanks before the length. -/
  before : Bytes
  /-- The length, in hexadecimal digits. -/
  digits : List HexDigit
  /-- The blanks behind the length. -/
  after : Bytes
  /-- What follows behind a semicolon, if there is one. -/
  extension : Option Bytes
  before_blank : ∀ b ∈ before, Bytes.isSpaceOrTab b = true
  digits_ne_nil : digits ≠ []
  after_blank : ∀ b ∈ after, Bytes.isSpaceOrTab b = true
  extension_inline : ∀ text, extension = some text → ∀ b ∈ text, b ≠ Bytes.cr ∧ b ≠ Bytes.lf

namespace SizeLine

/-- The length that a line announces. -/
def length (line : SizeLine) : Nat :=
  HexDigit.number 0 line.digits

/-- The part of a line that holds the length. -/
def lengthText (line : SizeLine) : Bytes :=
  line.before ++ line.digits.map HexDigit.byte ++ line.after

/-- The part of a line behind the length. -/
def extensionText (line : SizeLine) : Bytes :=
  match line.extension with
  | none => []
  | some text => ChunkSize.semicolon :: text

/-- A line without its line end. -/
def content (line : SizeLine) : Bytes :=
  line.lengthText ++ line.extensionText

/-- A line as it is sent. -/
def bytes (line : SizeLine) : Bytes :=
  line.content ++ Bytes.crlf

variable (line : SizeLine)

/-- A blank of a size line is trimmed, and ends neither the length nor the line. -/
theorem blank_spec {b : UInt8} (h : Bytes.isSpaceOrTab b = true) :
    isAsciiBlank b = true ∧ b ≠ ChunkSize.semicolon ∧ b ≠ Bytes.cr ∧ b ≠ Bytes.lf := by
  unfold Bytes.isSpaceOrTab at h
  rcases Bool.or_eq_true_iff.1 h with h | h
  · rw [beq_iff_eq.1 h]
    decide
  · rw [beq_iff_eq.1 h]
    decide

/-- The length and its blanks hold neither a semicolon nor a line end. -/
theorem lengthText_spec {b : UInt8} (h : b ∈ line.lengthText) :
    b ≠ ChunkSize.semicolon ∧ b ≠ Bytes.cr ∧ b ≠ Bytes.lf := by
  unfold lengthText at h
  rcases List.mem_append.1 h with h | h
  · rcases List.mem_append.1 h with h | h
    · exact (blank_spec (line.before_blank b h)).2
    · obtain ⟨d, -, rfl⟩ := List.mem_map.1 h
      exact d.byte_spec.2.2
  · exact (blank_spec (line.after_blank b h)).2

/-- A line goes on to its line end. -/
theorem content_spec {b : UInt8} (h : b ∈ line.content) : b ≠ Bytes.cr ∧ b ≠ Bytes.lf := by
  unfold content at h
  rcases List.mem_append.1 h with h | h
  · exact (line.lengthText_spec h).2
  · unfold extensionText at h
    split at h
    · cases h
    · rename_i text hext
      rcases List.mem_cons.1 h with rfl | h
      · decide
      · exact line.extension_inline text hext b h

end SizeLine

namespace SizeLine

variable (line : SizeLine)

/-- The length is what is left of a line once blanks and extension are taken off. -/
theorem lengthPart_content :
    ChunkSize.lengthPart (line.content ++ [Bytes.cr]) = line.digits.map HexDigit.byte := by
  have hdigit : ∀ b ∈ line.digits.map HexDigit.byte, isAsciiBlank b = false := by
    intro b hb
    obtain ⟨d, -, rfl⟩ := List.mem_map.1 hb
    exact d.byte_spec.2.1
  refine ChunkSize.isLength_iff.1 ⟨line.before, line.after, line.extensionText, [Bytes.cr], ?_⟩
  constructor
  case split => rfl
  case ending => exact .inl rfl
  case extension =>
    unfold extensionText
    split
    · exact .inl rfl
    · exact .inr ⟨_, rfl⟩
  case inline => exact fun hmem => (line.lengthText_spec hmem).1 rfl
  case before => exact fun b hb => (blank_spec (line.before_blank b hb)).1
  case after => exact fun b hb => (blank_spec (line.after_blank b hb)).1
  case front => exact fun b hb => hdigit b (List.mem_of_mem_head? hb)
  case back => exact fun b hb => hdigit b (List.mem_of_mem_getLast? hb)

/-- A chunk size line that was written is read back. -/
theorem parse_bytes (h : line.length < ChunkSize.bound) :
    ChunkSize.parse line.bytes
      = .ok { consumed := line.bytes.length, length := line.length } := by
  -- The first line feed is the last byte.
  have hcontent : Bytes.lf ∉ line.content ++ [Bytes.cr] := by
    intro hmem
    rcases List.mem_append.1 hmem with hmem | hmem
    · exact (line.content_spec hmem).2 rfl
    · exact absurd hmem (by decide)
  have hsplit : line.bytes = (line.content ++ [Bytes.cr]) ++ Bytes.lf :: [] := by
    simp [bytes, Bytes.crlf]
  have hsize : line.digits.map HexDigit.byte ≠ [] := by simp [line.digits_ne_nil]
  rw [hsplit, ChunkSize.parse_line hcontent, lengthPart_content, if_neg hsize,
    ChunkSize.readDigits_map_byte 0 line.digits h]
  simp [Except.map, length]

/-- A line ends where it was written to end, whatever follows. -/
theorem lineEnd?_bytes (rest : Bytes) :
    Bytes.lineEnd? 0 (line.bytes ++ rest) = some line.bytes.length := by
  have hcr : Bytes.cr ∉ line.content := fun hmem => (line.content_spec hmem).1 rfl
  rw [Bytes.lineEnd?_zero, bytes, Bytes.crlf, Bytes.find?_append_of_not_mem hcr]
  simp

end SizeLine

/-! ### Bodies -/

/-- A chunk as a server may write it. -/
structure Chunk where
  /-- The line before the data. -/
  line : SizeLine
  /-- The data. -/
  data : Bytes
  announced : line.length = data.length
  data_ne_nil : data ≠ []
  /-- A chunk has fewer bytes than 64 bits can count, as every byte string in memory does. -/
  fits : data.length < ChunkSize.bound

/-- A chunk as it is sent. -/
def Chunk.bytes (chunk : Chunk) : Bytes :=
  chunk.line.bytes ++ chunk.data ++ Bytes.crlf

/-- A chunked body as a server may write it, up to the end of its last size line. -/
structure ChunkedBody where
  /-- The chunks. -/
  chunks : List Chunk
  /-- The line that announces no data. -/
  last : SizeLine
  last_empty : last.length = 0

namespace ChunkedBody

/-- A body as it is sent. -/
def bytes (body : ChunkedBody) : Bytes :=
  body.chunks.flatMap Chunk.bytes ++ body.last.bytes

/-- The data of all chunks. -/
def data (body : ChunkedBody) : Bytes :=
  body.chunks.flatMap Chunk.data

/-- No size line is longer than this. -/
def LinesWithin (body : ChunkedBody) (limit : Nat) : Prop :=
  (∀ chunk ∈ body.chunks, chunk.line.bytes.length ≤ limit) ∧ body.last.bytes.length ≤ limit

/-- The data among the first `n` bytes of these chunks as they are sent. -/
def dataAmong : List Chunk → Nat → Bytes
  | [], _ => []
  | chunk :: chunks, n =>
    chunk.data.take (n - chunk.line.bytes.length) ++ dataAmong chunks (n - chunk.bytes.length)

/-- There is no data among no bytes. -/
theorem dataAmong_zero (chunks : List Chunk) : dataAmong chunks 0 = [] := by
  induction chunks with
  | nil => rfl
  | cons chunk chunks ih => simp only [dataAmong, Nat.zero_sub, List.take_zero, ih, List.append_nil]

/-- The data among the first `n` bytes of a body. -/
def dataWithin (body : ChunkedBody) (n : Nat) : Bytes :=
  dataAmong body.chunks n

end ChunkedBody

end NtripClient
