import NtripClient.Bytes

/-!
# `NtripClient.Chunk.Size`: the line before a chunk

A chunk size line is a hexadecimal length, an optional extension after a
semicolon, and a line end. Five blanks of ASCII may surround the length and do not
count.

The digits are read from left to right and the first thing that is wrong decides:
a byte that is no digit, or a length that no longer fits in 64 bits.
-/

set_option autoImplicit false

namespace NtripClient

/-- Tab, line feed, form feed, carriage return or space. -/
def isAsciiBlank (b : UInt8) : Bool :=
  b == 0x09 || b == 0x0A || b == 0x0C || b == 0x0D || b == 0x20

/-- What a chunk size line says. -/
structure ChunkSize where
  /-- The length of the line, line end included. -/
  consumed : Nat
  /-- The length of the chunk it announces. -/
  length : Nat
deriving DecidableEq, Repr

/-- Why a chunk size line cannot be read. -/
inductive ChunkSizeError where
  /-- There is no line feed yet. -/
  | incomplete
  /-- The length is missing or holds something other than digits. -/
  | invalid
  /-- The length does not fit in 64 bits. -/
  | overflow
deriving DecidableEq, Repr

/-- The error as text. -/
def ChunkSizeError.message : ChunkSizeError → String
  | .incomplete => "incomplete chunk size line"
  | .invalid => "invalid chunk size"
  | .overflow => "chunk size overflow"

namespace ChunkSize

/-- The number of bytes between the data of a chunk and the next size line. -/
def trailer : Nat := 2

/-- Lengths are below this bound. -/
def bound : Nat := Nat.pow 2 64

/-- The byte that starts an extension. -/
def semicolon : UInt8 := 59

/-- The value of a hexadecimal digit, in either case. -/
def digit? (b : UInt8) : Option Nat :=
  if 48 ≤ b && b ≤ 57 then some (b.toNat - 48)
  else if 97 ≤ b && b ≤ 102 then some (b.toNat - 97 + 10)
  else if 65 ≤ b && b ≤ 70 then some (b.toNat - 65 + 10)
  else none

/-- Reads digits behind those that gave `value`. -/
def readDigits (value : Nat) : Bytes → Except ChunkSizeError Nat
  | [] => .ok value
  | b :: rest =>
    match digit? b with
    | none => .error .invalid
    | some d =>
      if value * 16 + d < bound then readDigits (value * 16 + d) rest
      else .error .overflow

/-- The part of a line, without its line feed, that holds the length: up to an
extension, with a trailing carriage return and the blanks around it removed. -/
def lengthPart (line : Bytes) : Bytes :=
  let line := Bytes.stripLast Bytes.cr line
  let size := line.takeWhile (· != semicolon)
  dropTrailing isAsciiBlank (size.dropWhile isAsciiBlank)

/-- Reads the chunk size line at the front of a byte string. Bytes behind its line
feed do not matter. -/
def parse (bytes : Bytes) : Except ChunkSizeError ChunkSize :=
  match Bytes.find? [Bytes.lf] bytes with
  | none => .error .incomplete
  | some stop =>
    let size := lengthPart (bytes.take stop)
    if size.isEmpty then .error .invalid
    else (readDigits 0 size).map fun length => { consumed := stop + 1, length }

/-- A chunk size line has at least its line feed. -/
theorem consumed_pos {bytes : Bytes} {size : ChunkSize} (h : parse bytes = .ok size) :
    0 < size.consumed := by
  unfold parse at h
  split at h
  · cases h
  · simp only at h
    split at h
    · cases h
    · rename_i stop _ _
      cases hd : readDigits 0 (lengthPart (List.take stop bytes)) with
      | error e => rw [hd] at h; cases h
      | ok length => rw [hd] at h; cases h; exact Nat.succ_pos _

end ChunkSize

end NtripClient
