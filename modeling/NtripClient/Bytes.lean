/-!
# `NtripClient.Bytes`: byte strings, and the searches made in them

Everything a server sends is a list of bytes. This module names the two line
bytes, finds a pattern from an offset on, cuts a byte string into its lines, and
trims the end of a list.

Searches return offsets, because the reader resumes a search where the last one
stopped: `find?` looks from the front and `findFrom?` from an offset.
-/

set_option autoImplicit false

namespace NtripClient

/-- A byte string, first byte first. -/
abbrev Bytes := List UInt8

/-- Drops the longest run of elements satisfying `p` from the end of a list. -/
def dropTrailing {α : Type} (p : α → Bool) (l : List α) : List α :=
  (l.reverse.dropWhile p).reverse

namespace Bytes

/-- Carriage return. -/
def cr : UInt8 := 13

/-- Line feed. -/
def lf : UInt8 := 10

/-- The two bytes that end a line on the wire. -/
def crlf : Bytes := [cr, lf]

/-- A space or a horizontal tab. -/
def isSpaceOrTab (b : UInt8) : Bool :=
  b == 32 || b == 9

/-- The search behind `find?`: `offset` counts the bytes already passed. -/
def findAfter (pattern : Bytes) (offset : Nat) : Bytes → Option Nat
  | [] => if pattern.isEmpty then some offset else none
  | b :: rest =>
    if pattern.isPrefixOf (b :: rest) then some offset
    else findAfter pattern (offset + 1) rest

/-- The offset of the first occurrence of `pattern`. -/
def find? (pattern bytes : Bytes) : Option Nat :=
  findAfter pattern 0 bytes

/-- The offset of the first occurrence of `pattern` that does not start before
offset `start`. -/
def findFrom? (pattern : Bytes) (start : Nat) (bytes : Bytes) : Option Nat :=
  findAfter pattern start (bytes.drop start)

/-- The offset just past the first CRLF that does not start before `start`. -/
def lineEnd? (start : Nat) (bytes : Bytes) : Option Nat :=
  (findFrom? crlf start bytes).map (· + 2)

/-- The offset just past a header block: 2 when the block is empty, that is when
the bytes start with CRLF, and otherwise just past the first CRLFCRLF that does
not start before `start`. -/
def blockEnd? (start : Nat) (bytes : Bytes) : Option Nat :=
  if crlf.isPrefixOf bytes then some 2
  else (findFrom? (crlf ++ crlf) start bytes).map (· + 4)

/-- The loop behind `lines`: `current` is the line being read and `done` the
lines before it, both last first. -/
def linesInto (done : List Bytes) (current : Bytes) : Bytes → List Bytes
  | [] => (if current.isEmpty then done else current.reverse :: done).reverse
  | b :: rest =>
    if b = lf then linesInto ((b :: current).reverse :: done) [] rest
    else linesInto done (b :: current) rest

/-- Cuts a byte string after every line feed. Each line keeps its line feed; the
last one may lack it, and no line is empty. -/
def lines (bytes : Bytes) : List Bytes :=
  linesInto [] [] bytes

/-- Removes one trailing `b`, if there is one. -/
def stripLast (b : UInt8) (bytes : Bytes) : Bytes :=
  if bytes.getLast? = some b then bytes.dropLast else bytes

/-- The loop behind `lines` passes on every byte it is given, in order. -/
theorem flatten_linesInto (done : List Bytes) (current bytes : Bytes) :
    (linesInto done current bytes).flatten = done.reverse.flatten ++ current.reverse ++ bytes := by
  induction bytes generalizing done current with
  | nil =>
    rw [linesInto]
    split
    · next h => simp [List.isEmpty_iff.1 h]
    · simp
  | cons b rest ih =>
    rw [linesInto]
    split <;> simp [ih]

/-- Cutting into lines loses nothing. -/
theorem flatten_lines (bytes : Bytes) : (lines bytes).flatten = bytes := by
  simp [lines, flatten_linesInto]

/-- A line end lies behind at least one byte, in bytes that are there. -/
theorem ne_nil_of_lineEnd? {bytes : Bytes} {start stop : Nat}
    (h : lineEnd? start bytes = some stop) : bytes ≠ [] ∧ 0 < stop := by
  refine ⟨fun hnil => ?_, ?_⟩
  · simp [hnil, lineEnd?, findFrom?, findAfter, crlf] at h
  · obtain ⟨n, -, rfl⟩ := Option.map_eq_some_iff.1 h
    omega

/-- The end of a block lies behind at least one byte, in bytes that are there. -/
theorem ne_nil_of_blockEnd? {bytes : Bytes} {start stop : Nat}
    (h : blockEnd? start bytes = some stop) : bytes ≠ [] ∧ 0 < stop := by
  refine ⟨fun hnil => ?_, ?_⟩
  · simp [hnil, blockEnd?, findFrom?, findAfter, crlf] at h
  · unfold blockEnd? at h
    split at h
    · cases h; omega
    · obtain ⟨n, -, rfl⟩ := Option.map_eq_some_iff.1 h
      omega

end Bytes

end NtripClient
