import NtripClient.Header.Line
import NtripClient.Text.Quoted

/-!
# `NtripClient.Header.Map`: the headers of an answer

A header map holds headers in the order they arrived, with repeated keys. It also
remembers whether one of them selected chunked framing.

`insertBlock` reads a whole header block line by line. Lines without a colon are
passed over, and the block ends after its first blank line.
-/

set_option autoImplicit false

namespace NtripClient

/-- Headers in arrival order. -/
structure HeaderMap where
  /-- The headers, first arrived first. -/
  entries : Array Header := #[]
  /-- One of them selected chunked framing. -/
  isChunked : Bool := false
deriving DecidableEq, Repr

namespace HeaderMap

/-- No headers. -/
def empty : HeaderMap := {}

/-- Adds a header behind the others. Headers with the same key are kept. -/
def insert (map : HeaderMap) (header : Header) : HeaderMap :=
  { entries := map.entries.push header, isChunked := map.isChunked || header.selectsChunked }

/-- Adds headers in order. -/
def insertAll (map : HeaderMap) (headers : List Header) : HeaderMap :=
  headers.foldl insert map

/-- The map of the given headers. -/
def ofList (headers : List Header) : HeaderMap :=
  empty.insertAll headers

/-- The headers in arrival order. -/
def toList (map : HeaderMap) : List Header :=
  map.entries.toList

/-- The number of headers. -/
def size (map : HeaderMap) : Nat :=
  map.entries.size

/-- There are no headers. -/
def isEmpty (map : HeaderMap) : Bool :=
  map.entries.isEmpty

/-- The value of the first header with this key. -/
def get? (map : HeaderMap) (key : String) : Option Bytes :=
  (map.entries.find? (·.key == key)).map (·.value)

/-- The same value as text, if it is well-formed UTF-8. -/
def getText? (map : HeaderMap) (key : String) : Option String :=
  (map.get? key).bind Utf8.decode?

/-- The values of all headers with this key, in arrival order. -/
def getAll (map : HeaderMap) (key : String) : List Bytes :=
  (map.toList.filter (·.key == key)).map (·.value)

/-- Some header has this key. -/
def contains (map : HeaderMap) (key : String) : Bool :=
  map.entries.any (·.key == key)

/-- A line of a header block ends the block: nothing but its line end is left. -/
def isBlankLine (line : Bytes) : Bool :=
  line.isEmpty || line == [Bytes.cr]

/-- Adds the header of one line, if it holds one. -/
def insertLine (map : HeaderMap) (line : Bytes) : HeaderMap :=
  match Header.parse? line with
  | some header => map.insert header
  | none => map

/-- Adds the headers of successive lines, up to a blank one. `consumed` counts the
bytes of the lines read, blank line and line feeds included. -/
def insertLines (map : HeaderMap) (consumed : Nat) : List Bytes → HeaderMap × Nat
  | [] => (map, consumed)
  | line :: rest =>
    let consumed := consumed + line.length
    let content := Bytes.stripLast Bytes.lf line
    if isBlankLine content then (map, consumed)
    else (map.insertLine content).insertLines consumed rest

/-- Adds the headers of a block. Also returns how many bytes of it were read. -/
def insertBlock (map : HeaderMap) (block : Bytes) : HeaderMap × Nat :=
  map.insertLines 0 (Bytes.lines block)

/-- Writes headers as a block: a line for each, then a blank line. -/
def block (headers : List Header) : Bytes :=
  headers.flatMap Header.line ++ Bytes.crlf

/-- Headers as text: key and value quoted, in arrival order. -/
def text (map : HeaderMap) : String :=
  let entry (header : Header) : String :=
    Quoted.text header.key ++ ": " ++ Quoted.bytes header.value
  "\x7b" ++ ", ".intercalate (map.toList.map entry) ++ "\x7d"

/-- An empty map has no headers. -/
@[simp] theorem toList_empty : empty.toList = [] := rfl

/-- A header is added behind the others. -/
@[simp] theorem toList_insert (map : HeaderMap) (header : Header) :
    (map.insert header).toList = map.toList ++ [header] := by
  simp [toList, insert]

/-- Headers are added behind the others, in their order. -/
@[simp] theorem toList_insertAll (map : HeaderMap) (headers : List Header) :
    (map.insertAll headers).toList = map.toList ++ headers := by
  induction headers generalizing map with
  | nil => simp [insertAll]
  | cons header headers ih =>
    rw [insertAll, List.foldl_cons, ← insertAll, ih, toList_insert, List.append_assoc]
    rfl

/-- A map holds the headers it was made of, in order. -/
@[simp] theorem toList_ofList (headers : List Header) : (ofList headers).toList = headers := by
  simp [ofList]

/-- A map of headers is chunked when one of them selects that framing. -/
theorem isChunked_ofList (headers : List Header) :
    (ofList headers).isChunked = headers.any Header.selectsChunked := by
  have key : ∀ map : HeaderMap,
      (map.insertAll headers).isChunked
        = (map.isChunked || headers.any Header.selectsChunked) := by
    induction headers with
    | nil => simp [insertAll]
    | cons header headers ih =>
      intro map
      rw [insertAll, List.foldl_cons, ← insertAll, ih]
      simp [insert, Bool.or_assoc]
  simp [ofList, key, empty]

end HeaderMap

end NtripClient
