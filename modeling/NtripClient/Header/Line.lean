import NtripClient.Text.Utf8

/-!
# `NtripClient.Header.Line`: one header line

A header line is split at its first colon. The key is kept exactly as split, and
read as text. The value keeps its bytes, because servers send station names in
Latin-1, less the blanks around it: all leading spaces and tabs, and at most four
trailing spaces, tabs, carriage returns and line feeds.
-/

set_option autoImplicit false

namespace NtripClient

/-- A response header: a key and the bytes of its value. -/
structure Header where
  /-- The text before the colon. Case matters. -/
  key : String
  /-- The bytes after the colon, trimmed. -/
  value : Bytes
deriving DecidableEq, Repr

namespace Header

/-- The byte between key and value. -/
def colon : UInt8 := 58

/-- The most trailing bytes that are trimmed from a value. -/
def trailingTrim : Nat := 4

/-- A byte that may be trimmed from the end of a value. -/
def isTrailing (b : UInt8) : Bool :=
  Bytes.isSpaceOrTab b || b == Bytes.cr || b == Bytes.lf

/-- The length of the longest run of trailing bytes, counted up to
`trailingTrim`. -/
def trailingLength (value : Bytes) : Nat :=
  ((value.reverse.take trailingTrim).takeWhile isTrailing).length

/-- The bytes after the colon without the blanks around them. -/
def trimValue (bytes : Bytes) : Bytes :=
  let value := bytes.dropWhile Bytes.isSpaceOrTab
  value.take (value.length - trailingLength value)

/-- Reads a header line. A line without a colon holds no header. -/
def parse? (line : Bytes) : Option Header :=
  match line.dropWhile (· != colon) with
  | [] => none
  | _ :: after =>
    some { key := Utf8.decode (line.takeWhile (· != colon)), value := trimValue after }

/-- Writes a header as a line: key, colon, space, value, CRLF. -/
def line (header : Header) : Bytes :=
  Utf8.encode header.key ++ colon :: 32 :: header.value ++ Bytes.crlf

/-- The header that selects chunked framing of the body. -/
def transferEncoding : String := "Transfer-Encoding"

/-- The only value of that header that changes the framing. -/
def chunkedCoding : String := "chunked"

/-- The header selects chunked framing: both key and value match exactly. -/
def selectsChunked (header : Header) : Bool :=
  header.key == transferEncoding && header.value == Utf8.encode chunkedCoding

end Header

end NtripClient
