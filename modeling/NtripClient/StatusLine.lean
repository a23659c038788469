import NtripClient.Text.Numeral
import NtripClient.Text.Utf8

/-!
# `NtripClient.StatusLine`: the first line of an answer

A status line is a protocol token, a code and a message. Reading one never
fails: a code that is missing or is no number stays absent, and the line is then
refused later because only code 200 is accepted.

Its parts stand between blanks, which are those of the Unicode property White_Space
and not the ones of ASCII only.

The protocol token decides what follows an accepted line. After `ICY` the body
follows at once, after any other token a header block.
-/

set_option autoImplicit false

namespace NtripClient

/-- The Unicode property White_Space. -/
def isBlank (c : Char) : Bool :=
  let n := c.toNat
  (0x09 ≤ n && n ≤ 0x0D) || n == 0x20 || n == 0x85 || n == 0xA0 || n == 0x1680
    || (0x2000 ≤ n && n ≤ 0x200A) || n == 0x2028 || n == 0x2029 || n == 0x202F
    || n == 0x205F || n == 0x3000

/-- A status line, read. -/
structure StatusLine where
  /-- The token before the first space or tab, such as `ICY` or `HTTP/1.1`. -/
  protocol : String
  /-- The code, if the second token is a number that fits in 16 bits. -/
  code : Option UInt16
  /-- All that follows the second token. -/
  message : String
deriving DecidableEq, Repr

namespace StatusLine

/-- The protocol token that the body follows without a header block. -/
def icyProtocol : String := "ICY"

/-- Splits at the first space or tab. The blanks after the token belong to
neither part. -/
def splitToken (text : List Char) : List Char × List Char :=
  let isBreak (c : Char) : Bool := c == ' ' || c == '\t'
  (text.takeWhile (!isBreak ·), (text.dropWhile (!isBreak ·)).dropWhile isBlank)

/-- Reads a code: decimal digits after at most one plus sign, below 65536. -/
def code? (token : List Char) : Option UInt16 :=
  let digits := match token with
    | '+' :: digits => digits
    | digits => digits
  (Numeral.below? 10 65536 digits).map UInt16.ofNat

/-- Reads the characters of a status line. -/
def ofChars (line : List Char) : StatusLine :=
  let text := (dropTrailing (fun c => c == '\r' || c == '\n') line).dropWhile isBlank
  let (protocol, rest) := splitToken text
  let (code, message) := splitToken rest
  { protocol := String.ofList protocol, code := code? code, message := String.ofList message }

/-- Reads a status line, with or without its line end. -/
def parse (line : Bytes) : StatusLine :=
  ofChars (Utf8.decodeChars line)

/-- The code, if it is one that an answer may carry: 100 to 999. -/
def status? (line : StatusLine) : Option UInt16 :=
  line.code.filter fun code => 100 ≤ code && code ≤ 999

/-- The server accepted the request: the code is 200. -/
def isOk (line : StatusLine) : Bool :=
  line.code == some 200

/-- The body follows at once, without a header block. -/
def skipsHeaders (line : StatusLine) : Bool :=
  line.protocol == icyProtocol

/-- The code as written in `text`: its digits, or three question marks. -/
def codeText (line : StatusLine) : List Char :=
  match line.code with
  | some code => Numeral.decimal code.toNat
  | none => ['?', '?', '?']

/-- A status line as one line of text. The message is left out with its space when
it is empty. -/
def text (line : StatusLine) : String :=
  let message := line.message.toList
  String.ofList <|
    line.protocol.toList ++ ' ' :: line.codeText
      ++ (if message.isEmpty then [] else ' ' :: message)

end StatusLine

end NtripClient
