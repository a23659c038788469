import NtripClient.Bytes

/-!
# `NtripClient.Request.Field`: names and values of request fields

A field name is a non-empty token, kept in lower case. A field value may hold any
byte but control bytes, of which only the tab is let through. Neither can hold a
carriage return or a line feed, so a field takes exactly one line.

The parts of a request are checked when they are set, and a `RequestFault` says what
is wrong with one that is refused.
-/

set_option autoImplicit false

namespace NtripClient

/-- Why a part of a request is refused. -/
inductive RequestFault where
  /-- The target is longer than a server need accept. -/
  | targetTooLong
  /-- The target holds a character that may not stand there. -/
  | targetCharacter
  /-- A field name is empty, too long, or holds a byte outside the token set. -/
  | fieldName
  /-- A field value holds a control byte. -/
  | fieldValue
deriving DecidableEq, Repr

/-- The fault as text. -/
def RequestFault.message : RequestFault → String
  | .targetTooLong => "uri too long"
  | .targetCharacter => "invalid uri character"
  | .fieldName => "invalid HTTP header name"
  | .fieldValue => "failed to parse header value"

/-- The lower-case form of a byte. Only ASCII letters have one of their own. -/
def lowerByte (b : UInt8) : UInt8 :=
  if 65 ≤ b && b ≤ 90 then b + 32 else b

/-- A byte of a lower-case token: a lower-case letter, a digit, or one of
the marks ``!#$%&'*+-.^_`|~``. -/
def isTokenByte (b : UInt8) : Bool :=
  (97 ≤ b && b ≤ 122) || (48 ≤ b && b ≤ 57)
    || [33, 35, 36, 37, 38, 39, 42, 43, 45, 46, 94, 95, 96, 124, 126].contains b

/-- A byte that may stand in a field value. -/
def isValueByte (b : UInt8) : Bool :=
  b == 9 || (32 ≤ b && b != 127)

/-- The name of a request field, in lower case. -/
structure FieldName where
  /-- The bytes of the name. -/
  bytes : Bytes
  /-- A name is not empty. -/
  nonempty : bytes ≠ []
  /-- A name has at most 65535 bytes. -/
  length_le : bytes.length ≤ 65535
  /-- A name is a token. -/
  valid : bytes.all isTokenByte = true
deriving DecidableEq

/-- Reads a field name in any letter case. -/
def FieldName.parse (bytes : Bytes) : Except RequestFault FieldName :=
  let bytes := bytes.map lowerByte
  if h : bytes ≠ [] ∧ bytes.length ≤ 65535 ∧ bytes.all isTokenByte = true then
    .ok { bytes, nonempty := h.1, length_le := h.2.1, valid := h.2.2 }
  else .error .fieldName

/-- The value of a request field. -/
structure FieldValue where
  /-- The bytes of the value. -/
  bytes : Bytes
  /-- A value holds no control byte but the tab. -/
  valid : bytes.all isValueByte = true
deriving DecidableEq

/-- Reads a field value. -/
def FieldValue.parse (bytes : Bytes) : Except RequestFault FieldValue :=
  if h : bytes.all isValueByte = true then .ok { bytes, valid := h }
  else .error .fieldValue

end NtripClient
