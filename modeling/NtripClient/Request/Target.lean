import NtripClient.Request.Field
import NtripClient.Text.Utf8

/-!
# `NtripClient.Request.Target`: what a request asks for

A target is a path and an optional query. It is read from a mountpoint, the name
of a stream on its server. The slash at its front may be left out, and everything
from the first `#` on is dropped unread.

The type holds valid targets only: its text starts with a slash and holds no
space, control character or `#`. Hence it takes exactly one place in a request
line.
-/

set_option autoImplicit false

namespace NtripClient

/-- A character that may stand in a path. Outside ASCII everything may. -/
def isPathChar (c : Char) : Bool :=
  let n := c.toNat
  n == 0x21 || n == 0x22 || (0x24 ≤ n && n ≤ 0x3B) || n == 0x3D || (0x40 ≤ n && n ≤ 0x5F)
    || (0x61 ≤ n && n ≤ 0x7E) || 0x80 ≤ n

/-- A character that may stand in a query. Outside ASCII everything may. -/
def isQueryChar (c : Char) : Bool :=
  let n := c.toNat
  n == 0x21 || (0x24 ≤ n && n ≤ 0x3B) || n == 0x3D || (0x3F ≤ n && n ≤ 0x7E) || 0x80 ≤ n

/-- A path and an optional query. -/
structure Target where
  /-- The path, slash first. -/
  path : List Char
  /-- The query, without the question mark before it. -/
  query : Option (List Char)
  /-- A path starts with a slash. -/
  path_head : path.head? = some '/'
  /-- A path holds path characters only. -/
  path_valid : path.all isPathChar = true
  /-- A query holds query characters only. -/
  query_valid : ∀ q ∈ query, q.all isQueryChar = true

namespace Target

/-- The greatest length of a target, in bytes. -/
def maxLength : Nat := 65534

/-- The root of the server. -/
def root : Target where
  path := ['/']
  query := none
  path_head := rfl
  path_valid := by decide
  query_valid := nofun

/-- The characters of a target: its path and, after a question mark, its query. -/
def chars (target : Target) : List Char :=
  match target.query with
  | none => target.path
  | some query => target.path ++ '?' :: query

/-- A target as text. -/
def text (target : Target) : String :=
  String.ofList target.chars

/-- A path and a query as a target, if both hold valid characters only. -/
def ofParts? (path : List Char) (query : Option (List Char)) : Option Target :=
  if h : path.head? = some '/' ∧ path.all isPathChar = true
      ∧ ∀ q ∈ query, q.all isQueryChar = true then
    some { path, query, path_head := h.1, path_valid := h.2.1, query_valid := h.2.2 }
  else none

/-- A mountpoint with its slash. -/
def rooted (mountpoint : List Char) : List Char :=
  if mountpoint.head? = some '/' then mountpoint else '/' :: mountpoint

/-- The characters before a `#`, split at the first question mark. -/
def split (text : List Char) : List Char × Option (List Char) :=
  let kept := text.takeWhile (· != '#')
  (kept.takeWhile (· != '?'), (kept.dropWhile (· != '?')).tail?)

/-- Reads a mountpoint. A mountpoint that is too long is refused for its length,
whatever it holds. -/
def ofMountpoint (mountpoint : String) : Except RequestFault Target :=
  let text := rooted mountpoint.toList
  if maxLength < (String.ofList text).utf8ByteSize then .error .targetTooLong
  else
    let (path, query) := split text
    match ofParts? path query with
    | some target => .ok target
    | none => .error .targetCharacter

end Target

end NtripClient
