import NtripClient.Chunk.Size
import NtripClient.Error
import NtripClient.Header.Map

/-!
# `NtripClient.Answer.Decoder`: reading an answer from bytes that arrive in pieces

A decoder holds the bytes that have arrived and were not used yet, and the stage
of the answer they belong to. `advance` uses the bytes it can and reports one
thing at a time: the status line, the headers, a piece of the body, the end, a
defect, or that it needs more bytes.

A search for a line end looks at every byte once. What was searched is kept in the
stage, less the bytes that may be the start of the line end.
-/

set_option autoImplicit false

namespace NtripClient

/-- Limits on what an answer may make a client store. -/
structure Limits where
  /-- The longest status line or chunk size line, line end included. -/
  line : Nat
  /-- The longest header block, blank line included. -/
  block : Nat
deriving DecidableEq, Repr

/-- The part of an answer that comes next. -/
inductive Stage where
  /-- The status line, with the first bytes searched for its end. -/
  | status (searched : Nat)
  /-- The header block, with the first bytes searched for its end. -/
  | headers (searched : Nat)
  /-- A body that is not chunked. -/
  | plain
  /-- A chunk size line, with the first bytes searched for its end. -/
  | chunkSize (searched : Nat)
  /-- The data of a chunk, of which this many bytes are missing. -/
  | chunkData (missing : Nat) (pos : 0 < missing)
  /-- The bytes between the data of a chunk and the next size line. -/
  | chunkEnd
deriving DecidableEq, Repr

/-- What a decoder has to say. -/
inductive Signal where
  /-- Nothing, before more bytes arrive. -/
  | more
  /-- Nothing, but the next stage has begun. -/
  | proceed
  /-- The status line, which accepts the request. -/
  | accepted (status : StatusLine)
  /-- The headers. -/
  | headers (map : HeaderMap)
  /-- A piece of the body, not empty. -/
  | data (bytes : Bytes)
  /-- The end of the body. -/
  | finished
  /-- A defect, which ends the connection. -/
  | failed (error : Error)
deriving DecidableEq, Repr

/-- A decoder between two pieces of an answer. -/
structure Decoder where
  /-- The part of the answer that comes next. -/
  stage : Stage := .status 0
  /-- The bytes that were not used yet. -/
  buffer : Bytes := []
deriving DecidableEq, Repr

/-- The result of looking for the end of a part whose length is limited. -/
inductive Scan where
  /-- The part has this length. -/
  | found (length : Nat)
  /-- The end is not there yet, and this many bytes need not be searched again. -/
  | unfinished (searched : Nat)
  /-- The part is longer than the limit. -/
  | tooLong
deriving DecidableEq, Repr

/-- Judges a search: `stop?` is the end found, `size` the number of bytes there are,
and the last `overlap` of them may belong to an end that is not complete. A part
whose end is not there yet is as long as the bytes there are. -/
def Scan.ofSearch (stop? : Option Nat) (size limit overlap : Nat) : Scan :=
  if limit < stop?.getD size then .tooLong
  else
    match stop? with
    | some length => .found length
    | none => .unfinished (size - overlap)

namespace Decoder

/-- Looks for the end of a line. -/
def scanLine (limit searched : Nat) (buffer : Bytes) : Scan :=
  .ofSearch (Bytes.lineEnd? searched buffer) buffer.length limit 1

/-- Looks for the end of a header block. -/
def scanBlock (limit searched : Nat) (buffer : Bytes) : Scan :=
  .ofSearch (Bytes.blockEnd? searched buffer) buffer.length limit 3

/-- The stage after the headers. -/
def bodyStage (map : HeaderMap) : Stage :=
  if map.isChunked then .chunkSize 0 else .plain

/-- The stage in which this many bytes of a chunk are missing. -/
def chunkStage (missing : Nat) : Stage :=
  if h : 0 < missing then .chunkData missing h else .chunkEnd

/-- Adds bytes that arrived. -/
def push (decoder : Decoder) (bytes : Bytes) : Decoder :=
  { decoder with buffer := decoder.buffer ++ bytes }

/-- Uses a status line of the given length. -/
def takeStatus (buffer : Bytes) (length : Nat) : Signal × Decoder :=
  let status := StatusLine.parse (buffer.take length)
  let rest := buffer.drop length
  if !status.isOk then (.failed (.invalidStatus status), { stage := .status 0, buffer := rest })
  else if status.skipsHeaders then (.accepted status, { stage := .plain, buffer := rest })
  else (.accepted status, { stage := .headers 0, buffer := rest })

/-- Uses a header block of the given length. -/
def takeHeaders (buffer : Bytes) (length : Nat) : Signal × Decoder :=
  let map := (HeaderMap.empty.insertBlock (buffer.take length)).1
  (.headers map, { stage := bodyStage map, buffer := buffer.drop length })

/-- Uses a chunk size line of the given length. -/
def takeChunkSize (buffer : Bytes) (length : Nat) : Signal × Decoder :=
  match ChunkSize.parse (buffer.take length) with
  | .error _ => (.failed (.malformed .chunkSizeLine), { stage := .chunkSize 0, buffer })
  | .ok size =>
    let rest := buffer.drop size.consumed
    if size.length = 0 then (.finished, { stage := .chunkSize 0, buffer := rest })
    else (.proceed, { stage := chunkStage size.length, buffer := rest })

/-- Uses what there is of the data of a chunk. -/
def takeChunkData (buffer : Bytes) (missing : Nat) : Signal × Decoder :=
  if buffer.isEmpty then (.more, { stage := chunkStage missing, buffer })
  else
    (.data (buffer.take missing),
      { stage := chunkStage (missing - buffer.length), buffer := buffer.drop missing })

/-- Uses the bytes between two chunks, whatever they are. -/
def takeChunkEnd (buffer : Bytes) : Signal × Decoder :=
  if buffer.length < ChunkSize.trailer then (.more, { stage := .chunkEnd, buffer })
  else (.proceed, { stage := .chunkSize 0, buffer := buffer.drop ChunkSize.trailer })

/-- Goes on by one thing to report. -/
def advance (limits : Limits) (decoder : Decoder) : Signal × Decoder :=
  let buffer := decoder.buffer
  match decoder.stage with
  | .status searched =>
    match scanLine limits.line searched buffer with
    | .tooLong => (.failed (.malformed .lineTooLong), decoder)
    | .unfinished searched => (.more, { decoder with stage := .status searched })
    | .found length => takeStatus buffer length
  | .headers searched =>
    match scanBlock limits.block searched buffer with
    | .tooLong => (.failed (.malformed .headerBlockTooLong), decoder)
    | .unfinished searched => (.more, { decoder with stage := .headers searched })
    | .found length => takeHeaders buffer length
  | .plain =>
    if buffer.isEmpty then (.more, decoder)
    else (.data buffer, { decoder with buffer := [] })
  | .chunkSize searched =>
    match scanLine limits.line searched buffer with
    | .tooLong => (.failed (.malformed .lineTooLong), decoder)
    | .unfinished searched => (.more, { decoder with stage := .chunkSize searched })
    | .found length => takeChunkSize buffer length
  | .chunkData missing _ => takeChunkData buffer missing
  | .chunkEnd => takeChunkEnd buffer

end Decoder

end NtripClient
