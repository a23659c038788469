import NtripClient.Proofs.Answer.Whole
import NtripClient.Proofs.Session.Chunked
import NtripClient.Proofs.Session.Decoding

/-!
# `NtripClient.Proofs.Session.Answer`: what the owner is told of an answer

A server may send any bytes. `answer_of_exchange` says what the owner of a session is told of
them, by the parts that they have as a whole: `AnswerTold` lists the cases of the status line,
and `HeadedTold` those of the header block. A part ends at its first end, it counts if it is
within its limit, and the next part begins right behind it. No byte is lost between two parts,
and none is told twice.

`dechunked_of_exchange` is about the body behind a head that asks for chunks. The owner gets
what `Dechunked.ofBytes` reads from all the bytes at once, whether they are chunks or not.

Both hold for every way in which the bytes are cut, because a session tells the transcript of
the bytes as a whole (`run_of_exchange`).
-/

set_option autoImplicit false

namespace NtripClient

open Decoder (Delimited)

/-! ### Status lines -/

namespace StatusLine

variable {status : StatusLine}

/-- Code 200 accepts the request. -/
theorem isOk_eq_true (h : status.code = some 200) : status.isOk = true := by
  rw [isOk, h]
  rfl

/-- Any other code refuses it, and so does none. -/
theorem isOk_eq_false (h : status.code ≠ some 200) : status.isOk = false :=
  beq_eq_false_iff_ne.2 h

/-- The old protocol has no headers. -/
theorem skipsHeaders_eq_true (h : status.protocol = "ICY") : status.skipsHeaders = true := by
  rw [skipsHeaders, h]
  rfl

/-- All other protocols have headers. -/
theorem skipsHeaders_eq_false (h : status.protocol ≠ "ICY") : status.skipsHeaders = false :=
  beq_eq_false_iff_ne.2 h

end StatusLine

/-! ### Last calls -/

/-- The end of a stream is told in the last call, if at all. -/
theorem StreamEnd.areLast_calls (ending : StreamEnd) (phase : Phase) :
    Notice.AreLast (ending.calls phase) := by
  cases ending with
  | closed =>
    show Notice.AreLast (if phase = .body then [.eof] else [.error Error.closedEarly])
    split <;> exact Notice.areLast_of_isTerminal rfl
  | failed cause => exact Notice.areLast_of_isTerminal rfl
  | silent => exact ⟨Nat.zero_le 1, fun _ hmem => by cases hmem⟩

/-- Why a body stops is told in the last call, if at all. -/
theorem BodyStop.areLast_calls (stop : BodyStop) (ending : StreamEnd) :
    Notice.AreLast (stop.calls ending) := by
  cases stop with
  | complete => exact Notice.areLast_of_isTerminal rfl
  | malformed defect => exact Notice.areLast_of_isTerminal rfl
  | exhausted => exact ending.areLast_calls .body

namespace Session

variable {s : Session} {limits : Limits} {bytes : Bytes} {ending : StreamEnd}

/-! ### What is told -/

/-- The owner is called with these headers, then with pieces that make up this data, and then
for the last time. If there is no data, there is no call with data. -/
def Tells (s : Session) (headers : List HeaderMap) (data : Bytes) (last : List Notice) : Prop :=
  ∃ pieces : List Bytes, s.notices = Notice.ofAnswer headers pieces ++ last ∧
    pieces.flatten = data ∧ (data = [] → pieces = [])

/-- What the owner is told of the bytes behind a status line that announces headers. -/
structure HeadedTold (limits : Limits) (bytes : Bytes) (ending : StreamEnd) (s : Session) :
    Prop where
  /-- There is a header block, the front of one, or one that is too long. -/
  complete : (∃ block body, bytes = block ++ body ∧ Delimited.headerBlock.IsPart limits block) ∨
    Delimited.headerBlock.IsFront limits bytes ∨ Delimited.headerBlock.IsTooLong limits bytes
  /-- Without chunks the bytes behind the headers are the data. -/
  plain : ∀ block body, bytes = block ++ body → Delimited.headerBlock.IsPart limits block →
    (HeaderMap.empty.insertBlock block).1.isChunked = false →
    s.run.Tells [(HeaderMap.empty.insertBlock block).1] body (ending.calls .body) ∧
      ∀ moves, (s.runFor moves).state ≠ .streaming .chunked
  /-- Chunks are read from all the bytes behind the headers. -/
  chunked : ∀ block body, bytes = block ++ body → Delimited.headerBlock.IsPart limits block →
    (HeaderMap.empty.insertBlock block).1.isChunked = true →
    s.run.Tells [(HeaderMap.empty.insertBlock block).1] (Dechunked.ofBytes limits.line body).data
      ((Dechunked.ofBytes limits.line body).stop.calls ending)
  /-- The stream ends inside the headers. -/
  front : Delimited.headerBlock.IsFront limits bytes → s.run.notices = ending.calls .headers
  /-- The headers are too long. -/
  tooLong : Delimited.headerBlock.IsTooLong limits bytes →
    s.run.notices = [.error (.malformed .headerBlockTooLong)]

/-- What the owner is told of an answer that has these bytes and this end. -/
structure AnswerTold (limits : Limits) (bytes : Bytes) (ending : StreamEnd) (s : Session) :
    Prop where
  /-- There is a status line, the front of one, or one that is too long. -/
  complete : (∃ line rest, bytes = line ++ rest ∧ Delimited.statusLine.IsPart limits line) ∨
    Delimited.statusLine.IsFront limits bytes ∨ Delimited.statusLine.IsTooLong limits bytes
  /-- Without code 200 only the status line is told, as an error. -/
  refused : ∀ line rest, bytes = line ++ rest → Delimited.statusLine.IsPart limits line →
    (StatusLine.parse line).code ≠ some 200 →
    s.run.notices = [.error (.invalidStatus (.parse line))]
  /-- After `ICY` there are no headers, and all the other bytes are the data. -/
  icy : ∀ line rest, bytes = line ++ rest → Delimited.statusLine.IsPart limits line →
    (StatusLine.parse line).code = some 200 → (StatusLine.parse line).protocol = "ICY" →
    s.run.Tells [] rest (ending.calls .body) ∧
      ∀ moves, (s.runFor moves).state ≠ .streaming .chunked
  /-- After any other protocol the headers come first. -/
  headed : ∀ line rest, bytes = line ++ rest → Delimited.statusLine.IsPart limits line →
    (StatusLine.parse line).code = some 200 → (StatusLine.parse line).protocol ≠ "ICY" →
    HeadedTold limits rest ending s
  /-- The stream ends inside the status line. -/
  front : Delimited.statusLine.IsFront limits bytes → s.run.notices = ending.calls .status
  /-- The status line is too long. -/
  tooLong : Delimited.statusLine.IsTooLong limits bytes →
    s.run.notices = [.error (.malformed .lineTooLong)]

/-- Headers, data and last calls, read off their joined form. -/
theorem tells_of_headers {map : HeaderMap} {data : Bytes} {last : List Notice}
    (hlast : Notice.AreLast last)
    (h : Notice.merge s.notices = Notice.onto (.headers map) (Notice.withData data last)) :
    s.Tells [map] data last := by
  obtain ⟨rest, hcalls, hrest⟩ := Notice.exists_of_merge_eq_headers h
  obtain ⟨pieces, rfl, hflatten⟩ := Notice.exists_pieces_of_body hlast hrest
  exact ⟨pieces, hcalls, hflatten⟩

/-- A session that never tells of chunks never hands over a chunked body. -/
theorem state_ne_chunked_of_tells {connection : Connection} {plan : Plan}
    {headers : List HeaderMap} {data : Bytes} {last : List Notice}
    (htells : (start connection plan).run.Tells headers data last) (hlast : Notice.AreLast last)
    (hplain : ∀ map ∈ headers, map.isChunked = false) (moves : Nat) :
    ((start connection plan).runFor moves).state ≠ .streaming .chunked := by
  intro hstate
  have htold := (toldChunked_runFor hstate).mono (notices_runFor_prefix_run _ moves)
  obtain ⟨map, hmem, hchunked⟩ := htold
  obtain ⟨pieces, hnotices, -⟩ := htells
  rw [hnotices, Notice.ofAnswer] at hmem
  -- A call with headers is one of those with these headers, and no other call.
  rcases List.mem_append.1 hmem with hmem | hmem
  · rcases List.mem_append.1 hmem with hmem | hmem
    · obtain ⟨other, hother, heq⟩ := List.mem_map.1 hmem
      cases heq
      rw [hplain _ hother] at hchunked
      cases hchunked
    · obtain ⟨piece, -, heq⟩ := List.mem_map.1 hmem
      cases heq
  · have hterminal := hlast.terminal _ hmem
    cases hterminal

/-! ### Answers of any kind -/

/-- What is told of the bytes behind a status line that announces headers. -/
theorem headedTold_of_merge {connection : Connection} {plan : Plan}
    (h : Notice.merge (start connection plan).run.notices
      = Decoder.transcript limits ending { stage := .headers 0, buffer := bytes }) :
    HeadedTold limits bytes ending (start connection plan) where
  complete := Delimited.headerBlock.part_cases limits bytes
  plain block body hsplit hblock hplain := by
    rw [hsplit, Decoder.transcript_headerBlock hblock, Decoder.bodyStage, hplain] at h
    have hlast := ending.areLast_calls .body
    have htells := tells_of_headers hlast
      (h.trans (congrArg (Notice.onto _) (Decoder.transcript_plain_eq body)))
    refine ⟨htells, state_ne_chunked_of_tells htells hlast ?_⟩
    intro map hmem
    rw [List.mem_singleton.1 hmem]
    exact hplain
  chunked block body hsplit hblock hchunked := by
    rw [hsplit, Decoder.transcript_headerBlock hblock, Decoder.bodyStage, hchunked] at h
    exact tells_of_headers (BodyStop.areLast_calls _ _)
      (h.trans (congrArg (Notice.onto _) (Decoder.transcript_chunked body)))
  front hfront := Notice.eq_of_merge_eq_last (ending.areLast_calls .headers)
    (h.trans hfront.transcript_eq)
  tooLong hlong := Notice.eq_of_merge_eq_last (Notice.areLast_of_isTerminal rfl)
    (h.trans hlong.transcript_eq)

/-- **The owner is told the answer, and nothing else.** In an exchange every byte string that
the server sends has a status line, headers and a body as far as it goes, however it is cut
into reads, and of these the owner is told as `AnswerTold` says. -/
theorem answer_of_exchange {connection : Connection} {plan : Plan} {peer : Peer}
    (h : Exchange connection plan peer) :
    AnswerTold connection.config.limits peer.reads.stream.1 peer.reads.stream.2
      (start connection plan) := by
  have hcalls := (run_of_exchange h).1
  unfold answerCalls at hcalls
  constructor
  case complete => exact Delimited.statusLine.part_cases _ _
  case refused =>
    intro line rest hsplit hline hcode
    rw [hsplit, Decoder.transcript_statusLine hline,
      if_pos (StatusLine.isOk_eq_false hcode)] at hcalls
    exact Notice.eq_of_merge_eq_last (Notice.areLast_of_isTerminal rfl) hcalls
  case icy =>
    intro line rest hsplit hline hcode hprotocol
    rw [hsplit, Decoder.transcript_statusLine hline, StatusLine.isOk_eq_true hcode,
      StatusLine.skipsHeaders_eq_true hprotocol] at hcalls
    -- Nothing but data and the ending follows: the body has no header call.
    have hlast := peer.reads.stream.2.areLast_calls .body
    have htells : (start connection plan).run.Tells [] rest (peer.reads.stream.2.calls .body) :=
      Notice.exists_pieces_of_body hlast hcalls
    refine ⟨htells, state_ne_chunked_of_tells htells hlast ?_⟩
    intro map hmem
    cases hmem
  case headed =>
    intro line rest hsplit hline hcode hprotocol
    rw [hsplit, Decoder.transcript_statusLine hline, StatusLine.isOk_eq_true hcode,
      StatusLine.skipsHeaders_eq_false hprotocol] at hcalls
    exact headedTold_of_merge hcalls
  case front =>
    intro hfront
    exact Notice.eq_of_merge_eq_last (StreamEnd.areLast_calls _ .status)
      (hcalls.trans hfront.transcript_eq)
  case tooLong =>
    intro hlong
    exact Notice.eq_of_merge_eq_last (Notice.areLast_of_isTerminal rfl)
      (hcalls.trans hlong.transcript_eq)

/-- A server whose answer looks like headers, but has none. -/
def icyPeer : Peer where
  reads := [.result (.ok (Utf8.encode "ICY 200 O")),
    .result (.ok (Utf8.encode "K\r\nTransfer-Encoding: chunked\r\n\r")),
    .result (.ok (Utf8.encode "\n5\r\n"))]

/-- The session gets to the server that answers in the old protocol, and nobody disturbs it. -/
theorem exchange_icyPeer : Exchange .sample (.serving icyPeer.reads) icyPeer where
  unlimited := rfl
  reaches := rfl
  reads := ⟨5, by decide +kernel⟩
  undisturbed := undisturbed_of_isHalted (n := 40) (by decide +kernel) (by decide +kernel)

/-- All bytes behind the status line are data, and none is taken for a header or a chunk. -/
theorem answer_of_exchange_icyPeer :
    Exchange .sample (.serving icyPeer.reads) icyPeer ∧
    (start .sample (.serving icyPeer.reads)).run.Tells []
      (Utf8.encode "Transfer-Encoding: chunked\r\n\r\n5\r\n") [.eof] := by
  have hline : Delimited.statusLine.IsPart Connection.sample.config.limits
      (Utf8.encode "ICY 200 OK\r\n") :=
    ⟨by decide +kernel, by decide +kernel⟩
  have htold := (answer_of_exchange exchange_icyPeer).icy (Utf8.encode "ICY 200 OK\r\n")
    (Utf8.encode "Transfer-Encoding: chunked\r\n\r\n5\r\n") (by decide +kernel) hline
    (by decide +kernel) (by decide +kernel)
  exact ⟨exchange_icyPeer, htold.1⟩

/-! ### Bodies that should be chunked -/

/-- **Chunks are read as if all bytes were there at once.** Behind a head that asks for chunks
the owner is told what `Dechunked.ofBytes` reads from the bytes of the body, whatever they are
and however the stream ends. At no time does what is missing of a chunk leave the range of
lengths. -/
theorem dechunked_of_exchange {connection : Connection} {plan : Plan} {peer : Peer}
    (h : Exchange connection plan peer) (head : ChunkedHead connection.config.limits)
    {bytes : Bytes} {ending : StreamEnd}
    (hstream : peer.reads.stream = (head.bytes ++ bytes, ending)) :
    (start connection plan).run.Tells [head.map]
        (Dechunked.ofBytes connection.config.maxLineLength bytes).data
        ((Dechunked.ofBytes connection.config.maxLineLength bytes).stop.calls ending) ∧
      ∀ moves, ((start connection plan).runFor moves).decoder.InRange := by
  refine ⟨?_, inRange_runFor connection plan⟩
  have hcalls := (run_of_exchange h).1
  unfold answerCalls at hcalls
  rw [hstream, head.transcript_bytes, Decoder.transcript_chunked] at hcalls
  exact tells_of_headers (BodyStop.areLast_calls _ _) hcalls

/-- A chunk whose size line ends with a bare line feed, a chunk with other bytes behind its
data, and the front of a third one. -/
def oddBody : Bytes :=
  Utf8.encode "3\nABC\r\n2\r\nDEx\n8\r\nFGH"

/-- A server that sends these chunks, cut somewhere, and then fails. -/
def oddPeer : Peer where
  reads := [.result (.ok (sampleHead.bytes ++ oddBody.take 4)), .result (.ok (oddBody.drop 4)),
    .result (.error { kind := .connectionReset })]

/-- The session gets to the server with the odd chunks, and nobody disturbs it. -/
theorem exchange_oddPeer : Exchange .sample (.serving oddPeer.reads) oddPeer where
  unlimited := rfl
  reaches := rfl
  reads := ⟨5, by decide +kernel⟩
  undisturbed := undisturbed_of_isHalted (n := 60) (by decide +kernel) (by decide +kernel)

/-- All the data that is there is told, and then the failure. -/
theorem dechunked_of_exchange_oddPeer :
    Exchange .sample (.serving oddPeer.reads) oddPeer ∧
    (start .sample (.serving oddPeer.reads)).run.Tells [sampleHead.map] (Utf8.encode "ABCDEFGH")
      [.error (.io { kind := .connectionReset })] := by
  have hstream : oddPeer.reads.stream
      = (sampleHead.bytes ++ oddBody, .failed { kind := .connectionReset }) := by decide +kernel
  have hbody : Dechunked.ofBytes Connection.sample.config.maxLineLength oddBody
      = { data := Utf8.encode "ABCDEFGH", stop := .exhausted } := by decide +kernel
  have htold := (dechunked_of_exchange exchange_oddPeer sampleHead hstream).1
  rw [hbody] at htold
  exact ⟨exchange_oddPeer, htold⟩

end Session

end NtripClient
