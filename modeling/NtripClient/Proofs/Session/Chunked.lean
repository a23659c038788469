import NtripClient.Proofs.Answer.Chunked
import NtripClient.Proofs.Session.Exchange

/-!
# `NtripClient.Proofs.Session.Chunked`: a chunked body reaches the owner

`chunked_body_of_exchange` is the main statement. The owner of a session gets exactly the
data of the chunks that the server has written, and then the end. It gets nothing of the
bytes behind the last size line, and if the server closes the stream earlier, it gets exactly
the data that was sent until then.

How the bytes are cut into reads does not matter, because the session tells the transcript
of the bytes as a whole (`run_of_exchange`), and the transcript of a chunked body is known
(`Decoder.transcript_body`, `Decoder.transcript_cut`). What is left is to read the pieces of
data off calls that are known up to joining them.
-/

set_option autoImplicit false

namespace NtripClient

/-! ### Calls that are known up to joining their data -/

/-- Joining data leaves out no call. -/
theorem Notice.merge_eq_nil {calls : List Notice} (h : Notice.merge calls = []) : calls = [] := by
  cases calls with
  | nil => rfl
  | cons notice calls =>
    change notice.onto (Notice.merge calls) = [] at h
    unfold Notice.onto at h
    split at h <;> cases h

/-- At most one call, and if there is one, it is the last one of its connection. -/
structure Notice.AreLast (calls : List Notice) : Prop where
  once : calls.length ≤ 1
  terminal : ∀ notice ∈ calls, notice.isTerminal = true

/-- One last call by itself. -/
theorem Notice.areLast_of_isTerminal {notice : Notice} (h : notice.isTerminal = true) :
    Notice.AreLast [notice] where
  once := Nat.le_refl 1
  terminal other hmem := by rw [List.mem_singleton.1 hmem, h]

/-- Nothing but data is joined with data. -/
theorem Notice.onto_eq_cons {notice : Notice} {later : List Notice}
    (h : ∀ first second rest, notice = .data first → later ≠ .data second :: rest) :
    notice.onto later = notice :: later := by
  unfold Notice.onto
  split
  · rename_i first second rest
    exact absurd rfl (h first second rest rfl)
  · rfl

/-- Last calls hold no data. -/
theorem Notice.AreLast.ne_data {last : List Notice} (hlast : Notice.AreLast last) (piece : Bytes)
    (rest : List Notice) : last ≠ .data piece :: rest := by
  intro heq
  have hterminal := hlast.terminal (.data piece) (heq ▸ List.mem_cons_self)
  cases hterminal

/-- Last calls are the same when joined. -/
theorem Notice.eq_of_merge_eq_last {last calls : List Notice} (hlast : Notice.AreLast last)
    (h : Notice.merge calls = last) : calls = last := by
  cases calls with
  | nil => exact h
  | cons notice calls =>
    change notice.onto (Notice.merge calls) = last at h
    have hne : ∀ first second rest, notice = .data first →
        Notice.merge calls ≠ .data second :: rest := by
      intro first second rest hfirst hlater
      rw [hfirst, hlater] at h
      exact hlast.ne_data _ _ h.symm
    rw [Notice.onto_eq_cons hne] at h
    -- Nothing comes behind the last call.
    have honce := hlast.once
    rw [← h, List.length_cons] at honce
    have hnone : calls = [] := Notice.merge_eq_nil
      (List.length_eq_zero_iff.1 (Nat.le_zero.1 (Nat.le_of_succ_le_succ honce)))
    subst hnone
    exact h

/-- Calls that are data and the last ones once joined are pieces of this data and the last
ones. -/
theorem Notice.exists_pieces {last : List Notice} (hlast : Notice.AreLast last)
    (calls : List Notice) (data : Bytes) (h : Notice.merge calls = .data data :: last) :
    ∃ pieces : List Bytes, calls = pieces.map .data ++ last ∧ pieces.flatten = data := by
  induction calls generalizing data with
  | nil => cases h
  | cons notice calls ih =>
    change notice.onto (Notice.merge calls) = .data data :: last at h
    by_cases hjoin : ∃ first second rest,
        notice = .data first ∧ Notice.merge calls = .data second :: rest
    · -- The first piece was joined with the next one.
      obtain ⟨first, second, rest, rfl, hlater⟩ := hjoin
      rw [hlater] at h
      cases h
      obtain ⟨pieces, rfl, rfl⟩ := ih second hlater
      exact ⟨first :: pieces, rfl, rfl⟩
    · -- It is the only one, and stands right before the last calls.
      rw [Notice.onto_eq_cons fun first second rest hfirst hlater =>
        hjoin ⟨first, second, rest, hfirst, hlater⟩] at h
      obtain ⟨rfl, hlater⟩ := List.cons.inj h
      refine ⟨[data], ?_, List.flatten_singleton⟩
      rw [Notice.eq_of_merge_eq_last hlast hlater]
      rfl

/-- Headers stand in front of the calls they are joined with. -/
theorem Notice.exists_of_merge_eq_headers {calls later : List Notice} {map : HeaderMap}
    (h : Notice.merge calls = Notice.onto (.headers map) later) :
    ∃ rest, calls = .headers map :: rest ∧ Notice.merge rest = later := by
  cases calls with
  | nil => cases h
  | cons notice calls =>
    change notice.onto (Notice.merge calls) = .headers map :: later at h
    cases notice with
    | headers other =>
      cases h
      exact ⟨calls, rfl, rfl⟩
    | data first =>
      unfold Notice.onto at h
      split at h <;> cases h
    | eof => cases h
    | error error => cases h

/-- The calls of a body, read off their joined form. -/
theorem Notice.exists_pieces_of_body {calls last : List Notice} {data : Bytes}
    (hlast : Notice.AreLast last) (h : Notice.merge calls = Notice.withData data last) :
    ∃ pieces : List Bytes, calls = pieces.map .data ++ last ∧ pieces.flatten = data ∧
      (data = [] → pieces = []) := by
  unfold Notice.withData at h
  split at h
  · exact ⟨[], Notice.eq_of_merge_eq_last hlast h, by rw [‹data = []›]; rfl, fun _ => rfl⟩
  · rename_i hne
    rw [Notice.onto_eq_cons fun _ second rest _ => hlast.ne_data second rest] at h
    obtain ⟨pieces, hcalls, hflatten⟩ := Notice.exists_pieces hlast calls data h
    exact ⟨pieces, hcalls, hflatten, fun hnil => absurd hnil hne⟩

/-- The calls of a body behind headers, read off their joined form. -/
theorem Notice.exists_pieces_behind_headers {calls : List Notice} {map : HeaderMap} {data : Bytes}
    (h : Notice.merge calls = Notice.onto (.headers map) (Notice.withData data [.eof])) :
    ∃ pieces, calls = Notice.ofAnswer [map] pieces ++ [.eof] ∧ pieces.flatten = data := by
  have hlast : Notice.AreLast [.eof] := Notice.areLast_of_isTerminal rfl
  obtain ⟨rest, rfl, hrest⟩ := Notice.exists_of_merge_eq_headers h
  obtain ⟨pieces, rfl, hflatten, -⟩ := Notice.exists_pieces_of_body hlast hrest
  exact ⟨pieces, rfl, hflatten⟩

/-! ### Answers with a chunked body -/

/-- What comes before a chunked body: a status line that accepts the request and has headers,
and a header block that selects this framing, both within the limits. -/
structure ChunkedHead (limits : Limits) where
  /-- The status line. -/
  line : Bytes
  /-- The header block. -/
  block : Bytes
  line_ends : Bytes.lineEnd? 0 line = some line.length
  line_fits : line.length ≤ limits.line
  isOk : (StatusLine.parse line).isOk = true
  hasHeaders : (StatusLine.parse line).skipsHeaders = false
  block_ends : Bytes.blockEnd? 0 block = some block.length
  block_fits : block.length ≤ limits.block
  isChunked : (HeaderMap.empty.insertBlock block).1.isChunked = true

namespace ChunkedHead

variable {limits : Limits} (head : ChunkedHead limits)

/-- The head as it is sent. -/
def bytes : Bytes :=
  head.line ++ head.block

/-- The headers. -/
def map : HeaderMap :=
  (HeaderMap.empty.insertBlock head.block).1

/-- A decoder accepts the status line and turns to the headers. -/
theorem advance_line (rest : Bytes) :
    Decoder.advance limits { buffer := head.line ++ rest }
      = (.accepted (.parse head.line), { stage := .headers 0, buffer := rest }) := by
  have hscan : Decoder.scanLine limits.line 0 (head.line ++ rest) = .found head.line.length := by
    rw [Decoder.scanLine, Bytes.settles_lineEnd?.stays rest head.line_ends, Scan.ofSearch,
      Option.getD_some, if_neg (Nat.not_lt.2 head.line_fits)]
  simp only [Decoder.advance, hscan, Decoder.takeStatus, List.take_left, head.isOk,
    head.hasHeaders, List.drop_left]
  rfl

/-- A decoder tells the headers and turns to the first size line. -/
theorem advance_block (rest : Bytes) :
    Decoder.advance limits { stage := .headers 0, buffer := head.block ++ rest }
      = (.headers head.map, { stage := .chunkSize 0, buffer := rest }) := by
  have hscan : Decoder.scanBlock limits.block 0 (head.block ++ rest)
      = .found head.block.length := by
    rw [Decoder.scanBlock, Bytes.settles_blockEnd?.stays rest head.block_ends, Scan.ofSearch,
      Option.getD_some, if_neg (Nat.not_lt.2 head.block_fits)]
  simp only [Decoder.advance, hscan, Decoder.takeHeaders, List.take_left, Decoder.bodyStage,
    head.isChunked, List.drop_left]
  rfl

/-- A head tells the headers, and leads to the chunks. -/
theorem transcript_bytes (ending : StreamEnd) (rest : Bytes) :
    Decoder.transcript limits ending { buffer := head.bytes ++ rest }
      = Notice.onto (.headers head.map)
          (Decoder.transcript limits ending { stage := .chunkSize 0, buffer := rest }) := by
  rw [bytes, List.append_assoc,
    Decoder.transcript_of_ne_more (head.advance_line (head.block ++ rest)) (by simp)]
  exact Decoder.transcript_of_ne_more (head.advance_block rest) (by simp)

end ChunkedHead

namespace Session

/-- **Decoding undoes chunked encoding**, also when it is cut short. In an exchange whose
answer has a chunked body the owner gets the headers, pieces of data and the end. If the body
is complete, the pieces make up the data of its chunks, whatever follows. If the server closes
before the end of the last size line, they make up the data that was sent until then. -/
theorem chunked_body_of_exchange {connection : Connection} {plan : Plan} {peer : Peer}
    (h : Exchange connection plan peer) (head : ChunkedHead connection.config.limits)
    (body : ChunkedBody) (hlines : body.LinesWithin connection.config.maxLineLength) :
    (∀ further, peer.reads.stream.1 = head.bytes ++ (body.bytes ++ further) →
      ∃ pieces, (start connection plan).run.notices = Notice.ofAnswer [head.map] pieces ++ [.eof] ∧
        pieces.flatten = body.data) ∧
    (∀ cut, cut <+: body.bytes → cut ≠ body.bytes →
      peer.reads.stream = (head.bytes ++ cut, .closed) →
      ∃ pieces, (start connection plan).run.notices = Notice.ofAnswer [head.map] pieces ++ [.eof] ∧
        pieces.flatten = body.dataWithin cut.length) := by
  -- The calls, joined, are the transcript of the bytes; the rest is known of transcripts.
  have hcalls := (run_of_exchange h).1
  unfold answerCalls at hcalls
  constructor
  · intro further hbytes
    rw [hbytes, head.transcript_bytes, Decoder.transcript_body body hlines] at hcalls
    exact Notice.exists_pieces_behind_headers hcalls
  · intro cut hcut hne hstream
    rw [hstream, head.transcript_bytes, Decoder.transcript_cut body hlines hcut hne] at hcalls
    exact Notice.exists_pieces_behind_headers hcalls

/-- The head of an answer with a chunked body. -/
def sampleHead : ChunkedHead Connection.sample.config.limits where
  line := Utf8.encode "HTTP/1.1 200 OK\r\n"
  block := Utf8.encode "Transfer-Encoding: chunked\r\n\r\n"
  line_ends := by decide +kernel
  line_fits := by decide +kernel
  isOk := by decide +kernel
  hasHeaders := by decide +kernel
  block_ends := by decide +kernel
  block_fits := by decide +kernel
  isChunked := by decide +kernel

/-- The data of this chunk looks like a size line, and its own size line has leading zeros,
blanks and an extension. -/
def sampleChunk : Chunk where
  line :=
    { before := [32]
      digits := [⟨0, false⟩, ⟨0, false⟩, ⟨5, false⟩]
      after := [9, 32]
      extension := some (Utf8.encode "a=b")
      before_blank := by decide +kernel
      digits_ne_nil := by decide
      after_blank := by decide +kernel
      extension_inline := by decide +kernel }
  data := Utf8.encode "\r\n3\r\n"
  announced := by decide +kernel
  data_ne_nil := by decide +kernel
  fits := by decide +kernel

/-- A body of two chunks. -/
def sampleBody : ChunkedBody where
  chunks := [sampleChunk, sampleChunk]
  last :=
    { before := []
      digits := [⟨0, false⟩]
      after := []
      extension := none
      before_blank := by decide +kernel
      digits_ne_nil := by decide
      after_blank := by decide +kernel
      extension_inline := fun _ hnone => by cases hnone }
  last_empty := by decide

/-- A server that sends the whole body and more bytes. -/
def wholeBodyPeer : Peer where
  reads := [.result (.ok (sampleHead.bytes ++ sampleBody.bytes.take 13)),
    .result (.ok (sampleBody.bytes.drop 13 ++ Utf8.encode "\r\n5\r\nHELLO\r\n"))]

/-- A server that closes inside the data of the second chunk. -/
def cutBodyPeer : Peer where
  reads := [.result (.ok sampleHead.bytes), .result (.ok (sampleBody.bytes.take 33))]

/-- The session gets to the server, and nobody disturbs it. -/
theorem exchange_wholeBodyPeer :
    Exchange .sample (.serving wholeBodyPeer.reads) wholeBodyPeer where
  unlimited := rfl
  reaches := rfl
  reads := ⟨5, by decide +kernel⟩
  undisturbed := undisturbed_of_isHalted (n := 60) (by decide +kernel) (by decide +kernel)

/-- So it is with the server that closes too early. -/
theorem exchange_cutBodyPeer :
    Exchange .sample (.serving cutBodyPeer.reads) cutBodyPeer where
  unlimited := rfl
  reaches := rfl
  reads := ⟨5, by decide +kernel⟩
  undisturbed := undisturbed_of_isHalted (n := 60) (by decide +kernel) (by decide +kernel)

/-- The data of both chunks arrives, or the data of the first one and a part of the second. -/
theorem chunked_body_of_exchange_sample :
    (∃ pieces, (start .sample (.serving wholeBodyPeer.reads)).run.notices
        = Notice.ofAnswer [sampleHead.map] pieces ++ [.eof] ∧
      pieces.flatten = Utf8.encode "\r\n3\r\n\r\n3\r\n") ∧
    ∃ pieces, (start .sample (.serving cutBodyPeer.reads)).run.notices
        = Notice.ofAnswer [sampleHead.map] pieces ++ [.eof] ∧
      pieces.flatten = Utf8.encode "\r\n3\r\n\r\n" := by
  have hlines : sampleBody.LinesWithin Connection.sample.config.maxLineLength := by
    constructor
    · intro chunk hmem
      have hchunk : chunk = sampleChunk := by simpa [sampleBody] using hmem
      rw [hchunk]
      decide +kernel
    · decide +kernel
  have hwhole := (chunked_body_of_exchange exchange_wholeBodyPeer sampleHead sampleBody hlines).1
    (Utf8.encode "\r\n5\r\nHELLO\r\n") (by decide +kernel)
  have hcut := (chunked_body_of_exchange exchange_cutBodyPeer sampleHead sampleBody hlines).2
    (sampleBody.bytes.take 33) (List.take_prefix _ _) (by decide +kernel) (by decide +kernel)
  have hdata : sampleBody.data = Utf8.encode "\r\n3\r\n\r\n3\r\n" := by decide +kernel
  have hwithin : sampleBody.dataWithin (sampleBody.bytes.take 33).length
      = Utf8.encode "\r\n3\r\n\r\n" := by decide +kernel
  rw [hdata] at hwhole
  rw [hwithin] at hcut
  exact ⟨hwhole, hcut⟩

end Session

end NtripClient
