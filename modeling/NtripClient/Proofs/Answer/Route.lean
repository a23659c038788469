import NtripClient.Proofs.Answer.Intake

/-!
# `NtripClient.Proofs.Answer.Route`: the states in which an answer is read

`State.ofAnswer` is the way through an answer that begins with given bytes. A status line that
skips the headers leads to a plain body at once, any other one to the headers, and the headers say
how the body is framed. Bytes that arrive later lengthen the way and do not change it.

`ReadSoFar` is the part of the way that a decoder has come. It holds all bytes behind the part that
it has finished, so what arrives continues both in the same way (`ReadSoFar.push`). A decoder that
waits for more bytes has come as far as the bytes lead (`ReadSoFar.eq_of_hungry`).
-/

set_option autoImplicit false

namespace NtripClient

/-! ### The way through an answer -/

/-- The headers behind the status line, once their block is complete. -/
def headerMap? (bytes : Bytes) : Option HeaderMap :=
  (Bytes.lineEnd? 0 bytes).bind fun stop =>
    (Bytes.blockEnd? 0 (bytes.drop stop)).map fun length =>
      (HeaderMap.empty.insertBlock ((bytes.drop stop).take length)).1

namespace State

/-- The states in which an answer is read that begins with these bytes. -/
def ofAnswer (bytes : Bytes) : List State :=
  .readingStatus ::
    match statusLine? bytes with
    | none => []
    | some status =>
      if !status.isOk then []
      else if status.skipsHeaders then [.streaming .plain]
      else
        .readingHeaders ::
          match headerMap? bytes with
          | none => []
          | some map => [.streaming (if map.isChunked then .chunked else .plain)]

end State

/-! ### While more bytes arrive -/

section
variable {bytes : Bytes}

/-- Headers that are complete stay the same. -/
theorem headerMap?_append {map : HeaderMap} (h : headerMap? bytes = some map) (more : Bytes) :
    headerMap? (bytes ++ more) = some map := by
  obtain ⟨stop, hstop, hblock⟩ := Option.bind_eq_some_iff.1 h
  obtain ⟨length, hlength, hmap⟩ := Option.map_eq_some_iff.1 hblock
  have hwithin := Bytes.settles_lineEnd?.within hstop
  have hle := Bytes.settles_blockEnd?.within hlength
  rw [headerMap?, Bytes.settles_lineEnd?.stays more hstop, Option.bind_some,
    List.drop_append_of_le_length hwithin, Bytes.settles_blockEnd?.stays more hlength,
    Option.map_some, List.take_append_of_le_length hle, hmap]

/-- Once the body is reached, the way through the answer is complete. -/
theorem State.ofAnswer_append {framing : Framing} (h : .streaming framing ∈ State.ofAnswer bytes)
    (more : Bytes) : State.ofAnswer (bytes ++ more) = State.ofAnswer bytes := by
  unfold State.ofAnswer at h ⊢
  cases hstatus : statusLine? bytes with
  | none =>
    rw [hstatus] at h
    simp at h
  | some status =>
    rw [statusLine?_append hstatus more]
    rw [hstatus] at h
    cases hmap : headerMap? bytes with
    | some map => rw [headerMap?_append hmap more]
    | none =>
      -- Without headers only a status line that skips them leads to a body.
      rw [hmap] at h
      by_cases hok : status.isOk = true
      · by_cases hskips : status.skipsHeaders = true
        · simp [hskips]
        · simp [hok, hskips] at h
      · simp [hok] at h

end

/-! ### What the way is made of -/

section
variable {bytes : Bytes}

/-- The three ways through an answer: none, to a plain body at once, or by way of the headers. -/
theorem State.ofAnswer_cases (bytes : Bytes) :
    State.ofAnswer bytes = [.readingStatus] ∨
      (∃ status, statusLine? bytes = some status ∧ status.skipsHeaders = true ∧
        State.ofAnswer bytes = [.readingStatus, .streaming .plain]) ∨
      ∃ status framing?, statusLine? bytes = some status ∧ status.skipsHeaders = false ∧
        State.ofAnswer bytes
          = .readingStatus :: .readingHeaders :: (Option.map .streaming framing?).toList := by
  unfold State.ofAnswer
  cases statusLine? bytes with
  | none => exact .inl rfl
  | some status =>
    cases hok : status.isOk with
    | false => exact .inl (by simp [hok])
    | true =>
      cases hskips : status.skipsHeaders with
      | true => exact .inr (.inl ⟨status, rfl, hskips, by simp [hok, hskips]⟩)
      | false =>
        -- The framing is known once the headers are.
        let framing? := (headerMap? bytes).map fun map =>
          if map.isChunked then Framing.chunked else Framing.plain
        refine .inr (.inr ⟨status, framing?, rfl, hskips, ?_⟩)
        cases hmap : headerMap? bytes <;> simp [framing?, hok, hskips, hmap]

/-- In an answer no connection is tried, and nothing is written. -/
theorem State.mem_ofAnswer {state : State} (h : state ∈ State.ofAnswer bytes) :
    state = .readingStatus ∨ state = .readingHeaders ∨ ∃ framing, state = .streaming framing := by
  rcases State.ofAnswer_cases bytes with
    heq | ⟨status, -, -, heq⟩ | ⟨status, framing?, -, -, heq⟩
  · rw [heq] at h
    exact .inl (List.mem_singleton.1 h)
  · rw [heq] at h
    rcases List.mem_cons.1 h with hstatus | hbody
    · exact .inl hstatus
    · exact .inr (.inr ⟨_, List.mem_singleton.1 hbody⟩)
  · rw [heq] at h
    rcases List.mem_cons.1 h with hstatus | h
    · exact .inl hstatus
    rcases List.mem_cons.1 h with hheaders | hbody
    · exact .inr (.inl hheaders)
    · obtain ⟨framing, -, rfl⟩ := Option.map_eq_some_iff.1 (Option.mem_toList.1 hbody)
      exact .inr (.inr ⟨framing, rfl⟩)

/-- No candidate is connected to while the answer is read. -/
theorem State.connecting_not_mem_ofAnswer (candidate : Nat) (bytes : Bytes) :
    .connecting candidate ∉ State.ofAnswer bytes := by
  intro hmem
  rcases State.mem_ofAnswer hmem with h | h | ⟨framing, h⟩ <;> cases h

end

/-! ### The part of an answer that was read -/

/-- The states in which an answer was read so far, if `bytes` were received and the decoder is
what it is now. -/
inductive ReadSoFar (bytes : Bytes) (d : Decoder) : List State → Prop where
  /-- All bytes are held until the status line is complete. -/
  | status (stage : d.stage.state = .readingStatus) (buffer : d.buffer = bytes) :
      ReadSoFar bytes d [.readingStatus]
  /-- The bytes behind the status line are held until the headers are complete. -/
  | headers {length : Nat} (stage : d.stage.state = .readingHeaders)
      (stop : Bytes.lineEnd? 0 bytes = some length)
      (ok : (StatusLine.parse (bytes.take length)).isOk = true)
      (skips : (StatusLine.parse (bytes.take length)).skipsHeaders = false)
      (buffer : d.buffer = bytes.drop length) :
      ReadSoFar bytes d [.readingStatus, .readingHeaders]
  /-- The way through the answer is complete. -/
  | body {framing : Framing} (stage : d.stage.state = .streaming framing)
      (mem : .streaming framing ∈ State.ofAnswer bytes) : ReadSoFar bytes d (State.ofAnswer bytes)

section
variable {bytes : Bytes} {d : Decoder} {read : List State}

/-- Once a status line is complete, it is what stands in front of its end. -/
theorem statusLine?_of_stop {length : Nat} (h : Bytes.lineEnd? 0 bytes = some length) :
    statusLine? bytes = some (.parse (bytes.take length)) := by
  rw [statusLine?, h]
  rfl

/-- With a status line that does not skip the headers, they come next. -/
theorem State.ofAnswer_of_headers {length : Nat} (stop : Bytes.lineEnd? 0 bytes = some length)
    (ok : (StatusLine.parse (bytes.take length)).isOk = true)
    (skips : (StatusLine.parse (bytes.take length)).skipsHeaders = false) :
    State.ofAnswer bytes = .readingStatus :: .readingHeaders ::
      (match headerMap? bytes with
        | none => []
        | some map => [.streaming (if map.isChunked then .chunked else .plain)]) := by
  rw [State.ofAnswer, statusLine?_of_stop stop]
  simp only [ok, skips]
  rfl

namespace ReadSoFar

/-- Bytes that arrive change nothing yet. -/
theorem push (h : ReadSoFar bytes d read) (more : Bytes) :
    ReadSoFar (bytes ++ more) (d.push more) read := by
  cases h with
  | status stage buffer => exact .status stage (congrArg (· ++ more) buffer)
  | headers stage stop ok skips buffer =>
    -- The status line is at the front, and what arrives comes behind it.
    have hwithin := Bytes.settles_lineEnd?.within stop
    refine .headers stage (Bytes.settles_lineEnd?.stays more stop) ?_ ?_ ?_
    · rwa [List.take_append_of_le_length hwithin]
    · rwa [List.take_append_of_le_length hwithin]
    · rw [List.drop_append_of_le_length hwithin, ← buffer]
      rfl
  | body stage mem =>
    have hsame := State.ofAnswer_append mem more
    rw [← hsame]
    exact .body stage (hsame ▸ mem)

/-- What was read is the front of the way through the answer. -/
theorem isPrefix (h : ReadSoFar bytes d read) : read <+: State.ofAnswer bytes := by
  cases h with
  | status stage buffer => exact List.cons_prefix_cons.2 ⟨rfl, List.nil_prefix⟩
  | headers stage stop ok skips buffer =>
    rw [State.ofAnswer_of_headers stop ok skips]
    exact List.cons_prefix_cons.2 ⟨rfl, List.cons_prefix_cons.2 ⟨rfl, List.nil_prefix⟩⟩
  | body => exact List.prefix_refl _

/-- A decoder that waits has got as far as the bytes lead. -/
theorem eq_of_hungry (h : ReadSoFar bytes d read) {limits : Limits} (hsound : d.Sound)
    (hungry : d.Hungry limits) : read = State.ofAnswer bytes := by
  obtain ⟨stage, buffer⟩ := d
  cases h with
  | status hstage hbuffer =>
    change buffer = bytes at hbuffer
    subst hbuffer
    cases stage with
    | status searched =>
      have hstop : Bytes.lineEnd? 0 buffer = none :=
        ((Decoder.Delimited.statusLine.hungry_iff hsound).1 hungry).1
      have hnone : statusLine? buffer = none := by
        rw [statusLine?, hstop]
        rfl
      rw [State.ofAnswer, hnone]
    | _ => cases hstage
  | @headers length hstage stop ok skips hbuffer =>
    cases stage with
    | headers searched =>
      have hnone := ((Decoder.Delimited.headerBlock.hungry_iff hsound).1 hungry).1
      have hmap : headerMap? bytes = none := by
        rw [headerMap?, stop, Option.bind_some, ← hbuffer]
        exact congrArg (Option.map _) hnone
      rw [State.ofAnswer_of_headers stop ok skips, hmap]
    | _ => cases hstage
  | body => rfl

/-- A decoder that only goes on within its stage, or within a body, has read no further part. -/
theorem keep {e : Decoder} (h : ReadSoFar bytes d read) (stage : e.stage.state = d.stage.state)
    (buffer : e.buffer = d.buffer ∨ d.stage.state.isActive = true) : ReadSoFar bytes e read := by
  cases h with
  | status hstage hbuffer =>
    rw [hstage] at buffer
    rcases buffer with hsame | hactive
    · exact .status (stage.trans hstage) (hsame.trans hbuffer)
    · cases hactive
  | headers hstage stop ok skips hbuffer =>
    rw [hstage] at buffer
    rcases buffer with hsame | hactive
    · exact .headers (stage.trans hstage) stop ok skips (hsame.trans hbuffer)
    · cases hactive
  | body hstage mem => exact .body (stage.trans hstage) mem

/-- Behind an accepted status line the next state is that of the headers, or of a plain body. -/
theorem accept (h : ReadSoFar bytes d read) (stage : d.stage.state = .readingStatus)
    {length : Nat} (stop : Bytes.lineEnd? 0 d.buffer = some length)
    (ok : (StatusLine.parse (d.buffer.take length)).isOk = true) {next : Stage}
    (hnext : next = if (StatusLine.parse (d.buffer.take length)).skipsHeaders then .plain
      else .headers 0) :
    ReadSoFar bytes { stage := next, buffer := d.buffer.drop length } (read ++ [next.state]) := by
  -- A decoder in the status line has read nothing else: its buffer is the whole answer.
  cases h with
  | headers hstage => cases hstage.symm.trans stage
  | body hstage => cases hstage.symm.trans stage
  | status hstage hbuffer =>
    rw [hbuffer] at stop ok hnext ⊢
    cases hskips : (StatusLine.parse (bytes.take length)).skipsHeaders with
    | true =>
      rw [hskips] at hnext
      have hanswer : State.ofAnswer bytes = [.readingStatus, .streaming .plain] := by
        rw [State.ofAnswer, statusLine?_of_stop stop]
        simp only [ok, hskips]
        rfl
      have hstate : next.state = .streaming .plain := by
        rw [hnext]
        rfl
      have hmem : State.streaming .plain ∈ State.ofAnswer bytes := by
        rw [hanswer]
        exact List.mem_cons_of_mem _ List.mem_cons_self
      have hbody : ReadSoFar bytes { stage := next, buffer := bytes.drop length }
          (State.ofAnswer bytes) := .body hstate hmem
      rw [hanswer] at hbody
      rw [hstate]
      exact hbody
    | false =>
      rw [hskips] at hnext
      rw [hnext]
      exact .headers rfl stop ok hskips rfl

/-- Behind the headers the next state is that of the body that they ask for. -/
theorem block (h : ReadSoFar bytes d read) (stage : d.stage.state = .readingHeaders)
    {length : Nat} (stop : Bytes.blockEnd? 0 d.buffer = some length) {map : HeaderMap}
    (hmap : map = (HeaderMap.empty.insertBlock (d.buffer.take length)).1) :
    ReadSoFar bytes { stage := Decoder.bodyStage map, buffer := d.buffer.drop length }
      (read ++ [(Decoder.bodyStage map).state]) := by
  cases h with
  | status hstage => cases hstage.symm.trans stage
  | body hstage => cases hstage.symm.trans stage
  | @headers before hstage hline ok skips hbuffer =>
    have hfound : headerMap? bytes = some map := by
      rw [headerMap?, hline, Option.bind_some, ← hbuffer, stop, Option.map_some, hmap]
    have hanswer : State.ofAnswer bytes
        = [.readingStatus, .readingHeaders] ++ [(Decoder.bodyStage map).state] := by
      rw [State.ofAnswer_of_headers hline ok skips, hfound, Decoder.state_bodyStage]
      rfl
    rw [← hanswer]
    refine .body (Decoder.state_bodyStage map) ?_
    rw [hanswer, Decoder.state_bodyStage]
    exact List.mem_append_right _ List.mem_cons_self

end ReadSoFar

end

end NtripClient
