import NtripClient.Proofs.Session.Exchange
import NtripClient.Proofs.Session.Passage

/-!
# `NtripClient.Proofs.Session.Intake`: a server cannot make a session hold many bytes

`intake_of_read` is the main statement. Whatever a server sends and however it is cut, a session
that issues a read holds no more bytes than its limits allow for the part of the answer that it
waits for, and none of a body. Nothing is lost or read twice: what was received is what was used,
followed by what is held.

The bound is that of a decoder that waits, and a session that does not decode has such a decoder
(`isInPlace_runFor`). For the account of the bytes, `uses` is what one move takes from the front of
the buffer, `used` adds it up over the moves, and `intake_step` is the law of conservation for one
move.
-/

set_option autoImplicit false

namespace NtripClient

namespace Session

variable {s t : Session}

/-- The bytes that the next move uses: while the session decodes, those of the next report. -/
def uses (s : Session) : Bytes :=
  match s.task with
  | .decoding => s.decoder.buffer.take (s.decoder.useLength s.limits)
  | _ => []

/-- The bytes that the first moves use, in order. -/
def used (s : Session) : Nat → Bytes
  | 0 => []
  | moves + 1 => s.used moves ++ (s.runFor moves).uses

/-- Only decoding uses bytes. -/
theorem uses_of_ne (h : s.task ≠ .decoding) : s.uses = [] := by
  unfold uses
  split
  · exact absurd ‹_› h
  · rfl

/-! ### The account of the bytes -/

/-- What a move receives comes behind the bytes held, and what it uses comes from their front. -/
theorem intake_step (hsound : s.decoder.Sound) :
    ∃ bytes, s.step.received = s.received ++ bytes ∧
      s.uses ++ s.step.decoder.buffer = s.decoder.buffer ++ bytes := by
  cases htask : s.task with
  | attempting operation =>
    obtain ⟨bytes, htakes, -⟩ := (leads_of_attempting htask).takes
    refine ⟨bytes, htakes.received, ?_⟩
    rw [uses_of_ne (by simp [htask]), htakes.decoder]
    rfl
  | decoding =>
    refine ⟨[], ?_, ?_⟩
    · rw [(decodes_of_decoding htask hsound).received, List.append_nil]
    · rw [uses, htask, (step_of_decoding htask).decoder, Decoder.buffer_advance,
        List.append_nil]
      exact List.take_append_drop _ _
  | _ =>
    have hleaves := leaves_of_stopped (s := s) (by rw [htask]; rfl)
    refine ⟨[], ?_, ?_⟩
    · rw [hleaves.received, List.append_nil]
    · rw [uses_of_ne (by simp [htask]), hleaves.decoder, List.append_nil, List.nil_append]

/-- At any time the bytes received are those used and those held, in this order. -/
theorem received_eq_used_append (connection : Connection) (plan : Plan) (moves : Nat) :
    ((start connection plan).runFor moves).received
      = (start connection plan).used moves
        ++ ((start connection plan).runFor moves).decoder.buffer := by
  induction moves with
  | zero =>
    have hstart := takes_start connection plan
    rw [runFor, hstart.received, hstart.decoder]
    rfl
  | succ moves ih =>
    obtain ⟨bytes, hreceived, hbuffer⟩ := intake_step (isInPlace_runFor connection plan moves).1
    rw [runFor_succ', hreceived, ih, used, List.append_assoc, List.append_assoc, hbuffer]

/-! ### The bound -/

/-- What a session that issues a read holds is bounded by the part of the answer that its state
shows. -/
theorem length_buffer_of_read {connection : Connection} {plan : Plan} {moves : Nat}
    (hread : ((start connection plan).runFor moves).task = .attempting .read) :
    ((start connection plan).runFor moves).state
        = ((start connection plan).runFor moves).decoder.stage.state ∧
      ((start connection plan).runFor moves).decoder.buffer.length
        ≤ ((start connection plan).runFor moves).decoder.stage.capacity
            connection.config.limits := by
  obtain ⟨hsound, hplace⟩ := isInPlace_runFor connection plan moves
  have hstands := hplace .waiting (by rw [hread]; rfl)
  -- It waits for the reason that its decoder can do nothing with the bytes it has.
  have hungry := hstands.hungry (by simp)
  rw [limits, hstands.connection] at hungry
  exact ⟨hstands.state, Decoder.length_le_of_hungry hsound hungry⟩

/-- **A server cannot make a session hold many bytes.** At every moment at which a session issues a
read, whatever its server has sent and however it was cut, the number of bytes that are held
unused is at most the line limit while a status line or a chunk size line is waited for, at most
the block limit while the headers are, at most 1 between two chunks, and 0 in a body, however long
the chunk is that was announced: that is the `Stage.capacity` of the part of the answer that the
state shows. The bytes received so far are those used so far, followed by those held. -/
theorem intake_of_read (connection : Connection) (plan : Plan) {moves : Nat}
    (hread : ((start connection plan).runFor moves).task = .attempting .read) :
    ((start connection plan).runFor moves).state
        = ((start connection plan).runFor moves).decoder.stage.state ∧
      ((start connection plan).runFor moves).decoder.buffer.length
        ≤ ((start connection plan).runFor moves).decoder.stage.capacity
            connection.config.limits ∧
      ((start connection plan).runFor moves).received
        = (start connection plan).used moves
          ++ ((start connection plan).runFor moves).decoder.buffer := by
  obtain ⟨hstate, hbounded⟩ := length_buffer_of_read hread
  exact ⟨hstate, hbounded, received_eq_used_append connection plan moves⟩

/-- The server stops in the middle of the two bytes between two chunks. -/
def halfTrailer : Plan :=
  .serving [.result (.ok (Utf8.encode
    "HTTP/1.1 200 OK\r\nTransfer-Encoding: chunked\r\n\r\n5\r\nHELLO\r")), .never]

/-- Of all that was received, one byte is held. -/
theorem intake_of_read_halfTrailer :
    ((start .sample halfTrailer).runFor 13).task = .attempting .read ∧
    ((start .sample halfTrailer).runFor 13).state = .streaming .chunked ∧
    ((start .sample halfTrailer).runFor 13).decoder.stage = .chunkEnd ∧
    ((start .sample halfTrailer).runFor 13).received
      = (start .sample halfTrailer).used 13 ++ [13] := by
  have hread : ((start .sample halfTrailer).runFor 13).task = .attempting .read := by
    decide +kernel
  have hstage : ((start .sample halfTrailer).runFor 13).decoder
      = { stage := .chunkEnd, buffer := [13] } := by decide +kernel
  obtain ⟨hstate, -, hreceived⟩ := intake_of_read .sample halfTrailer hread
  rw [hstage] at hstate hreceived
  exact ⟨hread, hstate, congrArg Decoder.stage hstage, hreceived⟩

end Session

end NtripClient
