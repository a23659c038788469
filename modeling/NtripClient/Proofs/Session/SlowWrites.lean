import NtripClient.Proofs.Session.IdleLimit

/-!
# `NtripClient.Proofs.Session.SlowWrites`: the idle limit counts whole transfers

A stream may accept bytes piece by piece. Each piece is a sign of life, but the watchdog does not
learn of it: writing all the bytes of the request or of a message, and the flush behind them, are
one guarded operation, and only the end of the operation sets the deadline anew.

`IsLive` is the law that an idle limit suggests: no piece of input or output comes later than the
limit after the one before it. `timedOut_iff_overdueWrite` says that a session that follows this
law times out all the same, and exactly if a whole transfer takes longer than the limit. In
`dripWriter` one does, though each piece is accepted in time.
-/

set_option autoImplicit false

namespace NtripClient

open History

/-- Something was achieved: an operation is complete, or the stream took bytes or a flush. -/
def Event.isProgress : Event → Bool
  | .settled => true
  | .wrote bytes => !bytes.isEmpty
  | .flushed => true
  | _ => false

/-- Something is under way: an operation has begun, or the stream has taken a part of it. -/
def Event.awaitsProgress : Event → Bool
  | .began _ => true
  | .wrote bytes => !bytes.isEmpty
  | _ => false

/-- Progress never keeps anybody waiting longer than a limit. -/
def IsLive (limit : Nat) : List Entry → Prop
  | [] => True
  | entry :: later =>
    (entry.event.awaitsProgress = true → ∃ next ∈ later, next.event.isProgress = true ∧
      next.time ≤ entry.time + limit) ∧ IsLive limit later

instance IsLive.decidable (limit : Nat) : (log : List Entry) → Decidable (IsLive limit log)
  | [] => .isTrue trivial
  | entry :: later =>
    have := IsLive.decidable limit later
    inferInstanceAs (Decidable ((entry.event.awaitsProgress = true →
      ∃ next ∈ later, next.event.isProgress = true ∧ next.time ≤ entry.time + limit) ∧
      IsLive limit later))

/-- The request or a message takes longer than a limit to be written and flushed. -/
def HasOverdueWrite (limit : Nat) (log : List Entry) : Prop :=
  ∃ before start after, log = before ++ start :: after ∧ start.event.beginsWrite = true ∧
    start.IsOverdue limit after

/-- A log that is live is so from every place on. -/
theorem IsLive.of_append {limit : Nat} {before after : List Entry}
    (h : IsLive limit (before ++ after)) : IsLive limit after := by
  induction before with
  | nil => exact h
  | cons entry before ih => exact ih h.2

/-- A write that is overdue is an operation that is overdue. -/
theorem HasOverdueWrite.hasOverdue {limit : Nat} {log : List Entry}
    (h : HasOverdueWrite limit log) : HasOverdue limit log := by
  obtain ⟨before, start, after, hlog, -, hoverdue⟩ := h
  exact ⟨before, start, after, hlog, hoverdue⟩

/-- Progress that is not the end of an operation is a piece of output. -/
theorem Event.isOutput_of_isProgress {event : Event} (h : event.isProgress = true)
    (hsettled : event.isSettled = false) : event.isOutput = true := by
  cases event with
  | wrote bytes => rfl
  | flushed => rfl
  | settled => cases hsettled
  | _ => cases h

/-- In a log in which progress is never late, only a whole transfer can be overdue. -/
theorem beginsWrite_of_isLive {limit : Nat} {limit? : Option Nat} {history : List Entry}
    (hpaced : Paced limit? history) (hinTime : Session.IsInTime history)
    (hlive : IsLive limit history.reverse) {before after : List Entry} {start : Entry}
    (hlog : history.reverse = before ++ start :: after) (hoverdue : start.IsOverdue limit after) :
    start.event.beginsWrite = true := by
  obtain ⟨hbegins, hlate⟩ := hoverdue
  rw [hlog] at hlive
  have hawaits : start.event.awaitsProgress = true := by
    cases hevent : start.event <;> rw [hevent] at hbegins <;> first | rfl | cases hbegins
  obtain ⟨next, hmem, hprogress, htime⟩ := hlive.of_append.1 hawaits
  have hsettled : next.event.isSettled = false := by
    cases hs : next.event.isSettled with
    | false => rfl
    | true =>
      have hlt := hlate next hmem hs
      omega
  -- So it was a piece of output, and the operation was not complete before it.
  obtain ⟨first, rest, rfl⟩ := List.append_of_mem hmem
  have hhistory : history
      = rest.reverse ++ next :: (first.reverse ++ start :: before.reverse) := by
    rw [reverse_eq_of_split hlog]
    simp
  rw [hhistory] at hpaced hinTime
  obtain ⟨hearlier, hnext⟩ := hpaced.of_append
  obtain ⟨-, hordered, -⟩ := List.pairwise_append.1 hinTime
  have hbefore := (List.pairwise_cons.1 hordered).1
  obtain ⟨found, hfound, hwrites⟩ := hnext.outputs (Event.isOutput_of_isProgress hprogress hsettled)
  rcases hearlier.pending_or_settled hbegins with hpending | ⟨entry, hentry, hdone, -⟩
  · rw [hpending] at hfound
    cases hfound
    exact hwrites
  · have hle := hbefore entry (List.mem_append_left _ hentry)
    have hlt := hlate entry
      (List.mem_append_left _ (List.mem_reverse.1 hentry)) hdone
    omega

namespace Session

/-- **The limit counts whole transfers.** Take a session in which progress would never be late if
there were no limit. With the limit it times out only if the request or a message takes longer
than the limit to be written and flushed, and then it does, unless a shutdown is requested. -/
theorem timedOut_iff_overdueWrite (connection : Connection) (plan : Plan) {limit : Nat}
    (hlimit : connection.config.timeout = some limit) (hpos : 0 < limit)
    (hlive : IsLive limit (start connection.unlimited plan).run.log) :
    (.error .connectionTimeout ∈ (start connection plan).run.notices →
      HasOverdueWrite limit (start connection.unlimited plan).run.log) ∧
    ((∀ entry ∈ (start connection plan).run.log, entry.event.isRequest = false) →
      HasOverdueWrite limit (start connection.unlimited plan).run.log →
      .error .connectionTimeout ∈ (start connection plan).run.notices) := by
  have hidle : connection.config.idleTimeout = some limit :=
    idleTimeout_eq_some.2 ⟨hlimit, hpos⟩
  constructor
  · intro htold
    obtain ⟨before, start', after, hlog, hoverdue⟩ := hasOverdue_of_told connection plan hidle htold
    have hinTime : IsInTime (start connection.unlimited plan).run.history :=
      isInTime_history connection.unlimited plan _
    exact ⟨before, start', after, hlog, beginsWrite_of_isLive
      (paced_run connection.unlimited plan) hinTime hlive hlog hoverdue, hoverdue⟩
  · intro hcalm hwrite
    exact (keepsLimit connection plan hidle hcalm).told.2 hwrite.hasOverdue

/-- A server that takes the request in three pieces, one every four instants, and answers. -/
def dripWriter : Plan where
  lookup := [.result (.ok [{ address := .v4 ⟨10, 0, 0, 1⟩, port := 0 }])]
  attempts := [[.result (.ok {
    reads := [.result (.ok (Utf8.encode "HTTP/1.1 200 OK\r\n\r\nHELLO"))]
    writes := [.result (.ok 10), .delay 4, .result (.ok 10), .delay 4] })]]

/-- Progress is never late for a limit of five, but the whole request is. -/
theorem timedOut_iff_overdueWrite_dripWriter :
    IsLive 5 (start (Connection.sample.withTimeout 5).unlimited dripWriter).run.log ∧
    HasOverdueWrite 5 (start (Connection.sample.withTimeout 5).unlimited dripWriter).run.log := by
  have hlive : IsLive 5 (start (Connection.sample.withTimeout 5).unlimited dripWriter).run.log := by
    decide +kernel
  have htold : .error .connectionTimeout
      ∈ (start (Connection.sample.withTimeout 5) dripWriter).run.notices := by decide +kernel
  have hiff := timedOut_iff_overdueWrite (Connection.sample.withTimeout 5) dripWriter rfl
    (by decide) hlive
  exact ⟨hlive, hiff.1 htold⟩

/-- A session in which progress is never late for a limit of five, and which nobody stops, times
out with this limit. Without it, the body would have come to its end. -/
theorem timedOut_dripWriter :
    IsLive 5 (start (Connection.sample.withTimeout 5).unlimited dripWriter).run.log ∧
    (start (Connection.sample.withTimeout 5).unlimited dripWriter).run.outcome? = some .eof ∧
    (∀ entry ∈ (start (Connection.sample.withTimeout 5) dripWriter).run.log,
      entry.event.isRequest = false) ∧
    (start (Connection.sample.withTimeout 5) dripWriter).run.outcome?
      = some (.failed .connectionTimeout) := by
  refine ⟨?_, ?_, ?_, ?_⟩ <;> decide +kernel

end Session

end NtripClient
