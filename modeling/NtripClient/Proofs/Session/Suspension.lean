import NtripClient.Proofs.Session.IdleLimit

/-!
# `NtripClient.Proofs.Session.Suspension`: where a session can wait

A session with an idle limit waits in guarded operations and while it closes its stream. In an
operation the watchdog is set, to an instant that is not further away than the limit. Closing the
stream is not an operation, and nothing guards it. `returns_unless_closesForever` says both, and
what follows: such a session comes to an outcome unless its stream never closes. In `deafPeer`
it does not, so that neither the limit nor a shutdown request ends the session.
-/

set_option autoImplicit false

namespace NtripClient

open History

namespace Session

variable {s t : Session} {limit? : Option Nat}

/-- While an operation is under way, the alarm is set to an instant within the limit. -/
theorem Underway.exists_alarm {operation : Operation} {limit : Nat}
    (h : s.Underway (some limit) operation) :
    ∃ alarm, s.watchdog.alarm? = some alarm ∧ s.now ≤ alarm ∧ alarm ≤ s.now + limit := by
  have hdeadline := h.ticks.deadline limit rfl
  have hinTime := h.ticks.inTime limit rfl
  have hpast := h.ticks.past
  refine ⟨s.watchdog.deadline, ?_, by omega, by omega⟩
  rw [Watchdog.alarm?_eq h.ticks.timer, h.ticks.limit]
  rfl

/-- A session whose work has ended, and that has a limit, lacks an outcome only if its stream
never closes. -/
theorem Stop.closesForever {limit : Nat} (h : Stop (some limit) s t)
    (hnone : s.run.outcome? = none) : s.run.ClosesForever := by
  cases h with
  | stopped htask => exact closesForever_of_concluding htask hnone
  | expired htask => exact closesForever_of_concluding htask hnone
  | stuck _ _ hunlimited => cases hunlimited

/-- **A session with a limit waits under supervision, except for its stream to close.** Whatever
the resolver, the connector and the stream do, an alarm is set within the limit as long as an
operation is under way, and the session comes to an outcome unless its stream never closes. -/
theorem returns_unless_closesForever (connection : Connection) (plan : Plan) {limit : Nat}
    (hlimit : connection.config.timeout = some limit) (hpos : 0 < limit) :
    (∀ moves operation, ((start connection plan).runFor moves).task = .attempting operation →
      ∃ alarm, ((start connection plan).runFor moves).watchdog.alarm? = some alarm ∧
        ((start connection plan).runFor moves).now ≤ alarm ∧
        alarm ≤ ((start connection plan).runFor moves).now + limit) ∧
    ((start connection plan).run.outcome? = none ↔ (start connection plan).run.ClosesForever) := by
  have hidle : connection.config.idleTimeout = some limit :=
    idleTimeout_eq_some.2 ⟨hlimit, hpos⟩
  refine ⟨?_, ?_, ?_⟩
  · intro moves operation htask
    have htimed := timed_of_working connection plan moves (by rw [htask]; rfl)
    rw [hidle] at htimed
    exact (htimed.underway htask).exists_alarm
  · intro hnone
    obtain ⟨moves, hstop⟩ := exists_stop connection plan
    rw [hidle] at hstop
    rw [← run_runFor moves] at hnone ⊢
    exact hstop.closesForever hnone
  · rintro ⟨hstuck, -⟩
    rw [outcome?, hstuck]

/-- A server that sends a body and closes, but whose stream can never be closed. The owner
requests a shutdown later on. -/
def deafPeer : Plan where
  lookup := [.result (.ok [{ address := .v4 ⟨10, 0, 0, 1⟩, port := 0 }])]
  attempts := [[.result (.ok {
    reads := [.result (.ok (Utf8.encode "HTTP/1.1 200 OK\r\n\r\nHELLO"))]
    closes := [.never] })]]
  timed := [(3, .shutdown)]

/-- With a stream that closes, a session with a limit comes to an outcome. -/
theorem returns_unless_closesForever_closedPlainBody :
    ∃ outcome, (start (Connection.sample.withTimeout 5) closedPlainBody).run.outcome?
      = some outcome := by
  have hiff := (returns_unless_closesForever (Connection.sample.withTimeout 5) closedPlainBody rfl
    (by decide)).2
  have hopen : (start (Connection.sample.withTimeout 5) closedPlainBody).run.task ≠ .stuck := by
    decide +kernel
  cases houtcome : (start (Connection.sample.withTimeout 5) closedPlainBody).run.outcome? with
  | some outcome => exact ⟨outcome, rfl⟩
  | none => exact absurd (hiff.1 houtcome).1 hopen

/-- A session with a limit of five, whose stream cannot be closed, is stuck for ever, also after
it was asked to shut down: it has no outcome. -/
theorem stuck_deafPeer :
    (start (Connection.sample.withTimeout 5) deafPeer).run.task = .stuck ∧
    (start (Connection.sample.withTimeout 5) deafPeer).run.stopRequested = true ∧
    (start (Connection.sample.withTimeout 5) deafPeer).run.outcome? = none := by
  refine ⟨?_, ?_, ?_⟩ <;> decide +kernel

end Session

end NtripClient
