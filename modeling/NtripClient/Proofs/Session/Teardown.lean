import NtripClient.Proofs.Session.Moves

/-!
# `NtripClient.Proofs.Session.Teardown`: from the end of the work to the end of a session

When the work of a session stops, three things are left to do: to call the owner for the
last time, to close the uplink, and to close the stream. `run_concluding` says what comes
of them: the calls made are those of the outcome, and the session ends with that outcome
exactly if closing its stream does not last for ever.

Nothing in this depends on what the owner does meanwhile.
-/

set_option autoImplicit false

namespace NtripClient

/-- The script comes to a result. -/
def Script.completes {α : Type} (script : Script α) : Bool :=
  match script.essence with
  | .never :: _ => false
  | _ => true

/-- A script that gives a result does not wait for ever. -/
theorem Script.completes_of_gives {α : Type} {script : Script α} {final value : α}
    {rest : Script α} (h : script.Gives final value rest) : script.completes = true := by
  rcases h with ⟨rfl, -, -⟩ | rfl
  · rfl
  · rfl

/-- The calls of the owner that an outcome ends with. -/
def Outcome.lastCalls : Outcome → List Notice
  | .eof => [.eof]
  | .shutdown => []
  | .failed error => [.error error]

namespace Session

/-- The session waits for its stream to close, and the stream never does. -/
def ClosesForever (s : Session) : Prop :=
  s.task = .stuck ∧ s.state = .closed ∧ ∃ rest, s.closes = .never :: rest

/-- What the closing of a stream says is part of what the stream says. -/
theorem closes_essence (s : Session) :
    s.closes.essence = ((s.peer.map Peer.essence).map Peer.closes).getD [] := by
  unfold closes
  cases s.peer with
  | none => rfl
  | some peer => rfl

/-- Time and actions do not decide whether the stream closes. -/
theorem Kept.completes {s t : Session} (h : Kept s t) :
    t.closes.completes = s.closes.completes := by
  unfold Script.completes
  rw [closes_essence, closes_essence, h.peer]

/-- Without a stream there is nothing to wait for. -/
theorem completes_of_peer_none {s : Session} (h : s.peer = none) : s.closes.completes = true := by
  rw [Script.completes, closes_essence, h]
  rfl

/-- At the end the owner acts, and nothing else happens. -/
theorem notices_finish (s : Session) (outcome : Outcome) :
    (s.finish outcome).notices = s.notices :=
  (lull_finish s outcome).notices.trans (notices_record_of_silent _ rfl)

/-- Coming to an outcome brings no bytes. -/
theorem received_finish (s : Session) (outcome : Outcome) :
    (s.finish outcome).received = s.received :=
  (lull_finish s outcome).received.trans (received_record_of_silent _ rfl)

/-- Coming to an outcome ends the session with it. -/
theorem task_finish (s : Session) (outcome : Outcome) :
    (s.finish outcome).task = .ended outcome :=
  (lull_finish s outcome).kept.task

/-- A session that closes its stream tells and receives nothing more. It keeps its outcome,
and comes to it if the stream closes. -/
theorem run_closing (s : Session) {outcome : Outcome} (h : s.task = .closing outcome) :
    s.run.notices = s.notices ∧ s.run.received = s.received ∧
      s.run.outcome? = if s.closes.completes then some outcome else none := by
  -- Induction over the moves left: each one lets time pass until the script has its result.
  induction s using move_induction with
  | hhalted s hs => simp [isHalted, h] at hs
  | hmove s hs ih =>
    rw [← run_step s]
    rcases step_closing h with ⟨result, rest, hgives, hstep⟩ | hlull | ⟨⟨rest, hnever⟩, hstep⟩
    · -- The result of closing, whatever it is, ends the session.
      have htask : s.step.task = .ended outcome := by rw [hstep, task_finish]
      rw [run_of_halted (by simp only [isHalted, htask]), outcome?, htask,
        Script.completes_of_gives hgives, hstep, notices_finish, received_finish]
      exact ⟨notices_record_of_silent _ rfl, received_record_of_silent _ rfl, rfl⟩
    · obtain ⟨hnotices, hreceived, houtcome⟩ := ih (hlull.kept.task.trans h)
      exact ⟨hnotices.trans hlull.notices, hreceived.trans hlull.received,
        by rw [houtcome, hlull.kept.completes]⟩
    · -- The stream never closes.
      rw [run_of_halted (by rw [hstep]; rfl), hstep]
      have hcompletes : s.closes.completes = false := by
        rw [Script.completes, hnever]
        rfl
      rw [hcompletes]
      exact ⟨rfl, rfl, rfl⟩

/-- The last call of the owner, if there is one, and the reactions to it. -/
theorem notices_notifyEnd (s : Session) (outcome : Outcome) :
    (s.notifyEnd outcome).notices = s.notices ++ outcome.lastCalls := by
  cases outcome with
  | shutdown => exact (List.append_nil _).symm
  | eof => exact notices_notify s .eof
  | failed error => exact notices_notify s (.error error)

/-- The last call brings no bytes. -/
theorem received_notifyEnd (s : Session) (outcome : Outcome) :
    (s.notifyEnd outcome).received = s.received := by
  cases outcome with
  | shutdown => rfl
  | eof => exact received_notify s .eof
  | failed error => exact received_notify s (.error error)

/-- The last call leaves the stream as it is, up to the actions that have come due. -/
theorem peer_notifyEnd (s : Session) (outcome : Outcome) :
    (s.notifyEnd outcome).peer.map Peer.essence = s.peer.map Peer.essence := by
  cases outcome with
  | shutdown => rfl
  | eof => exact (lull_notify s .eof).kept.peer
  | failed error => exact (lull_notify s (.error error)).kept.peer

/-- When the work of a session stops, the owner is told so once, and the session comes to
its outcome unless closing the stream lasts for ever. -/
theorem run_concluding (s : Session) {ending : Ending} (h : s.task = .concluding ending) :
    s.run.notices
        = s.notices ++ (outcomeOf s.stopRequested s.state ending).lastCalls ∧
      s.run.received = s.received ∧
      s.run.outcome?
        = if s.closes.completes then some (outcomeOf s.stopRequested s.state ending)
          else none := by
  rw [← run_step s, step_concluding h, stepConclusion]
  -- The last calls are made first; what follows only closes, and neither calls nor reads.
  generalize outcomeOf s.stopRequested s.state ending = outcome
  have hpeer := peer_notifyEnd s outcome
  have hnotices := notices_notifyEnd s outcome
  have hreceived := received_notifyEnd s outcome
  generalize s.notifyEnd outcome = t at hpeer hnotices hreceived
  have hcompletes : s.closes.completes = t.closes.completes := by
    rw [Script.completes, Script.completes, closes_essence, closes_essence, hpeer]
  have htold : ({ t with uplink := t.uplink.close }.enter .closed).notices = t.notices :=
    notices_enter _ _
  have hcame : ({ t with uplink := t.uplink.close }.enter .closed).received = t.received :=
    received_enter _ _
  split
  · -- There is a stream to close.
    obtain ⟨h1, h2, h3⟩ := run_closing
      ({ { t with uplink := t.uplink.close }.enter .closed with
          task := .closing outcome }.record .closing) (rfl : Task.closing outcome = _)
    refine ⟨h1.trans ?_, h2.trans ?_, h3.trans ?_⟩
    · rw [notices_record_of_silent _ rfl, ← hnotices]
      exact htold
    · rw [received_record_of_silent _ rfl, ← hreceived]
      exact hcame
    · rw [hcompletes]
      rfl
  · -- There is none, so the session is over.
    rename_i hnone
    have htask := task_finish ({ t with uplink := t.uplink.close }.enter .closed) outcome
    have hclosed : t.closes.completes = true :=
      completes_of_peer_none (by
        cases hp : t.peer with
        | none => rfl
        | some peer => exact absurd (show t.peer.isSome = true by rw [hp]; rfl) hnone)
    rw [run_of_halted (by simp only [isHalted, htask]), outcome?, htask, hcompletes, hclosed,
      notices_finish, htold, hnotices, received_finish, hcame, hreceived]
    exact ⟨rfl, rfl, rfl⟩

end Session

end NtripClient
