import NtripClient.Proofs.Answer.Transcript
import NtripClient.Proofs.Session.Calls

/-!
# `NtripClient.Proofs.Session.Opening`: from the start to the first byte of an answer

Before a session reads an answer it looks up the host, connects to one of the candidates and
writes the request. `Plan.peer?` is the server it gets to: that of the first attempt that
does not fail. `exists_opens` says that a session that reads an answer at all has once been
at its front: nothing was read yet, and the stream of this server is untouched.

`Script.stream` is what a server sends, as bytes and an end. It does not depend on how the
bytes are cut or how long the server takes.
-/

set_option autoImplicit false

namespace NtripClient

/-! ### Streams -/

/-- The bytes that a script gives to a reader, and how the stream ends behind them. Reading
no bytes is the end, and so is a failure. -/
def Script.stream : Script (Except IoError Bytes) → Bytes × StreamEnd
  | [] => ([], .closed)
  | .never :: _ => ([], .silent)
  | .result (.error cause) :: _ => ([], .failed cause)
  | .result (.ok bytes) :: rest =>
    if bytes = [] then ([], .closed) else (bytes ++ (stream rest).1, (stream rest).2)
  | _ :: rest => stream rest

/-- Pauses do not change what a server sends. -/
theorem Script.stream_essence (script : Script (Except IoError Bytes)) :
    Script.stream script.essence = script.stream := by
  induction script with
  | nil => rfl
  | cons cue rest ih =>
    cases cue with
    | result value =>
      cases value with
      | error cause => rfl
      | ok bytes =>
        have hessence : Script.essence (.result (.ok bytes) :: rest)
            = .result (.ok bytes) :: Script.essence rest := rfl
        rw [hessence, stream, stream, ih]
    | never => rfl
    | delay ms => exact ih
    | due instant => exact ih
    | act actions => exact ih

/-- The server that a session gets to: the first attempt with a result that is no failure.
An attempt without any result is the last one. -/
def firstPeer? : List (Script (Except IoError Peer)) → Option Peer
  | [] => none
  | script :: others =>
    match script.essence with
    | .result (.ok peer) :: _ => some peer
    | .never :: _ => none
    | _ => firstPeer? others

/-- The server that a session with this plan gets to, if the request can be written. -/
def Plan.peer? (plan : Plan) : Option Peer :=
  firstPeer? plan.attempts

/-- Pauses that were taken out are not there any more. -/
theorem Script.essence_essence {α : Type} (script : Script α) :
    Script.essence (Script.essence script) = script.essence := by
  simp only [Script.essence, List.filter_filter, Bool.and_self]

/-- The server is found whatever pauses there are on the way to it. -/
theorem firstPeer?_essence (attempts : List (Script (Except IoError Peer))) :
    firstPeer? (attempts.map Script.essence) = firstPeer? attempts := by
  induction attempts with
  | nil => rfl
  | cons script others ih =>
    simp only [List.map_cons, firstPeer?, Script.essence_essence, ih]

/-- The server that a session gets to after this result of an attempt. -/
def peerAfter? (result : Except IoError Peer) (others : List (Script (Except IoError Peer))) :
    Option Peer :=
  match result with
  | .ok peer => some peer
  | .error _ => firstPeer? others

/-- A result of the next attempt decides: a server, or the attempts after it. -/
theorem firstPeer?_of_gives {attempts : List (Script (Except IoError Peer))} {cause : IoError}
    {result : Except IoError Peer} {rest : Script (Except IoError Peer)}
    (h : (attempts.headD []).Gives (.error cause) result rest) :
    firstPeer? attempts = peerAfter? result attempts.tail := by
  cases attempts with
  | nil =>
    -- No attempt has a script, so all of them fail.
    rcases h with ⟨-, rfl, -⟩ | hcons
    · rfl
    · cases hcons
  | cons script others =>
    rcases h with ⟨hnil, rfl, -⟩ | hcons
    · change script = [] at hnil
      rw [hnil]
      rfl
    · change script = _ at hcons
      rw [hcons]
      cases result <;> rfl

/-- What a server does once the request is written: what it sends, and how its stream
closes. -/
def Peer.answer (peer : Peer) : Script (Except IoError Bytes) × Script (Except IoError Unit) :=
  (peer.reads.essence, peer.closes.essence)

namespace Session

variable {s t : Session} {peer : Peer}

/-- An answer of this server is about to be read, and nothing of it was read yet. -/
structure Opens (s : Session) (peer : Peer) : Prop where
  task : s.task = .decoding
  fresh : s.received = []
  arrived : s.arrived = []
  peer : s.peer.map Peer.answer = some peer.answer

/-- The server that a session at this task has got to or is going to get to. -/
def ahead? (s : Session) (task : Task) : Option Peer :=
  match task with
  | .attempting .resolve => firstPeer? s.attempts
  | .attempting (.connect _ _ _) => firstPeer? s.attempts
  | _ => s.peer

/-- A session before the answer is going to read one of this server. -/
structure Ahead (s : Session) (peer : Peer) : Prop where
  task : s.task.isEarly = true
  fresh : s.received = []
  arrived : s.arrived = []
  peer : (s.ahead? s.task).map Peer.answer = some peer.answer

/-- A session goes on towards the answer of this server, or has stopped working. -/
def Onward (s : Session) (peer : Peer) : Prop :=
  s.Ahead peer ∨ s.Opens peer ∨ s.task.isWorking = false

/-- A session that keeps its stream keeps what it will answer. -/
theorem Kept.answer (h : Kept s t) : t.peer.map Peer.answer = s.peer.map Peer.answer := by
  have hpeer := congrArg (Option.map fun peer => (peer.reads, peer.closes)) h.peer
  rw [Option.map_map, Option.map_map] at hpeer
  exact hpeer

/-- What a server sends and how its stream closes is all that matters of it. -/
theorem stream_of_answer (h : t.peer.map Peer.answer = s.peer.map Peer.answer) :
    t.reads.stream = s.reads.stream := by
  have hstream : ∀ u : Session, u.reads.stream
      = ((u.peer.map Peer.answer).map fun answer => Script.stream answer.1).getD ([], .closed) := by
    intro u
    unfold reads
    cases u.peer with
    | none => rfl
    | some peer => exact (Script.stream_essence peer.reads).symm
  rw [hstream, hstream, h]

/-- Whether the stream closes is a part of what the server does. -/
theorem completes_of_answer (h : t.peer.map Peer.answer = s.peer.map Peer.answer) :
    t.closes.completes = s.closes.completes := by
  have hcloses : ∀ u : Session, u.closes.essence
      = ((u.peer.map Peer.answer).map Prod.snd).getD [] := by
    intro u
    unfold closes
    cases u.peer with
    | none => rfl
    | some peer => rfl
  rw [Script.completes, Script.completes, hcloses, hcloses, h]

/-- The server that a session gets to is kept. -/
theorem Kept.ahead? (h : Kept s t) (task : Task) :
    (t.ahead? task).map Peer.answer = (s.ahead? task).map Peer.answer := by
  have hattempts : firstPeer? t.attempts = firstPeer? s.attempts := by
    rw [← firstPeer?_essence, h.attempts, firstPeer?_essence]
  unfold Session.ahead?
  split
  · rw [hattempts]
  · rw [hattempts]
  · exact h.answer

/-- The server that a session gets to is the same if what it answers is. -/
theorem ahead?_mapPeer (s : Session) {change : Peer → Peer}
    (hanswer : ∀ peer, (change peer).answer = peer.answer) (task : Task) :
    (({ s with peer := s.peer.map change } : Session).ahead? task).map Peer.answer
      = (s.ahead? task).map Peer.answer := by
  have hchange : Peer.answer ∘ change = Peer.answer := funext hanswer
  unfold ahead?
  split
  · rfl
  · rfl
  · rw [Option.map_map, hchange]

/-- What becomes of the request leaves what the server answers. -/
theorem Ahead.mapPeer (h : s.Ahead peer) {change : Peer → Peer}
    (hanswer : ∀ peer, (change peer).answer = peer.answer) :
    ({ s with peer := s.peer.map change } : Session).Ahead peer where
  task := h.task
  fresh := h.fresh
  arrived := h.arrived
  peer := (ahead?_mapPeer s hanswer s.task).trans h.peer

/-! ### Going on towards the answer -/

/-- An operation that begins before the answer leads on to it, unless a shutdown was requested. -/
theorem onward_attempt (hfresh : s.received = []) (harrived : s.arrived = [])
    {operation : Operation} (hearly : (Task.attempting operation).isEarly = true)
    (hpeer : (s.ahead? (.attempting operation)).map Peer.answer = some peer.answer) :
    (s.attempt operation).Onward peer := by
  unfold attempt
  split
  · exact .inr (.inr rfl)
  · refine .inl ⟨hearly, ?_, harrived, hpeer⟩
    exact (received_record_of_silent _ rfl).trans hfresh

/-- A pause leads on to the answer, or the work stops. -/
theorem onward_pause {α : Type} {script : Script α} (h : s.Ahead peer)
    (hpause : Pause script s t) : t.Onward peer := by
  cases hpause with
  | on hlull =>
    refine .inl ⟨?_, hlull.received.trans h.fresh, hlull.kept.arrived.trans h.arrived, ?_⟩
    · rw [hlull.kept.task]
      exact h.task
    · rw [hlull.kept.task]
      exact (hlull.kept.ahead? s.task).trans h.peer
  | stuck hlull => exact .inr (.inr rfl)
  | cancelled hlull => exact .inr (.inr rfl)
  | expired hlull => exact .inr (.inr rfl)

/-- The next attempt leads on to the answer of the first server that accepts. -/
theorem onward_connectNext (hfresh : s.received = []) (harrived : s.arrived = [])
    (hpeer : (firstPeer? s.attempts).map Peer.answer = some peer.answer) (candidate : Nat)
    (last : IoError) (candidates : Candidates) :
    (s.connectNext candidate last candidates).Onward peer := by
  cases candidates with
  | nil => exact .inr (.inr rfl)
  | cons endpoint others =>
    refine onward_attempt ?_ ?_ rfl ?_
    · rw [received_enter, hfresh]
    · exact harrived
    · exact hpeer

/-- The lookup leads on to the answer of the first server that accepts. -/
theorem onward_resolved (hfresh : s.received = []) (harrived : s.arrived = [])
    (hpeer : (firstPeer? s.attempts).map Peer.answer = some peer.answer)
    (result : Except IoError Candidates) : (s.resolved result).Onward peer := by
  unfold resolved
  split
  · exact .inr (.inr rfl)
  · exact .inr (.inr rfl)
  · exact onward_connectNext ((received_settle s).trans hfresh) harrived hpeer _ _ _

/-- The first attempt that does not fail decides which server it is. -/
theorem onward_connected (hfresh : s.received = []) (harrived : s.arrived = [])
    {candidate : Nat} {others : Candidates} {result : Except IoError Peer}
    (hpeer : (peerAfter? result s.attempts.tail).map Peer.answer = some peer.answer) :
    (s.connected candidate others result).Onward peer := by
  have hs := (received_settle { s with attempts := s.attempts.tail }).trans hfresh
  unfold connected
  cases result with
  | error cause => exact onward_connectNext hs harrived hpeer _ _ _
  | ok found =>
    refine onward_attempt ?_ ?_ rfl ?_
    · rw [received_enter]
      exact hs
    · exact harrived
    · exact hpeer

/-- A write of the request leads on to the answer, unless it fails. -/
theorem onward_written (h : s.Ahead peer) {bytes : Bytes}
    (htask : s.task = .attempting (.write .request bytes)) (result : Except IoError Nat) :
    (s.written .request bytes result).Onward peer := by
  have hpeer := h.peer
  rw [htask] at hpeer
  unfold written
  cases result with
  | error cause =>
    simp only
    split
    · exact .inl h
    · exact .inr (.inr rfl)
  | ok limit =>
    simp only
    split
    · exact .inr (.inr rfl)
    · refine .inl ⟨rfl, ?_, h.arrived, hpeer⟩
      exact (received_record_of_silent s rfl).trans h.fresh

/-- The answer comes after the flush of the request. -/
theorem onward_flushed (h : s.Ahead peer) (htask : s.task = .attempting (.flush .request))
    (result : Except IoError Unit) : (s.flushed .request result).Onward peer := by
  have hpeer := h.peer
  rw [htask] at hpeer
  unfold flushed
  cases result with
  | error cause => exact .inr (.inr rfl)
  | ok u =>
    refine .inr (.inl ⟨rfl, ?_, h.arrived, hpeer⟩)
    calc ((s.record .flushed).settle.enter .readingStatus).received
        = (s.record .flushed).settle.received := received_enter _ _
      _ = (s.record .flushed).received := received_settle _
      _ = s.received := received_record_of_silent s rfl
      _ = [] := h.fresh

/-- A session before the answer goes on towards it. -/
theorem onward_step (h : s.Ahead peer) : s.step.Onward peer := by
  have hearly := h.task
  have hpeer := h.peer
  unfold Task.isEarly at hearly
  split at hearly
  · -- The lookup.
    rename_i htask
    rw [htask] at hpeer
    rcases step_resolve htask with ⟨result, rest, -, hstep⟩ | hpause
    · rw [hstep]
      exact onward_resolved (s := s.putLookup rest) h.fresh h.arrived hpeer result
    · exact onward_pause h hpause
  · -- An attempt to connect.
    rename_i htask
    rw [htask] at hpeer
    rcases step_connect htask with ⟨result, rest, hgives, hstep⟩ | hpause
    · rw [hstep]
      change (firstPeer? s.attempts).map Peer.answer = _ at hpeer
      rw [firstPeer?_of_gives hgives] at hpeer
      exact onward_connected (s := s.putAttempt rest) h.fresh h.arrived hpeer
    · exact onward_pause h hpause
  · -- Writing the request.
    rename_i bytes htask
    rw [htask] at hpeer
    by_cases hne : bytes = []
    · subst hne
      rw [step_write_nil htask]
      exact .inl ⟨rfl, h.fresh, h.arrived, hpeer⟩
    · rcases step_write hne htask with ⟨result, rest, -, hstep⟩ | hpause
      · rw [hstep]
        exact onward_written (s := s.putWrites rest) (h.mapPeer fun _ => rfl) htask result
      · exact onward_pause h hpause
  · -- Flushing it.
    rename_i htask
    rcases step_flush htask with ⟨result, rest, -, hstep⟩ | hpause
    · rw [hstep]
      exact onward_flushed (s := s.putFlushes rest) (h.mapPeer fun _ => rfl) htask result
    · exact onward_pause h hpause
  · cases hearly

/-- A session sets out towards the answer of the first server that accepts. -/
theorem onward_start (connection : Connection) {plan : Plan} (h : plan.peer? = some peer) :
    (start connection plan).Onward peer := by
  rw [start_eq]
  have hlull := lull_actAll (blank connection plan) plan.before
  have hattempts : firstPeer? ((blank connection plan).actAll plan.before).attempts
      = some peer := by
    rw [← firstPeer?_essence, hlull.kept.attempts, firstPeer?_essence]
    exact h
  refine onward_attempt ?_ ?_ rfl ?_
  · rw [received_enter, received_record_of_silent _ rfl]
    exact hlull.received
  · exact hlull.kept.arrived
  · exact congrArg (Option.map Peer.answer) hattempts

/-- A session that reads an answer has once been at its front. -/
theorem exists_opens {connection : Connection} {plan : Plan} (h : plan.peer? = some peer)
    {moves : Nat} (hreads : ((start connection plan).runFor moves).task = .decoding) :
    ∃ first, ((start connection plan).runFor first).Opens peer := by
  -- Along the moves: the session is still ahead of the answer, or it has been at its front,
  -- or it has stopped working.
  have hcourse : ∀ moves, ((start connection plan).runFor moves).Ahead peer ∨
      (∃ first, ((start connection plan).runFor first).Opens peer) ∨
      ((start connection plan).runFor moves).task.isWorking = false := by
    intro moves
    induction moves with
    | zero =>
      rcases onward_start connection h with hahead | hopens | hover
      · exact .inl hahead
      · exact .inr (.inl ⟨0, hopens⟩)
      · exact .inr (.inr hover)
    | succ moves ih =>
      have hnext := runFor_succ' moves (start connection plan)
      rcases ih with hahead | hopened | hover
      · rcases onward_step hahead with hahead | hopens | hover
        · exact .inl (hnext ▸ hahead)
        · exact .inr (.inl ⟨moves + 1, hnext ▸ hopens⟩)
        · exact .inr (.inr (hnext ▸ hover))
      · exact .inr (.inl hopened)
      · exact .inr (.inr (hnext ▸ isWorking_step hover))
  rcases hcourse moves with hahead | hopened | hover
  · have hearly := hahead.task
    rw [hreads] at hearly
    cases hearly
  · exact hopened
  · rw [hreads] at hover
    cases hover

end Session

end NtripClient
