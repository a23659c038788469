import NtripClient.Proofs.Answer.Intake
import NtripClient.Proofs.Session.Closing
import NtripClient.Proofs.Session.Decoding

/-!
# `NtripClient.Proofs.Session.Passage`: how a session gets from one part of its work to the next

The work of a session has a few places: the lookup, the attempts to connect, the request, and
then the answer, for which it waits or which it decodes. Most moves leave a session at its place.
They add to the log without entering a state, reading, or calling the owner (`Still`), and the
work may stop with them (`Rests`). All other moves lead from one place to the next one, and there
is one constructor of `Leads` or `Decodes` for each of them, which says exactly what the session
is then.

`Stands` is what belongs together at a place: the state that shows, the part of the answer that
the decoder is at, and that a session which does not decode has a decoder that can do nothing
without more bytes.
-/

set_option autoImplicit false

namespace NtripClient

/-- Where a session is in its work. -/
inductive Place where
  /-- It looks up the host. -/
  | lookup
  /-- It tries to connect to this candidate, and the others come after it. -/
  | attempt (candidate : Nat) (endpoint : Endpoint) (others : Candidates)
  /-- It writes and flushes the request. -/
  | request
  /-- It waits for more of the answer, or sends data meanwhile. -/
  | waiting
  /-- It reads what has arrived of the answer. -/
  | decoding
deriving DecidableEq, Repr

/-- The place of a task. There is none once the work has stopped. -/
def Task.place? : Task → Option Place
  | .attempting .resolve => some .lookup
  | .attempting (.connect candidate endpoint others) => some (.attempt candidate endpoint others)
  | .attempting (.write .request _) => some .request
  | .attempting (.flush .request) => some .request
  | .attempting (.write .uplink _) => some .waiting
  | .attempting (.flush .uplink) => some .waiting
  | .attempting .read => some .waiting
  | .decoding => some .decoding
  | _ => none

namespace Place

/-- The answer has not begun. -/
def isEarly : Place → Bool
  | .lookup => true
  | .attempt _ _ _ => true
  | .request => true
  | _ => false

/-- The state that shows at a place, if the decoder is at this stage. -/
def state (stage : Stage) : Place → State
  | .lookup => .resolving
  | .attempt candidate _ _ => .connecting candidate
  | .request => .writing
  | .waiting => stage.state
  | .decoding => stage.state

end Place

/-- No state is entered, no connection is tried, nothing arrives, and nothing is told. -/
def Event.isPlain : Event → Bool
  | .entered _ => false
  | .began (.connect _ _ _) => false
  | .received _ => false
  | .notified _ => false
  | _ => true

/-- The entry is made in this state, and its event is plain. -/
def Entry.IsPlain (state : State) (entry : Entry) : Prop :=
  entry.state = state ∧ entry.event.isPlain = true

/-- A plain event is no call of the owner. -/
theorem Event.notice?_of_isPlain {event : Event} (h : event.isPlain = true) :
    event.notice? = none := by
  cases event <;> first | rfl | cases h

/-- A plain event brings no bytes. -/
theorem Event.arrival_of_isPlain {event : Event} (h : event.isPlain = true) :
    event.arrival = [] := by
  cases event <;> first | rfl | cases h

/-- A session that works has a place. -/
theorem Task.exists_place {task : Task} (h : task.isWorking = true) :
    ∃ place, task.place? = some place := by
  cases task with
  | attempting operation =>
    cases operation with
    | write purpose bytes => cases purpose <;> exact ⟨_, rfl⟩
    | flush purpose => cases purpose <;> exact ⟨_, rfl⟩
    | _ => exact ⟨_, rfl⟩
  | decoding => exact ⟨_, rfl⟩
  | _ => cases h

/-- Conversely, only a session that works has a place. -/
theorem Task.isWorking_of_place {task : Task} {place : Place} (h : task.place? = some place) :
    task.isWorking = true := by
  cases task with
  | attempting operation => rfl
  | decoding => rfl
  | _ => cases h

/-- The work fails because the request is not allowed. -/
def Ending.isRequestFault : Ending → Bool
  | .failed error => error.isRequestFault
  | _ => false

/-- The work has stopped, and neither because the body is complete nor because the request is not
allowed. -/
def Task.IsInterrupted (task : Task) : Prop :=
  task = .stuck ∨
    ∃ ending, task = .concluding ending ∧ ending ≠ .finished ∧ ending.isRequestFault = false

/-- Work that was interrupted has no place any more. -/
theorem Task.IsInterrupted.place? {task : Task} (h : task.IsInterrupted) : task.place? = none := by
  rcases h with rfl | ⟨ending, rfl, -, -⟩
  · rfl
  · rfl

/-- No state of the answer is the closed one. -/
theorem Stage.isClosed_state (stage : Stage) : stage.state.isClosed = false := by
  cases stage <;> rfl

/-- Whatever the place, the session is not closed. -/
theorem Place.isClosed_state (place : Place) (stage : Stage) :
    (place.state stage).isClosed = false := by
  cases place with
  | waiting => exact stage.isClosed_state
  | decoding => exact stage.isClosed_state
  | _ => rfl

namespace Session

variable {s t u : Session} {origin : Connection} {place : Place}

/-! ### Moves that lead nowhere -/

/-- What the session has read, told and shown stays, and what is logged is plain. -/
structure Still (s t : Session) : Prop where
  connection : t.connection = s.connection
  decoder : t.decoder = s.decoder
  state : t.state = s.state
  log : Adds (Entry.IsPlain s.state) s t

namespace Still

/-- Nothing is logged, so nothing else can be. -/
theorem of_eq (connection : t.connection = s.connection) (decoder : t.decoder = s.decoder)
    (state : t.state = s.state) (history : t.history = s.history) : Still s t :=
  ⟨connection, decoder, state, adds_of_history history⟩

/-- A session that does not move is still. -/
theorem refl (s : Session) : Still s s :=
  .of_eq rfl rfl rfl rfl

/-- Two moves that lead nowhere lead nowhere. -/
theorem trans (h : Still s t) (k : Still t u) : Still s u where
  connection := k.connection.trans h.connection
  decoder := k.decoder.trans h.decoder
  state := k.state.trans h.state
  log := h.log.trans (h.state ▸ k.log)

/-- The relation does not speak of the task, of time, of the scripts, or of what the owner has
and sends. -/
theorem frame (h : Still s t) {task : Task} {watchdog : Watchdog} {reactions : Reactions}
    {after : List Action} {lookup : Script (Except IoError Candidates)}
    {attempts : List (Script (Except IoError Peer))} {peer : Option Peer} {arrived : Bytes}
    {uplink : Uplink} :
    Still s { t with task, watchdog, reactions, after, lookup, attempts, peer, arrived, uplink } :=
  h.trans (.of_eq rfl rfl rfl rfl)

/-- A plain event may be recorded. -/
theorem record (h : Still s t) (event : Event) (plain : event.isPlain = true) :
    Still s (t.record event) :=
  h.trans ⟨rfl, rfl, rfl, adds_record t ⟨rfl, plain⟩⟩

/-- An operation may be settled. -/
theorem settle (h : Still s t) : Still s t.settle :=
  record (t := { t with watchdog := t.watchdog.reset t.now }) h.frame .settled rfl

/-- The owner may act. -/
theorem act (h : Still s t) (action : Action) : Still s (t.act action) := by
  have hkept := kept_act t action
  have hstate : (t.respond action).1.state = t.state := hkept.state
  exact h.trans ⟨hkept.connection, hkept.decoder, hkept.state, adds_act t ⟨hstate, rfl⟩⟩

end Still

/-- Whatever the owner does is plain. -/
theorem Lull.still (h : Lull s t) : Still s t :=
  h.keeps (P := Still s) (fun _ action h => h.act action)
    (fun _ _ same h => h.trans (.of_eq same.connection same.decoder same.state same.history))
    (.refl s)

/-- The owner is told nothing. -/
theorem Still.notices (h : Still s t) : t.notices = s.notices := by
  obtain ⟨added, hlog, hplain⟩ := h.log
  have hnone : added.filterMap (fun entry => entry.event.notice?) = [] :=
    List.filterMap_eq_nil_iff.2 fun entry hmem => Event.notice?_of_isPlain (hplain entry hmem).2
  show t.log.filterMap (fun entry => entry.event.notice?) = _
  rw [hlog, List.filterMap_append, hnone, List.append_nil]
  rfl

/-- Nothing is received. -/
theorem Still.received (h : Still s t) : t.received = s.received := by
  obtain ⟨added, hlog, hplain⟩ := h.log
  have hnone : added.flatMap (fun entry => entry.event.arrival) = [] :=
    List.flatMap_eq_nil_iff.2 fun entry hmem => Event.arrival_of_isPlain (hplain entry hmem).2
  rw [Session.received, hlog, List.flatMap_append, hnone, List.append_nil]
  rfl

/-- The session stays at its place, or its work stops. -/
structure Rests (s t : Session) : Prop extends Still s t where
  place : t.task.place? = s.task.place? ∨ t.task.IsInterrupted
  lookup : t.task = .attempting .resolve → t.lookup.essence = s.lookup.essence

/-- Only the lookup needs its script. -/
theorem Still.rests (h : Still s t) (task : t.task ≠ .attempting .resolve)
    (place : t.task.place? = s.task.place? ∨ t.task.IsInterrupted) : Rests s t :=
  ⟨h, place, fun hresolve => absurd hresolve task⟩

/-- The work may stop anywhere. -/
theorem Still.conclude (h : Still s t) {ending : Ending} (hne : ending ≠ .finished)
    (hfault : ending.isRequestFault = false) : Rests s (t.conclude ending) :=
  rests (t := t.conclude ending) h.frame (by simp [Session.conclude])
    (.inr (.inr ⟨_, rfl, hne, hfault⟩))

/-- The work may fail anywhere, but the fault is not in the request. -/
theorem Still.fail (h : Still s t) {error : Error} (hfault : error.isRequestFault = false) :
    Rests s (t.fail error) :=
  h.conclude (by simp) hfault

/-- An operation at the same place begins, unless a shutdown was requested. -/
theorem Still.attempt (h : Still s t) {operation : Operation} (hne : operation ≠ .resolve)
    (place : (Task.attempting operation).place? = s.task.place?)
    (plain : (Event.began operation).isPlain = true) : Rests s (t.attempt operation) := by
  unfold Session.attempt
  split
  · exact h.conclude (by simp) rfl
  · refine rests (record (t := { t with task := .attempting operation }) h.frame _ plain) ?_
      (.inl place)
    intro htask
    exact hne (Task.attempting.inj htask)

/-- An operation that pauses leads nowhere, whatever the pause comes to. -/
theorem Pause.rests {α : Type} {script : Script α} (h : Pause script s t) : Rests s t := by
  cases h with
  | on hlull =>
    exact ⟨hlull.still, .inl (congrArg Task.place? hlull.kept.task), fun _ => hlull.kept.lookup⟩
  | stuck hlull => exact ⟨hlull.still.frame, .inr (.inl rfl), fun _ => hlull.kept.lookup⟩
  | cancelled hlull => exact hlull.still.conclude (by simp) rfl
  | expired hlull => exact hlull.still.fail rfl

/-! ### The results of operations -/

/-- What a guarded operation comes to in one move: the session rests, or gets to another place. -/
inductive Leads (s : Session) : Session → Prop where
  | rests {t : Session} (h : Rests s t) : Leads s t
  /-- The host has an address. -/
  | found {u : Session} {found : Candidates} {rest : Script (Except IoError Candidates)}
      {endpoint : Endpoint} {others : Candidates} (h : Still s u)
      (task : s.task = .attempting .resolve) (gives : s.lookup.Gives (.ok []) (.ok found) rest)
      (candidates : Candidates.withPort found s.connection.config.port = endpoint :: others) :
      Leads s ((u.enter (.connecting 0)).attempt (.connect 0 endpoint others))
  /-- An attempt has failed, and another candidate is left. -/
  | next {u : Session} {candidate : Nat} {failed endpoint : Endpoint} {others : Candidates}
      (h : Still s u)
      (task : s.task = .attempting (.connect candidate failed (endpoint :: others))) :
      Leads s ((u.enter (.connecting (candidate + 1))).attempt
        (.connect (candidate + 1) endpoint others))
  /-- An attempt has succeeded. -/
  | connected {u : Session} {candidate : Nat} {endpoint : Endpoint} {others : Candidates}
      (h : Still s u) (task : s.task = .attempting (.connect candidate endpoint others)) :
      Leads s ((u.enter .writing).attempt (.write .request u.connection.request))
  /-- The request is flushed. -/
  | asked {u : Session} (h : Still s u) (task : s.task = .attempting (.flush .request)) :
      Leads s { u.enter .readingStatus with task := .decoding }
  /-- Bytes have arrived. -/
  | received {u : Session} (bytes : Bytes) (h : Still s u) (task : s.task = .attempting .read) :
      Leads s { u.record (.received bytes) with
        decoder := u.decoder.push bytes, task := .decoding }

/-- The lookup leads to the first address, or nowhere. -/
theorem leads_resolve (htask : s.task = .attempting .resolve) : Leads s s.step := by
  rcases step_resolve htask with ⟨result, rest, hgives, hstep⟩ | hpause
  · have hstill : Still s (s.putLookup rest).settle :=
      Still.settle (t := s.putLookup rest) (Still.refl s).frame
    rw [hstep]
    unfold resolved
    split
    · exact .rests (hstill.fail rfl)
    · exact .rests (hstill.fail rfl)
    · rename_i found _
      cases hcandidates : Candidates.withPort found s.connection.config.port with
      | nil =>
        change Leads s ((s.putLookup rest).settle.connectNext 0 _
          (Candidates.withPort found s.connection.config.port))
        rw [hcandidates]
        exact .rests (hstill.fail rfl)
      | cons endpoint others =>
        change Leads s ((s.putLookup rest).settle.connectNext 0 _
          (Candidates.withPort found s.connection.config.port))
        rw [hcandidates]
        exact .found hstill htask hgives hcandidates
  · exact .rests hpause.rests

/-- An attempt to connect leads to the request, to the next address, or nowhere. -/
theorem leads_connect {candidate : Nat} {endpoint : Endpoint} {others : Candidates}
    (htask : s.task = .attempting (.connect candidate endpoint others)) : Leads s s.step := by
  rcases step_connect htask with ⟨result, rest, -, hstep⟩ | hpause
  · have hstill : ∀ attempts, Still s ({ s.putAttempt rest with attempts } : Session).settle :=
      fun attempts => Still.settle (t := { s.putAttempt rest with attempts }) (Still.refl s).frame
    rw [hstep]
    unfold connected
    cases result with
    | error cause =>
      cases others with
      | nil => exact .rests ((hstill _).fail rfl)
      | cons endpoint others => exact .next (hstill _) htask
    | ok peer => exact .connected (Still.frame (hstill _)) htask
  · exact .rests hpause.rests

/-- A write leads nowhere: the flush behind it is at the same place. -/
theorem leads_write {purpose : Purpose} {bytes : Bytes}
    (htask : s.task = .attempting (.write purpose bytes)) : Leads s s.step := by
  -- Writing, then flushing is one place.
  have hplace : ∀ {t : Session} {bytes' : Bytes}, Still s t →
      t.task = .attempting (.write purpose bytes') → Leads s t := by
    intro t bytes' hstill htask'
    refine .rests (hstill.rests (by rw [htask']; simp) (.inl ?_))
    rw [htask, htask']
    cases purpose <;> rfl
  by_cases hne : bytes = []
  · subst hne
    rw [step_write_nil htask]
    refine .rests (Still.rests (Still.refl s).frame (by simp) (.inl ?_))
    rw [htask]
    cases purpose <;> rfl
  · rcases step_write hne htask with ⟨result, rest, -, hstep⟩ | hpause
    · have hstill : Still s (s.putWrites rest) := (Still.refl s).frame
      rw [hstep]
      unfold written
      cases result with
      | error cause =>
        simp only
        split
        · exact hplace hstill htask
        · exact .rests (hstill.settle.fail rfl)
      | ok limit =>
        have hwrote := hstill.record (.wrote (bytes.take limit)) rfl
        simp only
        split
        · exact .rests (hwrote.settle.fail rfl)
        · exact hplace hwrote.frame rfl
    · exact .rests hpause.rests

/-- Flushing the request leads to the answer, flushing a message nowhere. -/
theorem leads_flush {purpose : Purpose} (htask : s.task = .attempting (.flush purpose)) :
    Leads s s.step := by
  rcases step_flush htask with ⟨result, rest, -, hstep⟩ | hpause
  · have hstill : Still s (s.putFlushes rest) := (Still.refl s).frame
    rw [hstep]
    unfold flushed
    cases result with
    | error cause => exact .rests (hstill.settle.fail rfl)
    | ok u =>
      have hflushed := (hstill.record .flushed rfl).settle
      cases purpose with
      | request => exact .asked hflushed htask
      | uplink => exact .rests (hflushed.attempt (by simp) (by rw [htask]; rfl) rfl)
  · exact .rests hpause.rests

/-- A read that has bytes leads to decoding. A message for the server is written at the same place.
-/
theorem leads_read (htask : s.task = .attempting .read) : Leads s s.step := by
  by_cases harrived : s.arrived = []
  · rcases step_read htask harrived with
      ⟨result, rest, -, hstep⟩ | ⟨message, uplink, -, -, -, hstep⟩ | hpause
    · have hstill : Still s (s.putReads rest) := (Still.refl s).frame
      rw [hstep]
      unfold readable
      cases result with
      | error cause => exact .rests (hstill.settle.fail rfl)
      | ok bytes =>
        simp only
        split
        · exact .rests (hstill.settle.conclude (by simp) rfl)
        · have htask' : (s.putReads rest).task = .attempting .read := htask
          refine .rests (Still.rests hstill.frame (by simp [htask']) (.inl ?_))
          simp [htask', htask]
    · have hsettled : Still s ({ s with uplink } : Session).settle :=
        Still.settle (t := { s with uplink }) (Still.refl s).frame
      rw [hstep]
      exact .rests (hsettled.attempt (by simp) (by rw [htask]; rfl) rfl)
    · exact .rests hpause.rests
  · rw [step_receive htask harrived]
    exact .received _ (Still.settle (t := { s with
      arrived := s.arrived.drop s.connection.config.readLimit }) (Still.refl s).frame) htask

/-- What every guarded operation comes to. -/
theorem leads_of_attempting {operation : Operation} (h : s.task = .attempting operation) :
    Leads s s.step := by
  cases operation with
  | resolve => exact leads_resolve h
  | connect candidate endpoint others => exact leads_connect h
  | write purpose bytes => exact leads_write h
  | flush purpose => exact leads_flush h
  | read => exact leads_read h

/-- The second session has received and buffered these bytes more, and has told nothing more. -/
structure Takes (s t : Session) (bytes : Bytes) : Prop where
  connection : t.connection = s.connection
  decoder : t.decoder = s.decoder.push bytes
  received : t.received = s.received ++ bytes
  notices : t.notices = s.notices

/-- A move that leads nowhere brings no bytes. -/
theorem Still.takes (h : Still s t) : Takes s t [] where
  connection := h.connection
  decoder := by rw [h.decoder, Decoder.push, List.append_nil]
  received := by rw [h.received, List.append_nil]
  notices := h.notices

/-- Entering a state brings no bytes. -/
theorem Takes.enter {bytes : Bytes} (h : Takes s t bytes) (state : State) :
    Takes s (t.enter state) bytes :=
  ⟨h.connection, h.decoder, (received_enter t state).trans h.received,
    (notices_enter t state).trans h.notices⟩

/-- Beginning an operation brings no bytes. -/
theorem Takes.attempt {bytes : Bytes} (h : Takes s t bytes) (operation : Operation) :
    Takes s (t.attempt operation) bytes := by
  unfold Session.attempt
  split
  · exact ⟨h.connection, h.decoder, h.received, h.notices⟩
  · exact ⟨h.connection, h.decoder, (received_record_of_silent _ rfl).trans h.received,
      (notices_record_of_silent _ rfl).trans h.notices⟩

/-- An operation takes in what arrives, and does nothing else with the answer. Whatever has arrived
is decoded next. -/
theorem Leads.takes (h : Leads s t) :
    ∃ bytes, Takes s t bytes ∧ (t.task = .decoding ∨ bytes = []) := by
  cases h with
  | rests hrests => exact ⟨[], hrests.toStill.takes, .inr rfl⟩
  | found hstill => exact ⟨[], (hstill.takes.enter _).attempt _, .inr rfl⟩
  | next hstill => exact ⟨[], (hstill.takes.enter _).attempt _, .inr rfl⟩
  | connected hstill => exact ⟨[], (hstill.takes.enter _).attempt _, .inr rfl⟩
  | asked hstill =>
    have hentered := hstill.takes.enter .readingStatus
    exact ⟨[], ⟨hentered.connection, hentered.decoder, hentered.received, hentered.notices⟩,
      .inr rfl⟩
  | @received u bytes hstill =>
    refine ⟨bytes, ⟨hstill.connection, ?_, ?_, ?_⟩, .inl rfl⟩
    · exact congrArg (Decoder.push · bytes) hstill.decoder
    · exact (received_record u _).trans (congrArg (· ++ bytes) hstill.received)
    · exact (notices_record_of_silent u rfl).trans hstill.notices

/-! ### Decoding -/

/-- What decoding comes to in one move. -/
inductive Decodes (s : Session) : Session → Prop where
  /-- More bytes are needed. -/
  | waits {next : Decoder} (stage : next.stage.state = s.decoder.stage.state)
      (buffer : next.buffer = s.decoder.buffer) (hungry : next.Hungry s.limits) :
      Decodes s (({ s with decoder := next } : Session).attempt .read)
  /-- The next part of a body begins. -/
  | proceeds {next : Decoder} (active : s.decoder.stage.state.isActive = true)
      (stage : next.stage.state = s.decoder.stage.state) :
      Decodes s { s with decoder := next }
  /-- The status line accepts the request. -/
  | accepts {status : StatusLine} {length : Nat}
      (stage : s.decoder.stage.state = .readingStatus)
      (stop : Bytes.lineEnd? 0 s.decoder.buffer = some length)
      (line : status = .parse (s.decoder.buffer.take length)) (ok : status.isOk = true)
      {next : Decoder} (eq : next = {
        stage := if status.skipsHeaders then .plain else .headers 0
        buffer := s.decoder.buffer.drop length }) :
      Decodes s (({ s with decoder := next } : Session).enter next.stage.state)
  /-- The headers are told, unless a shutdown was requested. -/
  | tellsHeaders {map : HeaderMap} {length : Nat}
      (stage : s.decoder.stage.state = .readingHeaders)
      (stop : Bytes.blockEnd? 0 s.decoder.buffer = some length)
      (block : map = (HeaderMap.empty.insertBlock (s.decoder.buffer.take length)).1)
      {next : Decoder} (eq : next = {
        stage := Decoder.bodyStage map, buffer := s.decoder.buffer.drop length }) :
      Decodes s ((({ s with decoder := next } : Session).notify (.headers map)).enter
        next.stage.state)
  /-- Data is told, unless a shutdown was requested. -/
  | tellsData {next : Decoder} (bytes : Bytes) (active : s.decoder.stage.state.isActive = true)
      (stage : next.stage.state = s.decoder.stage.state) :
      Decodes s (({ s with decoder := next } : Session).notify (.data bytes))
  /-- The work stops. -/
  | stops (next : Decoder) {ending : Ending}
      (active : ending = .finished → s.decoder.stage.state.isActive = true)
      (fault : ending.isRequestFault = false) :
      Decodes s (({ s with decoder := next } : Session).conclude ending)

/-- What decoding comes to follows what the decoder gives. -/
theorem decodes_of_decoding (htask : s.task = .decoding) (hsound : s.decoder.Sound) :
    Decodes s s.step := by
  have hgives := Decoder.gives_advance s.limits hsound
  rw [step_decoding htask, stepDecoder]
  cases hadvance : s.decoder.advance s.limits with
  | mk signal next =>
    rw [hadvance] at hgives
    -- Each signal says where the decoder stood, and that is what the step has done.
    cases hgives with
    | more stage buffer hungry => exact .waits stage buffer hungry
    | proceed active stage => exact .proceeds active stage
    | accepted stage stop ok =>
      have haccepts := Decodes.accepts stage stop rfl ok rfl
      simp only
      split
      · rename_i hskips
        rw [if_pos hskips] at haccepts
        exact haccepts
      · rename_i hskips
        rw [if_neg hskips] at haccepts
        exact haccepts
    | headers stage stop =>
      simp only
      split
      · exact .stops _ (by simp) rfl
      · rw [← Decoder.state_bodyStage]
        exact .tellsHeaders stage stop rfl rfl
    | data active stage =>
      simp only
      split
      · exact .stops _ (by simp) rfl
      · exact .tellsData _ active stage
    | finished active => exact .stops _ (fun _ => active) rfl
    | failed ofAnswer => exact .stops _ (by simp) ofAnswer

/-- Decoding receives nothing. -/
theorem Decodes.received (h : Decodes s t) : t.received = s.received := by
  cases h with
  | @waits next =>
    exact ((Still.refl { s with decoder := next }).takes.attempt .read).received.trans
      (List.append_nil _)
  | proceeds => rfl
  | @accepts status length stage stop line ok next eq =>
    exact received_enter { s with decoder := next } _
  | @tellsHeaders map length stage stop block next eq =>
    exact (received_enter _ _).trans (received_notify { s with decoder := next } _)
  | @tellsData next bytes => exact received_notify { s with decoder := next } _
  | stops => rfl

/-! ### After the work -/

/-- Coming to an outcome is plain, with what the owner does afterwards. -/
theorem still_finish (s : Session) (outcome : Outcome) : Still s (s.finish outcome) := by
  have hended : Still s ({ s with after := [], task := .ended outcome }.record .ended) :=
    Still.record (t := { s with after := [], task := .ended outcome }) (Still.refl s).frame _ rfl
  exact hended.trans (lull_finish s outcome).still

/-- Winding up tells the last call, if there is one, and closes the state. The rest of the move is
plain. -/
theorem still_of_concluding {ending : Ending} (htask : s.task = .concluding ending) :
    Still (s.notifyEnd (outcomeOf s.stopRequested s.state ending)).shutDown s.step := by
  rw [step_concluding htask, stepConclusion_eq]
  split
  · exact Still.record (t := { (s.notifyEnd _).shutDown with task := .closing _ })
      (Still.refl _).frame .closing rfl
  · exact still_finish _ _

/-- After that, all moves are plain. -/
theorem still_of_over (h : s.task.isOver = true ∨ s.task = .stuck) : Still s s.step := by
  cases htask : s.task with
  | closing outcome =>
    rcases step_closing htask with ⟨result, rest, -, hstep⟩ | hlull | ⟨-, hstep⟩
    · have hclosed : Still s ({ s.putCloses rest with peer := none }.record (.closed result)) :=
        Still.record (t := { s.putCloses rest with peer := none }) (Still.refl s).frame _ rfl
      rw [hstep]
      exact hclosed.trans (still_finish _ _)
    · exact hlull.still
    · rw [hstep]
      exact (Still.refl s).frame
  | ended outcome =>
    rw [step_of_halted (by simp only [isHalted, htask])]
    exact .refl s
  | stuck =>
    rw [step_of_halted (by simp only [isHalted, htask])]
    exact .refl s
  | _ =>
    rw [htask] at h
    rcases h with hover | hstuck
    · cases hover
    · cases hstuck

/-- A move after the work: nothing is read, and nothing but last calls is made. -/
structure Leaves (s t : Session) : Prop where
  connection : t.connection = s.connection
  decoder : t.decoder = s.decoder
  received : t.received = s.received
  notices : ∃ calls, t.notices = s.notices ++ calls ∧ ∀ notice ∈ calls, notice.isTerminal = true

/-- A plain move is one of a session that leaves. -/
theorem Still.leaves (h : Still s t) : Leaves s t where
  connection := h.connection
  decoder := h.decoder
  received := h.received
  notices := ⟨[], by rw [h.notices, List.append_nil], fun _ hmem => by cases hmem⟩

/-- Winding up makes the last call, if there is one. -/
theorem notices_of_concluding {ending : Ending} (htask : s.task = .concluding ending) :
    s.step.notices
      = s.notices ++ (outcomeOf s.stopRequested s.state ending).lastCalls := by
  rw [(still_of_concluding htask).notices, shutDown, notices_enter]
  exact notices_notifyEnd s _

/-- Winding up reads nothing and makes the last call at most. -/
theorem leaves_of_concluding {ending : Ending} (htask : s.task = .concluding ending) :
    Leaves s s.step := by
  have hstill := still_of_concluding htask
  have hnotices := notices_of_concluding htask
  generalize outcomeOf s.stopRequested s.state ending = outcome at hstill hnotices
  -- The last calls change neither the connection nor the decoder, whatever the owner does in them.
  have hcalled : (s.notifyEnd outcome).connection = s.connection ∧
      (s.notifyEnd outcome).decoder = s.decoder := by
    cases outcome with
    | shutdown => exact ⟨rfl, rfl⟩
    | eof =>
      have hkept := (lull_notify s .eof).kept
      exact ⟨hkept.connection, hkept.decoder⟩
    | failed error =>
      have hkept := (lull_notify s (.error error)).kept
      exact ⟨hkept.connection, hkept.decoder⟩
  have hlast : ∀ notice ∈ outcome.lastCalls, notice.isTerminal = true := by
    intro notice hmem
    cases outcome with
    | shutdown => cases hmem
    | _ =>
      rw [List.mem_singleton.1 hmem]
      rfl
  exact {
    connection := hstill.connection.trans hcalled.1
    decoder := hstill.decoder.trans hcalled.2
    received := hstill.received.trans ((received_enter _ _).trans (received_notifyEnd s outcome))
    notices := ⟨_, hnotices, hlast⟩ }

/-- Every move of a session that has stopped working is of this kind. -/
theorem leaves_of_stopped (h : s.task.isWorking = false) : Leaves s s.step := by
  cases htask : s.task with
  | attempting operation =>
    rw [htask] at h
    cases h
  | decoding =>
    rw [htask] at h
    cases h
  | concluding ending => exact leaves_of_concluding htask
  | closing outcome => exact (still_of_over (.inl (by rw [htask]; rfl))).leaves
  | ended outcome => exact (still_of_over (.inl (by rw [htask]; rfl))).leaves
  | stuck => exact (still_of_over (.inr htask)).leaves

/-! ### What belongs together at a place -/

/-- What belongs together at a place of the work. -/
structure Stands (s : Session) (origin : Connection) (place : Place) : Prop where
  connection : s.connection = origin
  state : s.state = place.state s.decoder.stage
  /-- Before the answer nothing was read. -/
  fresh : place.isEarly = true → s.decoder = {} ∧ s.received = []
  /-- Only a session that decodes may have something to report. -/
  hungry : place ≠ .decoding → s.decoder.Hungry s.limits

/-- All belongs together at the place of the session, if it has one. -/
def IsInPlace (s : Session) (origin : Connection) : Prop :=
  ∀ place, s.task.place? = some place → s.Stands origin place

/-- A session is in place if all belongs together at the place of its task. -/
theorem isInPlace_of_eq (h : s.Stands origin place) (task : s.task.place? = some place) :
    s.IsInPlace origin := by
  intro other hother
  cases task.symm.trans hother
  exact h

/-- A session whose work is done has no place to be at. -/
theorem isInPlace_conclude (s : Session) (ending : Ending) : (s.conclude ending).IsInPlace origin :=
  fun _ hplace => by cases hplace

/-- A session at a place is not closed. -/
theorem Stands.isOpen (h : s.Stands origin place) : s.state.isClosed = false :=
  h.state ▸ place.isClosed_state _

/-- A move that leads nowhere leaves all of it as it is. -/
theorem Stands.still (h : s.Stands origin place) (k : Still s t) : t.Stands origin place where
  connection := k.connection.trans h.connection
  state := by rw [k.state, k.decoder, h.state]
  fresh early := by
    rw [k.decoder, k.received]
    exact h.fresh early
  hungry hne := by
    rw [limits, k.decoder, k.connection]
    exact h.hungry hne

/-- The session may begin with any operation of the place. -/
theorem Stands.attempt (h : s.Stands origin place) {operation : Operation}
    (task : (Task.attempting operation).place? = some place) :
    (s.attempt operation).IsInPlace origin := by
  unfold Session.attempt
  split
  · exact isInPlace_conclude s _
  · refine isInPlace_of_eq ⟨h.connection, h.state, ?_, h.hungry⟩ task
    rw [received_record_of_silent _ rfl]
    exact h.fresh

/-- Before the answer a session gets from one place to the next by entering its state. -/
theorem Stands.enter (h : s.Stands origin place) (early : place.isEarly = true)
    (k : Still s u) (next : Place) {state : State} (hstate : state = next.state s.decoder.stage) :
    (u.enter state).Stands origin next where
  connection := (h.still k).connection
  state := by
    rw [state_enter (h.still k).isOpen, hstate]
    show _ = next.state u.decoder.stage
    rw [k.decoder]
  fresh _ := by
    rw [received_enter]
    exact (h.still k).fresh early
  hungry _ := by
    refine (h.still k).hungry ?_
    rintro rfl
    cases early

/-- A session that decodes stands at its place if its state is that of its decoder. -/
theorem isInPlace_decoding (connection : s.connection = origin)
    (state : s.state = s.decoder.stage.state) (task : s.task = .decoding) :
    s.IsInPlace origin := by
  have hstands : s.Stands origin .decoding :=
    ⟨connection, state, (fun early => by cases early), fun hne => absurd rfl hne⟩
  exact isInPlace_of_eq hstands (by rw [task]; rfl)

/-- A session that rests is in place if it was before. -/
theorem Rests.isInPlace (h : Rests s t) (hplace : s.IsInPlace origin) : t.IsInPlace origin := by
  intro place htask
  rcases h.place with hsame | hstopped
  · exact (hplace place (hsame ▸ htask)).still h.toStill
  · rw [hstopped.place?] at htask
    cases htask

/-- A session that gets to another place is in place there. -/
theorem Leads.isInPlace (h : Leads s t) (hplace : s.IsInPlace origin) : t.IsInPlace origin := by
  cases h with
  | rests hrests => exact hrests.isInPlace hplace
  | found hstill htask =>
    have hstands := hplace .lookup (by rw [htask]; rfl)
    exact (hstands.enter rfl hstill (.attempt _ _ _) rfl).attempt rfl
  | next hstill htask =>
    have hstands := hplace _ (by rw [htask]; rfl)
    exact (hstands.enter rfl hstill (.attempt _ _ _) rfl).attempt rfl
  | connected hstill htask =>
    have hstands := hplace _ (by rw [htask]; rfl)
    exact (hstands.enter rfl hstill .request rfl).attempt rfl
  | @asked u hstill htask =>
    -- Nothing was read, so the answer begins with its status line.
    have hstands := hplace .request (by rw [htask]; rfl)
    have hentered : (u.enter .readingStatus).Stands origin .decoding :=
      hstands.enter rfl hstill .decoding (by rw [(hstands.fresh rfl).1]; rfl)
    exact isInPlace_decoding hentered.connection hentered.state rfl
  | received bytes hstill htask =>
    have hstands := (hplace .waiting (by rw [htask]; rfl)).still hstill
    exact isInPlace_decoding hstands.connection hstands.state rfl

/-- A session that has decoded is in place. -/
theorem Decodes.isInPlace (h : Decodes s t) (hplace : s.IsInPlace origin)
    (htask : s.task = .decoding) : t.IsInPlace origin := by
  have hstands := hplace .decoding (by rw [htask]; rfl)
  have hopen := hstands.isOpen
  cases h with
  | @waits next stage buffer hungry =>
    have hwaits : ({ s with decoder := next } : Session).Stands origin .waiting :=
      ⟨hstands.connection, hstands.state.trans stage.symm, (fun early => by cases early),
        fun _ => hungry⟩
    exact hwaits.attempt rfl
  | proceeds active stage =>
    exact isInPlace_decoding hstands.connection (hstands.state.trans stage.symm) htask
  | accepts =>
    exact isInPlace_decoding hstands.connection (state_enter hopen _) htask
  | @tellsHeaders map length stage stop block next eq =>
    have hkept := (lull_notify { s with decoder := next } (.headers map)).kept
    refine isInPlace_decoding (hkept.connection.trans hstands.connection) ?_
      (hkept.task.trans htask)
    rw [state_enter (by rw [hkept.state]; exact hopen)]
    exact congrArg (fun decoder : Decoder => decoder.stage.state) hkept.decoder.symm
  | @tellsData next bytes active stage =>
    have hkept := (lull_notify { s with decoder := next } (.data bytes)).kept
    refine isInPlace_decoding (hkept.connection.trans hstands.connection) ?_
      (hkept.task.trans htask)
    rw [hkept.state, hkept.decoder]
    exact hstands.state.trans stage.symm
  | stops next => exact isInPlace_conclude _ _

/-- No move makes the decoder miss anything. -/
theorem sound_step (h : s.decoder.Sound) : s.step.decoder.Sound :=
  decoder_step (fun _ bytes h => Decoder.sound_push h bytes)
    (fun limits _ h => Decoder.sound_advance limits h) h

/-- Every move leaves the session in place. -/
theorem isInPlace_step (hsound : s.decoder.Sound) (h : s.IsInPlace origin) :
    s.step.IsInPlace origin := by
  cases htask : s.task with
  | attempting operation => exact (leads_of_attempting htask).isInPlace h
  | decoding => exact (decodes_of_decoding htask hsound).isInPlace h htask
  | _ =>
    -- Work that has stopped does not begin again.
    intro place hplace
    have hstopped : s.step.task.isWorking = false := isWorking_step (by rw [htask]; rfl)
    exact absurd hstopped (by rw [Task.isWorking_of_place hplace]; decide)

/-- A session starts with the lookup. Before that nothing happens but what the owner does. -/
theorem exists_start (connection : Connection) (plan : Plan) :
    ∃ u, Still (blank connection plan) u ∧ u.lookup.essence = plan.lookup.essence ∧
      start connection plan = ((u.record .started).enter .resolving).attempt .resolve := by
  have hactions := lull_actAll (blank connection plan) plan.before
  have hheld : Still (blank connection plan)
      { (blank connection plan).actAll plan.before with
        held := { ((blank connection plan).actAll plan.before).held with
          status := plan.access.showsState } } :=
    hactions.still.trans (.of_eq rfl rfl rfl rfl)
  exact ⟨_, hheld, hactions.kept.lookup, start_eq connection plan⟩

/-- At the start nothing was read or told. -/
theorem takes_start (connection : Connection) (plan : Plan) :
    Takes (blank connection plan) (start connection plan) [] := by
  obtain ⟨u, hstill, -, hstart⟩ := exists_start connection plan
  rw [hstart]
  exact ((hstill.record .started rfl).takes.enter _).attempt _

/-- A session starts in place. -/
theorem isInPlace_start (connection : Connection) (plan : Plan) :
    (start connection plan).IsInPlace connection := by
  obtain ⟨u, hheld, -, hstart⟩ := exists_start connection plan
  have hstill := hheld.record .started rfl
  have hstands : ((u.record .started).enter .resolving).Stands connection .lookup := by
    refine ⟨hstill.connection, ?_, fun _ => ⟨hstill.decoder, ?_⟩, fun _ => ?_⟩
    · rw [state_enter (by rw [hstill.state]; rfl)]
      rfl
    · rw [received_enter, hstill.received]
      rfl
    · show (u.record .started).decoder.Hungry _
      rw [hstill.decoder]
      exact Decoder.hungry_empty _
  rw [hstart]
  exact hstands.attempt rfl

/-- At any time the decoder has missed nothing, and all belongs together at the place where the
session is. -/
theorem isInPlace_runFor (connection : Connection) (plan : Plan) (moves : Nat) :
    ((start connection plan).runFor moves).decoder.Sound ∧
      ((start connection plan).runFor moves).IsInPlace connection := by
  refine keeps_runFor (P := fun s => s.decoder.Sound ∧ s.IsInPlace connection)
    (fun s h => ⟨sound_step h.1, isInPlace_step h.1 h.2⟩) moves
    ⟨?_, isInPlace_start connection plan⟩
  have hempty : (blank connection plan).decoder.Sound := Bytes.searched_zero _ _
  rw [(takes_start connection plan).decoder]
  exact Decoder.sound_push hempty []

end Session

end NtripClient
