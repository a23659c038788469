import NtripClient.Proofs.Chunk.Decoding
import NtripClient.Proofs.Session.Moves

/-!
# `NtripClient.Proofs.Session.Decoding`: the decoder of a session, move by move

Only two things happen to the decoder of a session: bytes are pushed, and while the session
decodes it advances. `Aside` is the relation for all moves that are not decoding, so that an
invariant of the decoder, the state and the calls is proved once for `Aside` and once for an
advance (`step_of_decoding`).

Two invariants follow. What is missing of a chunk always fits in 64 bits (`inRange_runFor`),
so that counting it down never leaves the range of lengths. And a session gets to a chunked
body only by telling headers that ask for it (`toldChunked_runFor`).
-/

set_option autoImplicit false

namespace NtripClient

namespace Session

variable {s t u : Session}

/-! ### Moves that are not decoding -/

/-- A move that is not decoding may push bytes, end an active state or enter another one, and
add to the calls. -/
structure Aside (s t : Session) : Prop where
  decoder : ∃ bytes, t.decoder = s.decoder.push bytes
  state : t.state = s.state ∨ t.state.isActive = false
  notices : s.notices <+: t.notices

namespace Aside

/-- Where decoder, state and calls stay as they are, nothing was decoded. -/
theorem of_eq (decoder : t.decoder = s.decoder) (state : t.state = s.state)
    (notices : t.notices = s.notices) : Aside s t where
  decoder := ⟨[], by rw [decoder, Decoder.push, List.append_nil]⟩
  state := .inl state
  notices := ⟨[], (List.append_nil _).trans notices.symm⟩

/-- A session that does not move decodes nothing. -/
theorem refl (s : Session) : Aside s s :=
  .of_eq rfl rfl rfl

/-- One move after another that is not decoding. -/
theorem trans (h : Aside s t) (k : Aside t u) : Aside s u where
  decoder := by
    obtain ⟨bytes, hbytes⟩ := h.decoder
    obtain ⟨more, hmore⟩ := k.decoder
    refine ⟨bytes ++ more, ?_⟩
    rw [hmore, hbytes, Decoder.push, Decoder.push, Decoder.push, List.append_assoc]
  state := by
    rcases k.state with hsame | hinactive
    · rw [hsame]
      exact h.state
    · exact .inr hinactive
  notices := h.notices.trans k.notices

/-- The owner and the clock decode nothing. -/
theorem lull (h : Lull s t) : Aside s t :=
  .of_eq h.kept.decoder h.kept.state h.notices

/-- The relation does not speak of the task, of time, of the scripts, or of what the owner has
and sends. -/
theorem frame (h : Aside s t) {task : Task} {watchdog : Watchdog} {reactions : Reactions}
    {after : List Action} {lookup : Script (Except IoError Candidates)}
    {attempts : List (Script (Except IoError Peer))} {peer : Option Peer} {arrived : Bytes}
    {uplink : Uplink} :
    Aside s { t with task, watchdog, reactions, after, lookup, attempts, peer, arrived, uplink } :=
  ⟨h.decoder, h.state, h.notices⟩

/-- What is recorded adds a call at most. -/
theorem record (h : Aside s t) (event : Event) : Aside s (t.record event) :=
  h.trans
    { decoder := (refl t).decoder
      state := .inl rfl
      notices := by
        rw [notices_record]
        exact List.prefix_append _ _ }

/-- Settling decodes nothing. -/
theorem settle (h : Aside s t) : Aside s t.settle :=
  record (t := { t with watchdog := t.watchdog.reset t.now }) h.frame .settled

/-- Stopping the work decodes nothing. -/
theorem conclude (h : Aside s t) (ending : Ending) : Aside s (t.conclude ending) :=
  h.frame

/-- Beginning an operation decodes nothing. -/
theorem attempt (h : Aside s t) (operation : Operation) : Aside s (t.attempt operation) := by
  unfold Session.attempt
  split
  · exact h.conclude _
  · exact record (t := { t with task := .attempting operation }) h.frame _

/-- States of the body are entered by decoding only. -/
theorem enter (h : Aside s t) {state : State} (hinactive : state.isActive = false) :
    Aside s (t.enter state) := by
  refine (h.trans (u := { t with state := t.state.moveTo state }) ?_).record _
  refine ⟨(refl t).decoder, ?_, List.prefix_refl _⟩
  -- A closed state stays, and any other one makes room for the new one.
  show t.state.moveTo state = t.state ∨ (t.state.moveTo state).isActive = false
  unfold State.moveTo
  split
  · exact .inl rfl
  · exact .inr hinactive

/-- Calling the owner adds to the calls. -/
theorem notify (h : Aside s t) (notice : Notice) : Aside s (t.notify notice) :=
  (record (t := { t with reactions := (t.reactions.take notice).2 }) h.frame
    (.notified notice)).trans (lull (lull_notify t notice))

/-- Coming to an outcome decodes nothing. -/
theorem finish (h : Aside s t) (outcome : Outcome) : Aside s (t.finish outcome) :=
  (record (t := { t with after := [], task := .ended outcome }) h.frame
    .ended).trans (lull (lull_finish t outcome))

/-- A pause decodes nothing, whatever it comes to. -/
theorem pause {α : Type} {script : Script α} (h : Pause script s t) : Aside s t := by
  cases h with
  | on hlull => exact lull hlull
  | stuck hlull => exact (lull hlull).frame
  | cancelled hlull => exact (lull hlull).conclude _
  | expired hlull => exact (lull hlull).conclude _

/-- The next attempt decodes nothing. -/
theorem connectNext (h : Aside s t) (candidate : Nat) (last : IoError)
    (candidates : Candidates) : Aside s (t.connectNext candidate last candidates) := by
  cases candidates with
  | nil => exact h.conclude _
  | cons endpoint others => exact (h.enter rfl).attempt _

/-- Nor does the result of the lookup. -/
theorem resolved (h : Aside s t) (result : Except IoError Candidates) :
    Aside s (t.resolved result) := by
  unfold Session.resolved
  split
  · exact h.settle.conclude _
  · exact h.settle.conclude _
  · exact h.settle.connectNext _ _ _

/-- Nor does the result of an attempt. -/
theorem connected (h : Aside s t) (candidate : Nat) (others : Candidates)
    (result : Except IoError Peer) : Aside s (t.connected candidate others result) := by
  have hs : Aside s ({ t with attempts := t.attempts.tail } : Session).settle :=
    settle h.frame
  unfold Session.connected
  cases result with
  | error cause => exact hs.connectNext _ _ _
  | ok peer =>
    refine (enter (t := { ({ t with attempts := t.attempts.tail } : Session).settle with
      peer := some peer }) hs.frame rfl).attempt _

/-- Nor does the result of a write. -/
theorem written (h : Aside s t) (purpose : Purpose) (bytes : Bytes)
    (result : Except IoError Nat) : Aside s (t.written purpose bytes result) := by
  unfold Session.written
  cases result with
  | error cause =>
    simp only
    split
    · exact h
    · exact h.settle.conclude _
  | ok limit =>
    simp only
    split
    · exact (h.record _).settle.conclude _
    · exact (h.record _).frame

/-- A flush decodes nothing, though the first state of the answer may be entered with it. -/
theorem flushed (h : Aside s t) (purpose : Purpose) (result : Except IoError Unit) :
    Aside s (t.flushed purpose result) := by
  unfold Session.flushed
  cases result with
  | error cause => exact h.settle.conclude _
  | ok u =>
    cases purpose with
    | request => exact ((h.record .flushed).settle.enter rfl).frame
    | uplink => exact (h.record .flushed).settle.attempt _

/-- Bytes that arrive are not decoded yet. -/
theorem readable (h : Aside s t) (result : Except IoError Bytes) :
    Aside s (t.readable result) := by
  unfold Session.readable
  cases result with
  | error cause => exact h.settle.conclude _
  | ok bytes =>
    simp only
    split
    · exact h.settle.conclude _
    · exact h.frame

/-- Bytes that are handed on are pushed, and not decoded yet. -/
theorem receive (h : Aside s t) : Aside s t.receive := by
  have hs : Aside s ({ t with
      arrived := t.arrived.drop t.connection.config.readLimit } : Session).settle :=
    settle h.frame
  exact (hs.record (.received (t.arrived.take t.connection.config.readLimit))).trans
    { decoder := ⟨_, rfl⟩
      state := .inl rfl
      notices := List.prefix_refl _ }

/-- Winding up may call the owner and closes the state, but decodes nothing. -/
theorem stepConclusion (s : Session) (ending : Ending) : Aside s (s.stepConclusion ending) := by
  have htold : ∀ outcome, Aside s (s.notifyEnd outcome) := by
    intro outcome
    cases outcome with
    | shutdown => exact refl s
    | eof => exact (refl s).notify .eof
    | failed error => exact (refl s).notify (.error error)
  have hclosed : ∀ outcome, Aside s
      (({ s.notifyEnd outcome with
          uplink := (s.notifyEnd outcome).uplink.close } : Session).enter .closed) :=
    fun outcome => enter (t := { s.notifyEnd outcome with
      uplink := (s.notifyEnd outcome).uplink.close }) (htold outcome).frame rfl
  unfold Session.stepConclusion
  simp only
  split
  · exact record (frame (hclosed _)) .closing
  · exact (hclosed _).finish _

end Aside

/-- Every move is aside of the decoding, unless the session decodes. -/
theorem aside_step (h : s.task ≠ .decoding) : Aside s s.step := by
  -- Over the tasks: the result of the operation, or a pause.
  cases htask : s.task with
  | decoding => exact absurd htask h
  | attempting operation =>
    cases operation with
    | resolve =>
      rcases step_resolve htask with ⟨result, rest, -, hstep⟩ | hpause
      · rw [hstep]
        exact Aside.resolved (t := s.putLookup rest) (Aside.refl s).frame _
      · exact .pause hpause
    | connect candidate endpoint others =>
      rcases step_connect htask with ⟨result, rest, -, hstep⟩ | hpause
      · rw [hstep]
        exact Aside.connected (t := s.putAttempt rest) (Aside.refl s).frame _ _ _
      · exact .pause hpause
    | write purpose bytes =>
      by_cases hne : bytes = []
      · subst hne
        rw [step_write_nil htask]
        exact .of_eq rfl rfl rfl
      · rcases step_write hne htask with ⟨result, rest, -, hstep⟩ | hpause
        · rw [hstep]
          exact Aside.written (t := s.putWrites rest) (Aside.refl s).frame _ _ _
        · exact .pause hpause
    | flush purpose =>
      rcases step_flush htask with ⟨result, rest, -, hstep⟩ | hpause
      · rw [hstep]
        exact Aside.flushed (t := s.putFlushes rest) (Aside.refl s).frame _ _
      · exact .pause hpause
    | read =>
      by_cases harrived : s.arrived = []
      · rcases step_read htask harrived with
          ⟨result, rest, -, hstep⟩ | ⟨message, uplink, -, -, -, hstep⟩ | hpause
        · rw [hstep]
          exact Aside.readable (t := s.putReads rest) (Aside.refl s).frame _
        · rw [hstep]
          exact (Aside.settle (t := { s with uplink }) (Aside.refl s).frame).attempt _
        · exact .pause hpause
      · rw [step_receive htask harrived]
        exact (Aside.refl s).receive
  | concluding ending =>
    rw [step_concluding htask]
    exact .stepConclusion s ending
  | closing outcome =>
    rcases step_closing htask with ⟨result, rest, -, hstep⟩ | hlull | ⟨-, hstep⟩
    · rw [hstep]
      exact (Aside.record (t := { s.putCloses rest with peer := none }) (Aside.refl s).frame
        _).finish outcome
    · exact .lull hlull
    · rw [hstep]
      exact .of_eq rfl rfl rfl
  | ended outcome =>
    rw [step_of_halted (by rw [isHalted, htask])]
    exact .refl s
  | stuck =>
    rw [step_of_halted (by rw [isHalted, htask])]
    exact .refl s

/-! ### Decoding -/

/-- The owner was told headers that ask for a chunked body. -/
def ToldChunked (s : Session) : Prop :=
  ∃ map, .headers map ∈ s.notices ∧ map.isChunked = true

/-- What the owner was told stays told. -/
theorem ToldChunked.mono (h : s.ToldChunked) (hgrown : s.notices <+: t.notices) :
    t.ToldChunked := by
  obtain ⟨map, hmem, hchunked⟩ := h
  exact ⟨map, hgrown.subset hmem, hchunked⟩

/-- What decoding does: the decoder advances, nothing that was told is taken back, and a
chunked body follows only headers that ask for it. -/
structure Advances (s t : Session) : Prop where
  decoder : t.decoder = (s.decoder.advance s.limits).2
  notices : s.notices <+: t.notices
  chunked : t.state = .streaming .chunked →
    s.state = .streaming .chunked ∨ t.ToldChunked

/-- Another state is entered, unless the session was closed. -/
theorem state_enter_cases (s : Session) (state : State) :
    (s.enter state).state = s.state ∨ (s.enter state).state = state := by
  show s.state.moveTo state = s.state ∨ s.state.moveTo state = state
  unfold State.moveTo
  split
  · exact .inl rfl
  · exact .inr rfl

/-- A session that decodes advances its decoder. -/
theorem step_of_decoding (htask : s.task = .decoding) : Advances s s.step := by
  have hstep := step_decoding htask
  unfold stepDecoder at hstep
  -- Over the reports: all but the two that enter a state for the body leave the state alone.
  cases hadvance : s.decoder.advance s.limits with
  | mk signal next =>
    rw [hadvance] at hstep
    have hsame : ∀ {t}, Aside { s with decoder := next } t → t.decoder = next →
        s.step = t → Advances s s.step := by
      intro t haside hdecoder ht
      rw [ht]
      refine ⟨by rw [hadvance, hdecoder], haside.notices, ?_⟩
      intro hstate
      rcases haside.state with hkept | hinactive
      · exact .inl (hkept.symm.trans hstate)
      · rw [hstate] at hinactive
        cases hinactive
    cases signal with
    | more =>
      refine hsame ((Aside.refl _).attempt _) ?_ hstep
      unfold attempt
      split <;> rfl
    | proceed => exact hsame (Aside.refl _) rfl hstep
    | finished => exact hsame ((Aside.refl _).conclude _) rfl hstep
    | failed error => exact hsame ((Aside.refl _).conclude _) rfl hstep
    | data bytes =>
      simp only at hstep
      split at hstep
      · exact hsame ((Aside.refl _).conclude _) rfl hstep
      · exact hsame ((Aside.refl _).notify _) (lull_notify _ _).kept.decoder hstep
    | accepted status =>
      simp only at hstep
      split at hstep
      · -- A body that follows the status line is not chunked.
        rw [hstep]
        refine ⟨by rw [hadvance]; rfl, ?_, ?_⟩
        · rw [notices_enter]
          exact List.prefix_refl _
        · intro hstate
          rcases state_enter_cases { s with decoder := next } (.streaming .plain) with
            hkept | hentered
          · exact .inl (hkept.symm.trans hstate)
          · rw [hentered] at hstate
            cases hstate
      · exact hsame ((Aside.refl _).enter rfl) rfl hstep
    | headers map =>
      simp only at hstep
      split at hstep
      · exact hsame ((Aside.refl _).conclude _) rfl hstep
      · have hkept := (lull_notify { s with decoder := next } (.headers map)).kept
        have hnotices := notices_notify { s with decoder := next } (.headers map)
        rw [hstep]
        refine ⟨by rw [hadvance]; exact hkept.decoder, ?_, ?_⟩
        · rw [notices_enter, hnotices]
          exact List.prefix_append _ _
        · intro hstate
          rcases state_enter_cases (({ s with decoder := next } : Session).notify (.headers map))
            (.streaming (if map.isChunked then .chunked else .plain)) with hbefore | hentered
          · exact .inl (hkept.state.symm.trans (hbefore.symm.trans hstate))
          · refine .inr ⟨map, ?_, ?_⟩
            · rw [notices_enter, hnotices]
              exact List.mem_append_right _ List.mem_cons_self
            · -- The framing that was entered is the one that the headers ask for.
              rw [hentered] at hstate
              cases hchunked : map.isChunked with
              | true => rfl
              | false =>
                rw [hchunked] at hstate
                cases hstate

/-! ### Invariants of the decoder -/

/-- What decoding keeps, and pushing bytes keeps, every move keeps. -/
theorem decoder_step {P : Decoder → Prop} (hpush : ∀ d bytes, P d → P (d.push bytes))
    (hadvance : ∀ limits d, P d → P (Decoder.advance limits d).2) (h : P s.decoder) :
    P s.step.decoder := by
  by_cases htask : s.task = .decoding
  · rw [(step_of_decoding htask).decoder]
    exact hadvance _ _ h
  · obtain ⟨bytes, hbytes⟩ := (aside_step htask).decoder
    rw [hbytes]
    exact hpush _ bytes h

/-- Before the first move nothing was read and nothing told. -/
theorem aside_start (connection : Connection) (plan : Plan) :
    Aside (blank connection plan) (start connection plan) := by
  have hactions : Aside (blank connection plan) ((blank connection plan).actAll plan.before) :=
    .lull (lull_actAll _ _)
  rw [start_eq]
  have hheld : Aside (blank connection plan)
      { (blank connection plan).actAll plan.before with
        held := { ((blank connection plan).actAll plan.before).held with
          status := plan.access.showsState } } :=
    ⟨hactions.decoder, hactions.state, hactions.notices⟩
  exact ((hheld.record .started).enter rfl).attempt .resolve

/-- At any time what is missing of a chunk fits in 64 bits. -/
theorem inRange_runFor (connection : Connection) (plan : Plan) (moves : Nat) :
    ((start connection plan).runFor moves).decoder.InRange := by
  have hpush : ∀ d bytes, Decoder.InRange d → Decoder.InRange (d.push bytes) :=
    fun _ _ h => h
  refine keeps_runFor (P := fun s => s.decoder.InRange) ?_ moves ?_
  · intro s h
    exact decoder_step hpush (fun limits _ => Decoder.inRange_advance limits) h
  · obtain ⟨bytes, hbytes⟩ := (aside_start connection plan).decoder
    rw [hbytes]
    exact Decoder.inRange_of_ne fun missing pos hstage => by cases hstage

/-! ### The way to a chunked body -/

/-- The calls only grow. -/
theorem notices_step (s : Session) : s.notices <+: s.step.notices := by
  by_cases htask : s.task = .decoding
  · exact (step_of_decoding htask).notices
  · exact (aside_step htask).notices

/-- The calls of a run only grow. -/
theorem notices_runFor (s : Session) (moves : Nat) : s.notices <+: (s.runFor moves).notices :=
  keeps_runFor (P := fun t => s.notices <+: t.notices)
    (fun t h => h.trans (notices_step t)) moves (List.prefix_refl _)

/-- At any time the calls are the first ones of the run. -/
theorem notices_runFor_prefix_run (s : Session) (moves : Nat) :
    (s.runFor moves).notices <+: s.run.notices := by
  rw [← run_runFor moves s]
  exact notices_runFor _ _

/-- A session that hands over a chunked body has told headers that ask for it. -/
theorem toldChunked_runFor {connection : Connection} {plan : Plan} {moves : Nat}
    (h : ((start connection plan).runFor moves).state = .streaming .chunked) :
    ((start connection plan).runFor moves).ToldChunked := by
  refine keeps_runFor (P := fun s => s.state = .streaming .chunked → s.ToldChunked) ?_ moves ?_ h
  · intro s ih hstate
    by_cases htask : s.task = .decoding
    · have hadvances := step_of_decoding htask
      rcases hadvances.chunked hstate with hbefore | htold
      · exact (ih hbefore).mono hadvances.notices
      · exact htold
    · have haside := aside_step htask
      rcases haside.state with hkept | hinactive
      · exact (ih (hkept.symm.trans hstate)).mono haside.notices
      · rw [hstate] at hinactive
        cases hinactive
  · intro hstate
    rcases (aside_start connection plan).state with hkept | hinactive
    · cases hkept.symm.trans hstate
    · rw [hstate] at hinactive
      cases hinactive

end Session

end NtripClient
