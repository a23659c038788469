import NtripClient.Proofs.Session.Owner
import NtripClient.Proofs.Session.Shutdown
import NtripClient.Proofs.Session.Timeless

/-!
# `NtripClient.Proofs.Session.Downlink`: messages to the server leave the answer alone

A message ends a wait for bytes: the read is given up, the message is written and flushed, and
another read begins. `tellsAlike_mute` says that this does the answer no harm, wherever in the
answer it happens and however long it takes. If no write fails and nothing stops the session, its
owner gets the same calls as in a session in which nothing is sent, and it comes to the same.

The two sessions do the same things at different instants and with different pauses between them,
so they are not compared move by move. `Matches` says that they have got equally far with the
answer, and `Matches.meets` that either one of them makes a move that does not lead further, such
as writing a message or waiting, or both make the same one. The work that is left falls with every
move, so in the end both have halted (`Matches.run`).
-/

set_option autoImplicit false

namespace NtripClient

/-- Everything but requests for a shutdown. -/
def Action.letsRun : Action → Bool
  | .shutdown => false
  | _ => true

/-- Everything but sending data. -/
def Action.keepsSilent : Action → Bool
  | .send _ => false
  | _ => true

/-- The same plan, with an owner who never sends data. -/
def Plan.mute (plan : Plan) : Plan :=
  plan.restrict Action.keepsSilent

namespace Session

variable {s t : Session}

/-! ### Sessions that nothing stops -/

/-- Each write of a message and the flush behind it go on until they are complete: none of them
fails, and none lasts for ever. -/
def MessagesPass (s : Session) : Prop :=
  ∀ moves, (s.runFor moves).task.isUplink = true → (s.runFor moves).step.task.isWorking = true

/-- Nothing but the server stops the session: there is no shutdown request and no idle limit, and
all messages are written. -/
structure Unstopped (s : Session) : Prop where
  calm : ∀ moves, (s.runFor moves).stopRequested = false
  unlimited : ∀ moves, (s.runFor moves).task.isWorking = true →
    (s.runFor moves).watchdog.timeout = none
  passes : s.MessagesPass

/-- Nothing else stops the session after one more move either. -/
theorem Unstopped.step (h : s.Unstopped) : s.step.Unstopped where
  calm moves := by
    rw [← runFor_succ]
    exact h.calm (moves + 1)
  unlimited moves := by
    rw [← runFor_succ]
    exact h.unlimited (moves + 1)
  passes moves := by
    rw [← runFor_succ]
    exact h.passes (moves + 1)

/-- What a session makes of the next cue of a script: it uses a result, or it waits, perhaps for
ever. -/
inductive Uses {α : Type} (script : Script α) (final : α) (use : α → Script α → Session)
    (s : Session) : Prop where
  | result {value : α} {rest : Script α} (gives : script.Gives final value rest)
      (hstep : s.step = use value rest)
  | on (h : Lull s s.step)
  | forever {u : Session} {rest : Script α} (h : Lull s u) (never : script = .never :: rest)
      (hstep : s.step = { u with task := .stuck })

/-- Nothing ends the wait of such a session before its time. -/
theorem Unstopped.uses (h : s.Unstopped) (hworks : s.task.isWorking = true) {α : Type}
    {script : Script α} {final : α} {use : α → Script α → Session}
    (hstep : (∃ value rest, script.Gives final value rest ∧ s.step = use value rest) ∨
      Pause script s s.step) : Uses script final use s := by
  rcases hstep with ⟨value, rest, hgives, hstep⟩ | hpause
  · exact .result hgives hstep
  · generalize hnext : s.step = next at hpause
    cases hpause with
    | on hlull => exact .on (hnext ▸ hlull)
    | stuck hlull hnever => exact .forever hlull hnever hnext
    | cancelled _ hstop =>
      have hcalm := h.step.calm 0
      rw [hnext] at hcalm
      exact absurd (hstop.symm.trans hcalm) (by simp)
    | expired hlull hlimit =>
      exact absurd (hlull.kept.timeout.trans (h.unlimited 0 hworks)) hlimit

/-! ### Moves that do not lead further -/

/-- While a message is written, only the task and what the stream has in store for writes
change. -/
theorem matches_of_writing {task : Task} {peer : Option Peer}
    (htask : s.task.downlink = .attempting .read) (hnext : task.downlink = .attempting .read)
    (hanswer : peer.map Peer.answer = s.peer.map Peer.answer) :
    Matches s { s with task, peer } := by
  have hlate : s.task.isEarly = false := by
    rw [← Task.isEarly_downlink, htask]
    rfl
  exact { Matches.refl s with
    answer := hanswer
    request := fun hearly => absurd (hlate.symm.trans hearly) (by simp)
    task := hnext.trans htask.symm }

/-- What is recorded may be neither a call nor an arrival. -/
theorem matches_record {event : Event} (hsilent : event.notice? = none)
    (hnothing : event.arrival = []) : Matches s (s.record event) :=
  { Matches.refl s with
    notices := notices_record_of_silent s hsilent
    received := received_record_of_silent s hnothing }

/-- Settling is nothing to the answer. -/
theorem matches_settle : Matches s s.settle :=
  { Matches.refl s with
    notices := notices_settle s
    received := received_settle s }

/-- Taking a message off the queue. -/
theorem matches_take (hcalm : s.stopRequested = false) (htask : s.task = .attempting .read)
    (uplink : Uplink) (message : Bytes) :
    Matches s (({ s with uplink } : Session).settle.attempt (.write .uplink message)) := by
  have htaken : Matches s { s with uplink } := { Matches.refl s with }
  have hsettled := htaken.trans matches_settle
  have htask' : ({ s with uplink } : Session).settle.task.downlink = .attempting .read := by
    show s.task.downlink = _
    rw [htask]
    rfl
  rw [attempt_of_calm (show ({ s with uplink } : Session).settle.stopRequested = false from hcalm)]
  exact hsettled.trans ((matches_of_writing htask' rfl rfl).trans (matches_record rfl rfl))

/-- What the stream answers does not depend on writes. -/
theorem matches_putWrites (htask : s.task.downlink = .attempting .read)
    (rest : Script (Except IoError Nat)) : Matches s (s.putWrites rest) := by
  refine matches_of_writing htask htask ?_
  rw [Option.map_map]
  rfl

/-- What the stream answers does not depend on flushes. -/
theorem matches_putFlushes (htask : s.task.downlink = .attempting .read)
    (rest : Script (Except IoError Unit)) : Matches s (s.putFlushes rest) := by
  refine matches_of_writing htask htask ?_
  rw [Option.map_map]
  rfl

/-- A write of a message that does not fail is complete or goes on. -/
theorem matches_written (htask : s.task.downlink = .attempting .read) {bytes : Bytes}
    {result : Except IoError Nat}
    (hworks : (s.written .uplink bytes result).task.isWorking = true) :
    Matches s (s.written .uplink bytes result) := by
  cases result with
  | error cause =>
    simp only [written] at hworks ⊢
    split at hworks
    · rw [if_pos ‹_›]
      exact .refl s
    · cases hworks
  | ok limit =>
    simp only [written] at hworks ⊢
    split at hworks
    · cases hworks
    · rw [if_neg ‹_›]
      have hwrote : Matches s (s.record (.wrote (bytes.take limit))) := matches_record rfl rfl
      exact hwrote.trans (matches_of_writing htask rfl rfl)

/-- After the flush of a message the session goes on reading. -/
theorem matches_flushed (hcalm : s.stopRequested = false)
    (htask : s.task.downlink = .attempting .read) {result : Except IoError Unit}
    (hworks : (s.flushed .uplink result).task.isWorking = true) :
    Matches s (s.flushed .uplink result) := by
  cases result with
  | error cause => cases hworks
  | ok done =>
    have hdone : Matches s (s.record .flushed).settle :=
      (matches_record rfl rfl).trans matches_settle
    show Matches s ((s.record .flushed).settle.attempt .read)
    rw [attempt_of_calm (show (s.record .flushed).settle.stopRequested = false from hcalm)]
    exact hdone.trans ((matches_of_writing (s := (s.record .flushed).settle) htask rfl rfl).trans
      (matches_record rfl rfl))

/-- Writing a message does not lead further with the answer. -/
theorem Unstopped.writing (h : s.Unstopped) (hup : s.task.isUplink = true) :
    Matches s s.step := by
  -- A session that is not stopped keeps working, which rules out a write that hangs for ever.
  have hgoes : s.step.task.isWorking = true := h.passes 0 hup
  have htask := Task.downlink_of_isUplink hup
  obtain ⟨operation, hoperation, -⟩ := Task.exists_of_isUplink hup
  have hworks : s.task.isWorking = true := by
    rw [hoperation]
    rfl
  rw [hoperation] at hup
  cases operation with
  | write purpose bytes =>
    cases purpose with
    | request => cases hup
    | uplink =>
      by_cases hnil : bytes = []
      · subst hnil
        rw [step_write_nil hoperation]
        exact matches_of_writing htask rfl rfl
      · cases h.uses hworks (step_write hnil hoperation) with
        | result _ hstep =>
          rw [hstep] at hgoes ⊢
          exact (matches_putWrites htask _).trans (matches_written (s := s.putWrites _) htask hgoes)
        | on hlull => exact matches_lull hlull
        | forever _ _ hstep =>
          rw [hstep] at hgoes
          cases hgoes
  | flush purpose =>
    cases purpose with
    | request => cases hup
    | uplink =>
      cases h.uses hworks (step_flush hoperation) with
      | result _ hstep =>
        rw [hstep] at hgoes ⊢
        exact (matches_putFlushes htask _).trans
          (matches_flushed (s := s.putFlushes _) (h.calm 0) htask hgoes)
      | on hlull => exact matches_lull hlull
      | forever _ _ hstep =>
        rw [hstep] at hgoes
        cases hgoes
  | resolve => cases hup
  | connect => cases hup
  | read => cases hup

/-! ### Moves of two sessions -/

/-- One of the sessions makes a move that does not lead further, or both make the same one. -/
inductive Meets (s t : Session) : Prop where
  | first (h : Matches s s.step)
  | second (h : Matches t t.step)
  | both (h : Matches s.step t.step)

/-- Two sessions that go by scripts with the same essence use the same result, if the results are
compared by what `change` leaves of them. -/
theorem meets_of_uses {α : Type} (change : α → α) {script script' : Script α} {final : α}
    {use use' : α → Script α → Session} (h : Matches s t) (hs : Uses script final use s)
    (ht : Uses script' final use' t)
    (hscript : Script.essence (script'.restrict (fun _ => false) change)
      = Script.essence (script.restrict (fun _ => false) change))
    (hresult : ∀ {value value' : α} {rest rest' : Script α}, change value' = change value →
      Script.essence (rest'.restrict (fun _ => false) change)
        = Script.essence (rest.restrict (fun _ => false) change) →
      Matches (use value rest) (use' value' rest')) : Meets s t := by
  have hnever : ∀ {other rest : Script α}, other = .never :: rest →
      other.restrict (fun _ => false) change
        = .never :: rest.restrict (fun _ => false) change := by
    rintro other rest rfl
    rfl
  -- Either side may lull alone; once both have left their pauses, the scripts agree on the rest.
  cases hs with
  | on hlull => exact .first (matches_lull hlull)
  | result gives hstep =>
    cases ht with
    | on hlull' => exact .second (matches_lull hlull')
    | result gives' hstep' =>
      obtain ⟨hvalue, hrest⟩ := (gives.restrict change).unique (gives'.restrict change) hscript
      refine .both ?_
      rw [hstep, hstep']
      exact hresult hvalue hrest
    | forever _ never' => exact ((gives.restrict change).not_never (hnever never') hscript).elim
  | forever hlull never hstep =>
    cases ht with
    | on hlull' => exact .second (matches_lull hlull')
    | result gives' =>
      exact ((gives'.restrict change).not_never (hnever never) hscript.symm).elim
    | forever hlull' _ hstep' =>
      refine .both ?_
      rw [hstep, hstep']
      exact (h.lulls hlull hlull').setTask fun hearly => by cases hearly

/-- The same for results that are used as they are. -/
theorem meets_of_essence {α : Type} {script script' : Script α} {final : α}
    {use use' : α → Script α → Session} (h : Matches s t) (hs : Uses script final use s)
    (ht : Uses script' final use' t) (hscript : script'.essence = script.essence)
    (hresult : ∀ value {rest rest' : Script α}, rest'.essence = rest.essence →
      Matches (use value rest) (use' value rest')) : Meets s t := by
  refine meets_of_uses id h hs ht ?_ ?_
  · rw [Script.essence_restrict, Script.essence_restrict, hscript]
  · intro value value' rest rest' hvalue hrest
    rw [Script.essence_restrict, Script.essence_restrict] at hrest
    cases hvalue
    exact hresult value hrest

namespace Matches

/-- Both streams close with the same result, at any pace. -/
theorem meets_closing (h : Matches s t) {outcome : Outcome} (htask : s.task = .closing outcome)
    (htask' : t.task = .closing outcome) : Meets s t := by
  have hcases : ∀ {u : Session}, u.task = .closing outcome →
      Uses u.closes (.ok ()) (fun result rest =>
        ({ u.putCloses rest with peer := none }.record (.closed result)).finish outcome) u := by
    intro u hclosing
    rcases step_closing hclosing with
      ⟨result, rest, hgives, hstep⟩ | hlull | ⟨⟨rest, hnever⟩, hstep⟩
    · exact .result hgives hstep
    · exact .on hlull
    · exact .forever (.refl u) hnever hstep
  refine meets_of_essence h (hcases htask) (hcases htask') h.closes ?_
  intro result rest rest' hrest
  exact (h.putCloses hrest).closed result outcome

section
variable (h : Matches s t) (hs : s.Unstopped) (ht : t.Unstopped)
include h hs ht

/-- Both lookups come to the same result, at any pace. -/
theorem meets_resolve (htask : s.task = .attempting .resolve)
    (htask' : t.task = .attempting .resolve) : Meets s t := by
  have hearly : s.task.isEarly = true := by
    rw [htask]
    rfl
  refine meets_of_essence h (hs.uses (by rw [htask]; rfl) (step_resolve htask))
    (ht.uses (by rw [htask']; rfl) (step_resolve htask')) h.lookup ?_
  intro result rest rest' hrest
  exact (h.putLookup hrest).resolved (hs.calm 0) (ht.calm 0) hearly result

/-- Both attempts come to the same result, at any pace. -/
theorem meets_connect {candidate : Nat} {endpoint : Endpoint} {others : Candidates}
    (htask : s.task = .attempting (.connect candidate endpoint others))
    (htask' : t.task = .attempting (.connect candidate endpoint others)) : Meets s t := by
  have hearly : s.task.isEarly = true := by
    rw [htask]
    rfl
  -- What is being made of the attempts decides, up to pauses inside the streams they bring.
  have hscript : attemptEssence (t.attempts.headD []) = attemptEssence (s.attempts.headD []) := by
    have hhead : ∀ attempts : List (Script (Except IoError Peer)),
        attemptEssence (attempts.headD []) = (attempts.map attemptEssence).headD [] := by
      intro attempts
      cases attempts <;> rfl
    rw [hhead, hhead, h.attempts]
  refine meets_of_uses (Except.map Peer.essence) h
    (hs.uses (by rw [htask]; rfl) (step_connect htask))
    (ht.uses (by rw [htask']; rfl) (step_connect htask')) hscript ?_
  intro result result' rest rest' hresult hrest
  exact (h.putAttempt hrest).connected (hs.calm 0) (ht.calm 0) hearly candidate others hresult

/-- Both requests are written in the same pieces, at any pace. -/
theorem meets_write {bytes : Bytes} (htask : s.task = .attempting (.write .request bytes))
    (htask' : t.task = .attempting (.write .request bytes)) : Meets s t := by
  have hearly : s.task.isEarly = true := by
    rw [htask]
    rfl
  by_cases hnil : bytes = []
  · subst hnil
    refine .both ?_
    rw [step_write_nil htask, step_write_nil htask']
    exact h.setTask fun _ => hearly
  · refine meets_of_essence h (hs.uses (by rw [htask]; rfl) (step_write hnil htask))
      (ht.uses (by rw [htask']; rfl) (step_write hnil htask')) (h.writes hearly) ?_
    intro result rest rest' hrest
    exact (h.putWrites hrest).written hearly .request bytes result

/-- Both requests are flushed with the same result, at any pace. -/
theorem meets_flush (htask : s.task = .attempting (.flush .request))
    (htask' : t.task = .attempting (.flush .request)) : Meets s t := by
  have hearly : s.task.isEarly = true := by
    rw [htask]
    rfl
  refine meets_of_essence h (hs.uses (by rw [htask]; rfl) (step_flush htask))
    (ht.uses (by rw [htask']; rfl) (step_flush htask')) (h.flushes hearly) ?_
  intro result rest rest' hrest
  exact (h.putFlushes hrest).flushed result

/-- A message does not change what the next read gets, since a read is given up only while there
is nothing to read. -/
theorem meets_read (htask : s.task = .attempting .read) (htask' : t.task = .attempting .read) :
    Meets s t := by
  by_cases harrived : s.arrived = []
  · have harrived' : t.arrived = [] := h.arrived.trans harrived
    -- Before bytes have arrived a session takes a message of its owner, or uses its script.
    have hcases : ∀ {u : Session}, u.Unstopped → u.task = .attempting .read → u.arrived = [] →
        Matches u u.step ∨
          Uses u.reads (.ok []) (fun result rest => (u.putReads rest).readable result) u := by
      intro u hu hread hempty
      have hworks : u.task.isWorking = true := by
        rw [hread]
        rfl
      rcases step_read hread hempty with hresult | ⟨message, uplink, hcalm, -, -, hstep⟩ | hpause
      · exact .inr (hu.uses hworks (.inl hresult))
      · rw [hstep]
        exact .inl (matches_take hcalm hread uplink message)
      · exact .inr (hu.uses hworks (.inr hpause))
    rcases hcases hs htask harrived with hwrites | huses
    · exact .first hwrites
    · rcases hcases ht htask' harrived' with hwrites' | huses'
      · exact .second hwrites'
      · refine meets_of_essence h huses huses' h.reads ?_
        intro result rest rest' hrest
        exact (h.putReads hrest).readable result
  · have harrived' : t.arrived ≠ [] := by
      rw [h.arrived]
      exact harrived
    refine .both ?_
    rw [step_receive htask harrived, step_receive htask' harrived']
    exact h.receive

/-- Either one of the sessions makes a move that does not lead further, or both make the same. -/
theorem meets (hgoes : s.isHalted = false) : Meets s t := by
  -- The session that writes for the owner moves alone; otherwise both are at the same task.
  cases hup : s.task.isUplink with
  | true => exact .first (hs.writing hup)
  | false =>
    cases hup' : t.task.isUplink with
    | true => exact .second (ht.writing hup')
    | false =>
      have htask' := h.task_eq hup hup'
      cases htask : s.task with
      | attempting operation =>
        rw [htask] at htask' hup
        cases operation with
        | resolve => exact h.meets_resolve hs ht htask htask'
        | connect candidate endpoint others => exact h.meets_connect hs ht htask htask'
        | write purpose bytes =>
          cases purpose with
          | request => exact h.meets_write hs ht htask htask'
          | uplink => cases hup
        | flush purpose =>
          cases purpose with
          | request => exact h.meets_flush hs ht htask htask'
          | uplink => cases hup
        | read => exact h.meets_read hs ht htask htask'
      | decoding =>
        refine .both ?_
        rw [step_decoding htask, step_decoding (htask'.trans htask)]
        exact h.stepDecoder (hs.calm 0) (ht.calm 0)
      | concluding ending =>
        refine .both ?_
        rw [step_concluding htask, step_concluding (htask'.trans htask)]
        exact h.stepConclusion (hs.calm 0) (ht.calm 0) ending
      | closing outcome => exact h.meets_closing htask (htask'.trans htask)
      | ended outcome => simp [Session.isHalted, htask] at hgoes
      | stuck => simp [Session.isHalted, htask] at hgoes

end

/-- Sessions that have got equally far with the answer end alike. -/
theorem run (h : Matches s t) (hs : s.Unstopped) (ht : t.Unstopped) :
    Matches s.run t.run := by
  -- On the moves that are left of the first session, and then on those of the second one.
  induction s using move_induction generalizing t with
  | hhalted s hhalted =>
    rw [run_of_halted hhalted, run_of_halted (h.isHalted.trans hhalted)]
    exact h
  | hmove s hgoes ih =>
    induction t using move_induction with
    | hhalted t hhalted => exact absurd (h.isHalted.symm.trans hhalted) (by rw [hgoes]; simp)
    | hmove t hgoes' ih' =>
      cases h.meets hs ht hgoes with
      | first hstep =>
        rw [← run_step s]
        exact ih (hstep.symm.trans h) hs.step ht
      | second hstep =>
        rw [← run_step t]
        exact ih' (h.trans hstep) ht.step
      | both hstep =>
        rw [← run_step s, ← run_step t]
        exact ih hstep hs.step ht.step

end Matches

/-! ### From the start -/

/-- Fewer actions of the owner do not change what the server is going to answer. -/
theorem matches_blank (connection : Connection) (plan : Plan) (allows : Action → Bool) :
    Matches (blank connection plan) (blank connection (plan.restrict allows)) :=
  { Matches.refl (blank connection plan) with
    lookup := Script.essence_restrict plan.lookup
    attempts := by
      show (plan.attempts.map (restrictAttempt allows)).map attemptEssence = _
      rw [List.map_map]
      exact List.map_congr_left fun script _ => attemptEssence_restrictAttempt script }

/-- Both sessions start the same way: only the owner does less in one of them. -/
theorem matches_start (connection : Connection) (plan : Plan) (allows : Action → Bool)
    (hs : (start connection plan).Unstopped)
    (ht : (start connection (plan.restrict allows)).Unstopped) :
    Matches (start connection plan) (start connection (plan.restrict allows)) := by
  -- Beginning with the lookup does not change whether a shutdown was requested.
  have hattempt : ∀ {u : Session} {operation : Operation},
      (u.attempt operation).stopRequested = false → u.stopRequested = false := by
    intro u operation hcalm
    unfold attempt at hcalm
    split at hcalm
    · exact hcalm
    · exact hcalm
  have hcalm := hs.calm 0
  have hcalm' := ht.calm 0
  rw [runFor, start_eq] at hcalm hcalm'
  have hbefore := (matches_blank connection plan allows).lulls
    (lull_actAll _ plan.before) (lull_actAll _ (plan.restrict allows).before)
  have hshown : Matches
      { (blank connection plan).actAll plan.before with
        held := { ((blank connection plan).actAll plan.before).held with
          status := plan.access.showsState } }
      { (blank connection (plan.restrict allows)).actAll (plan.restrict allows).before with
        held := { ((blank connection (plan.restrict allows)).actAll
            (plan.restrict allows).before).held with
          status := (plan.restrict allows).access.showsState } } := { hbefore with }
  have hearly : ((blank connection plan).actAll plan.before).task.isEarly = true := by
    rw [(lull_actAll _ plan.before).kept.task]
    rfl
  rw [start_eq, start_eq]
  exact ((hshown.record .started).enter .resolving).attempt (hattempt hcalm) (hattempt hcalm')
    fun _ => hearly

/-! ### Owners who request no shutdown, and owners who send nothing -/

/-- Without the action there is no shutdown request. -/
theorem Abides.calm (h : s.Abides Action.letsRun) (hobeys : s.Obeys) :
    s.stopRequested = false := by
  rw [hobeys.requested]
  refine List.any_eq_false.2 ?_
  intro entry hmem hrequest
  cases hevent : entry.event with
  | acted action reply =>
    have hallows := h.log entry hmem action reply hevent
    rw [hevent] at hrequest
    cases action with
    | shutdown => cases hallows
    | _ => cases hrequest
  | _ =>
    rw [hevent] at hrequest
    cases hrequest

/-- Without the action nothing was sent. -/
theorem Abides.sent (h : s.Abides Action.keepsSilent) : s.sent = [] := by
  have hlog := h.log
  unfold Session.sent
  generalize s.history = history at hlog
  induction history with
  | nil => rfl
  | cons entry earlier ih =>
    have hearlier := ih fun other hmem => hlog other (List.mem_cons_of_mem _ hmem)
    have hentry : entry.event.sent = [] := by
      cases hevent : entry.event with
      | acted action reply =>
        have hallows := hlog entry (List.mem_cons_self ..) action reply hevent
        cases action with
        | send message => cases hallows
        | _ => rfl
      | _ => rfl
    rw [History.sent, hearlier, hentry]
    rfl

/-- A session to which no message was sent writes none. -/
theorem Sending.not_isUplink {origin : Connection} (h : s.Sending origin) (hsent : s.sent = []) :
    s.task.isUplink = false := by
  -- The request and a message would be two blocks, and only one was to be written.
  have hblocks : ∀ {before after : List Bytes} {block : Bytes}, before ≠ [] →
      origin.request :: s.sent ≠ before ++ block :: after := by
    intro before after block hbefore heq
    rw [hsent] at heq
    have hlength := congrArg List.length heq
    simp only [List.length_cons, List.length_nil, List.length_append] at hlength
    have := List.length_pos_iff.2 hbefore
    omega
  have hposition := h.position
  cases hup : s.task.isUplink with
  | false => rfl
  | true =>
    unfold Task.isUplink at hup
    split at hup
    · rename_i bytes htask
      rw [htask] at hposition
      obtain ⟨⟨hfirst, -⟩, hwaiting⟩ := hposition.part
      exact absurd hwaiting (hblocks hfirst)
    · rename_i htask
      rw [htask] at hposition
      obtain ⟨⟨hfirst, -⟩, hwaiting⟩ := hposition.whole
      exact absurd hwaiting (hblocks hfirst)
    · cases hup

/-- Where no message is sent, none can get stuck. -/
theorem messagesPass_of_silent (connection : Connection) {plan : Plan}
    (hsilent : plan.restrict Action.keepsSilent = plan) :
    (start connection plan).MessagesPass := by
  intro moves hup
  have hsent := (abides_runFor connection hsilent moves).sent
  rw [(sending_runFor connection plan moves).not_isUplink hsent] at hup
  cases hup

/-- Without a limit and without requests, only messages could stop a session. -/
theorem unstopped_start {connection : Connection} {plan : Plan}
    (hlimit : connection.config.idleTimeout = none)
    (hruns : plan.restrict Action.letsRun = plan)
    (hpass : (start connection plan).MessagesPass) : (start connection plan).Unstopped where
  calm moves := (abides_runFor connection hruns moves).calm (obeys_runFor connection plan moves)
  unlimited moves hworks := by
    rw [((course_runFor connection plan moves).reading hworks).isOf.2, hlimit]
    rfl
  passes := hpass

/-! ### With and without messages -/

/-- Two sessions get the same from the server. -/
structure TellsAlike (s t : Session) : Prop where
  /-- The owner gets the same headers, the same data in all, and the same last call. -/
  calls : Notice.merge s.run.notices = Notice.merge t.run.notices
  /-- The data is even cut in the same way, since each read takes what one cue brings. -/
  pieces : s.run.notices = t.run.notices
  /-- The same bytes were read: none is lost, and none comes twice. -/
  bytes : s.run.received = t.run.received
  /-- The sessions come to the same. -/
  outcome : s.run.outcome? = t.run.outcome?

/-- **Messages to the server leave the answer alone.** Take a session without an idle limit and
without a shutdown, whose owner may send messages at any time and in any number. If all writes
and flushes of messages succeed, the session tells the same as one whose owner sends nothing. -/
theorem tellsAlike_mute {connection : Connection} {plan : Plan}
    (hlimit : connection.config.idleTimeout = none)
    (hruns : plan.restrict Action.letsRun = plan)
    (hpass : (start connection plan).MessagesPass) :
    TellsAlike (start connection plan) (start connection plan.mute) := by
  have hmute : plan.mute.restrict Action.letsRun = plan.mute := by
    rw [Plan.mute, Plan.restrict_comm, hruns]
  have hsilent := messagesPass_of_silent connection (plan.restrict_again Action.keepsSilent)
  have hs := unstopped_start hlimit hruns hpass
  have ht := unstopped_start hlimit hmute hsilent
  have hrun := (matches_start connection plan Action.keepsSilent hs ht).run hs ht
  exact ⟨congrArg Notice.merge hrun.notices.symm, hrun.notices.symm, hrun.received.symm,
    hrun.outcome?.symm⟩

/-- Messages are sent while the session waits inside a size line, inside the data of a chunk, and
inside the line end of the last size line. The stream takes them in pieces and with pauses. -/
def interjecting : Plan where
  lookup := [.result (.ok [{ address := .v4 ⟨10, 0, 0, 1⟩, port := 0 }])]
  attempts := [[.result (.ok
    { reads := [
        .result (.ok (Utf8.encode "HTTP/1.1 200 OK\r\nTransfer-Encoding: chunked\r\n\r\n5\r")),
        .delay 10, .result (.ok (Utf8.encode "\nHE")), .delay 10,
        .result (.ok (Utf8.encode "LLO\r\n0\r")), .delay 10,
        .result (.ok (Utf8.encode "\n\r\n"))]
      writes := [.result (.ok 1000), .delay 3, .result (.ok 1), .delay 8, .result (.ok 2)]
      flushes := [.result (.ok ()), .delay 2] })]]
  timed := [(5, .send [1, 2, 3]), (6, .send [4]), (25, .send [5, 6]), (33, .send [7])]

/-- All messages are written in the end, and the owner gets the five bytes of the chunk. -/
theorem tellsAlike_mute_interjecting :
    Connection.sample.config.idleTimeout = none ∧
    interjecting.restrict Action.letsRun = interjecting ∧
    (start .sample interjecting).MessagesPass ∧
    TellsAlike (start .sample interjecting) (start .sample interjecting.mute) ∧
    History.accepted (start .sample interjecting).run.history
      = Connection.sample.request ++ [1, 2, 3, 4, 5, 6, 7] := by
  have hpass : (start .sample interjecting).MessagesPass :=
    always_of_isHalted (P := fun s => s.task.isUplink = true → s.step.task.isWorking = true)
      (n := 80) (by decide +kernel) (by decide +kernel)
  exact ⟨rfl, rfl, hpass, tellsAlike_mute rfl rfl hpass, by decide +kernel⟩

end Session

end NtripClient
