import NtripClient.Proofs.Session.Exchange
import NtripClient.Proofs.Session.Selective
import NtripClient.Proofs.Session.Sending

/-!
# `NtripClient.Proofs.Session.Timeless`: the same answer at another pace

Two sessions that get the same answer may get it at different instants, and one of them may write
messages while the other one waits. `Matches` is the relation between such sessions: what is left
of their scripts differs in pauses and in actions of the owner only, they hold the same bytes, and
they have made the same calls. It says nothing of the clock, of the idle limit, of messages and
handles, and, once the request is written, of what the stream has in store for further writes.

Time alone does not leave the relation (`matches_lull`), and a result that both sessions get does
not either: there is one lemma for each thing that a session does with a result.
-/

set_option autoImplicit false

namespace NtripClient

/-! ### What scripts say, not when -/

section
variable {α : Type}

/-- The result of a script is in its essence. -/
theorem Script.Gives.essence {script rest : Script α} {final value : α}
    (h : script.Gives final value rest) : script.essence.Gives final value rest.essence := by
  rcases h with ⟨rfl, rfl, rfl⟩ | rfl
  · exact .inl ⟨rfl, rfl, rfl⟩
  · exact .inr rfl

/-- Scripts with the same essence give the same result. -/
theorem Script.Gives.unique {script other rest rest' : Script α} {final value value' : α}
    (h : script.Gives final value rest) (k : other.Gives final value' rest')
    (hessence : other.essence = script.essence) :
    value' = value ∧ rest'.essence = rest.essence := by
  have hresult := h.essence
  have hresult' := k.essence
  rw [hessence] at hresult'
  rcases hresult with ⟨hnil, rfl, hrest⟩ | hcons <;>
    rcases hresult' with ⟨hnil', rfl, hrest'⟩ | hcons'
  · exact ⟨rfl, hrest'.trans hrest.symm⟩
  · exact absurd (hnil.symm.trans hcons') (by simp)
  · exact absurd (hnil'.symm.trans hcons) (by simp)
  · obtain ⟨hvalue, hrest⟩ := List.cons.inj (hcons'.symm.trans hcons)
    exact ⟨Cue.result.inj hvalue, hrest⟩

/-- A script that waits for ever gives no result, and none with the same essence does. -/
theorem Script.Gives.not_never {script other rest rest' : Script α} {final value : α}
    (h : script.Gives final value rest) (hnever : other = .never :: rest')
    (hessence : other.essence = script.essence) : False := by
  have hresult := h.essence
  rw [← hessence, hnever] at hresult
  rcases hresult with ⟨hnil, -⟩ | hcons
  · cases hnil
  · cases hcons

end

/-- An attempt to connect without its pauses, and without those of the stream that it brings. -/
def attemptEssence (script : Script (Except IoError Peer)) : Script (Except IoError Peer) :=
  Script.essence (script.restrict (fun _ => false) (Except.map Peer.essence))

/-- Attempts that differ in pauses only have the same essence. -/
theorem attemptEssence_congr {script other : Script (Except IoError Peer)}
    (h : other.essence = script.essence) : attemptEssence other = attemptEssence script := by
  rw [attemptEssence, attemptEssence, Script.essence_restrict_change,
    Script.essence_restrict_change, h]

/-- Leaving out actions of the owner, in the attempt and in its stream, leaves the essence alone. -/
theorem attemptEssence_restrictAttempt {allows : Action → Bool}
    (script : Script (Except IoError Peer)) :
    attemptEssence (restrictAttempt allows script) = attemptEssence script := by
  have hpeer : Except.map (ε := IoError) Peer.essence ∘ Except.map (Peer.restrict allows)
      = Except.map Peer.essence := by
    funext result
    cases result with
    | error cause => rfl
    | ok peer => exact congrArg Except.ok (Peer.essence_restrict peer)
  rw [attemptEssence, restrictAttempt, Script.restrict_restrict, hpeer]
  rfl

/-! ### Writing messages while waiting -/

namespace Task

/-- A message for the server is being written. -/
def isUplink : Task → Bool
  | .attempting (.write .uplink _) => true
  | .attempting (.flush .uplink) => true
  | _ => false

/-- What a session is at as far as the answer goes: while a message is written, it waits. -/
def downlink (task : Task) : Task :=
  if task.isUplink then .attempting .read else task

variable {task : Task}

/-- While a message is written, the session waits as far as the answer goes. -/
theorem downlink_of_isUplink (h : task.isUplink = true) : task.downlink = .attempting .read :=
  if_pos h

/-- A session that writes no message is at what it is at. -/
theorem downlink_of_not (h : task.isUplink = false) : task.downlink = task :=
  if_neg (by rw [h]; exact Bool.false_ne_true)

/-- A message is written in a guarded operation, once the request is written. -/
theorem exists_of_isUplink (h : task.isUplink = true) :
    ∃ operation, task = .attempting operation ∧ (Task.attempting operation).isEarly = false := by
  unfold isUplink at h
  split at h
  · exact ⟨_, rfl, rfl⟩
  · exact ⟨_, rfl, rfl⟩
  · cases h

/-- A message is written behind the request, where a session that waits is as well. -/
theorem isEarly_downlink (task : Task) : task.downlink.isEarly = task.isEarly := by
  cases h : task.isUplink with
  | true =>
    obtain ⟨operation, rfl, hlate⟩ := exists_of_isUplink h
    rw [downlink_of_isUplink h, hlate]
    rfl
  | false => rw [downlink_of_not h]

end Task

namespace Session

variable {s t u : Session}

/-- The sessions get the same answer, and have got equally far with it. -/
structure Matches (s t : Session) : Prop where
  connection : t.connection = s.connection
  state : t.state = s.state
  arrived : t.arrived = s.arrived
  decoder : t.decoder = s.decoder
  lookup : t.lookup.essence = s.lookup.essence
  attempts : t.attempts.map attemptEssence = s.attempts.map attemptEssence
  /-- The stream will bring the same bytes, and will close in the same way. -/
  answer : t.peer.map Peer.answer = s.peer.map Peer.answer
  /-- Until the request is written, the stream will also treat writes in the same way. -/
  request : s.task.isEarly = true → t.peer.map Peer.essence = s.peer.map Peer.essence
  notices : t.notices = s.notices
  received : t.received = s.received
  task : t.task.downlink = s.task.downlink

/-- A session gets the same answer as itself. -/
theorem Matches.refl (s : Session) : Matches s s :=
  ⟨rfl, rfl, rfl, rfl, rfl, rfl, rfl, fun _ => rfl, rfl, rfl, rfl⟩

/-- Neither session has got to the answer, or both have. -/
theorem Matches.isEarly (h : Matches s t) : t.task.isEarly = s.task.isEarly := by
  rw [← Task.isEarly_downlink, h.task, Task.isEarly_downlink]

/-- It does not matter which of the sessions is looked at first. -/
theorem Matches.symm (h : Matches s t) : Matches t s where
  connection := h.connection.symm
  state := h.state.symm
  arrived := h.arrived.symm
  decoder := h.decoder.symm
  lookup := h.lookup.symm
  attempts := h.attempts.symm
  answer := h.answer.symm
  request hearly := (h.request (h.isEarly ▸ hearly)).symm
  notices := h.notices.symm
  received := h.received.symm
  task := h.task.symm

/-- Sessions that match a third one match each other. -/
theorem Matches.trans (h : Matches s t) (k : Matches t u) : Matches s u where
  connection := k.connection.trans h.connection
  state := k.state.trans h.state
  arrived := k.arrived.trans h.arrived
  decoder := k.decoder.trans h.decoder
  lookup := k.lookup.trans h.lookup
  attempts := k.attempts.trans h.attempts
  answer := k.answer.trans h.answer
  request hearly := (k.request (h.isEarly.trans hearly)).trans (h.request hearly)
  notices := k.notices.trans h.notices
  received := k.received.trans h.received
  task := k.task.trans h.task

/-- Time passes and the owner acts: that is nothing to the answer. -/
theorem matches_lull (h : Lull s t) : Matches s t where
  connection := h.kept.connection
  state := h.kept.state
  arrived := h.kept.arrived
  decoder := h.kept.decoder
  lookup := h.kept.lookup
  attempts := by
    -- An attempt without its pauses is all that its essence looks at.
    have hessence : ∀ script : Script (Except IoError Peer),
        attemptEssence script = attemptEssence script.essence :=
      fun script => attemptEssence_congr (Script.essence_essence script).symm
    have hmap : ∀ scripts : List (Script (Except IoError Peer)),
        scripts.map attemptEssence = (scripts.map Script.essence).map attemptEssence := by
      intro scripts
      rw [List.map_map]
      exact List.map_congr_left fun script _ => hessence script
    rw [hmap t.attempts, hmap s.attempts, h.kept.attempts]
  answer := h.kept.answer
  request _ := h.kept.peer
  notices := h.notices
  received := h.received
  task := congrArg Task.downlink h.kept.task

/-- A script of two streams has the same essence if it shows in what is the same of them. -/
theorem essence_of_peer {α β : Type} {script : Peer → Script α} {first second : Option Peer}
    (view : Peer → β) (shown : β → Script α)
    (hshown : ∀ peer, (script peer).essence = shown (view peer))
    (hsame : second.map view = first.map view) :
    Script.essence ((second.map script).getD []) = Script.essence ((first.map script).getD []) := by
  have hview : ∀ stream : Option Peer,
      Script.essence ((stream.map script).getD []) = ((stream.map view).map shown).getD [] := by
    intro stream
    cases stream with
    | none => rfl
    | some peer => exact hshown peer
  rw [hview, hview, hsame]

namespace Matches

section
variable (h : Matches s t)
include h

/-- Time may pass in both sessions. -/
theorem lulls {s' t' : Session} (hs : Lull s s') (ht : Lull t t') : Matches s' t' :=
  (matches_lull hs).symm.trans (h.trans (matches_lull ht))

/-! ### What is left of the scripts of the stream -/

/-- What the stream will bring is the same, at another pace. -/
theorem reads : t.reads.essence = s.reads.essence :=
  essence_of_peer Peer.answer Prod.fst (fun _ => rfl) h.answer

/-- The stream will close in the same way. -/
theorem closes : t.closes.essence = s.closes.essence :=
  essence_of_peer Peer.answer Prod.snd (fun _ => rfl) h.answer

/-- Until the request is written, the stream will take the same writes. -/
theorem writes (hearly : s.task.isEarly = true) : t.writes.essence = s.writes.essence :=
  essence_of_peer Peer.essence Peer.writes (fun _ => rfl) (h.request hearly)

/-- Until the request is written, the stream will flush in the same way. -/
theorem flushes (hearly : s.task.isEarly = true) : t.flushes.essence = s.flushes.essence :=
  essence_of_peer Peer.essence Peer.flushes (fun _ => rfl) (h.request hearly)

/-! ### Putting back scripts -/

/-- Both sessions go on with the same lookup. -/
theorem putLookup {rest rest' : Script (Except IoError Candidates)}
    (hrest : rest'.essence = rest.essence) : Matches (s.putLookup rest) (t.putLookup rest') :=
  { h with lookup := hrest }

/-- Both sessions go on with the same attempt to connect. -/
theorem putAttempt {rest rest' : Script (Except IoError Peer)}
    (hrest : attemptEssence rest' = attemptEssence rest) :
    Matches (s.putAttempt rest) (t.putAttempt rest') := by
  refine { h with attempts := ?_ }
  show attemptEssence rest' :: t.attempts.tail.map attemptEssence
    = attemptEssence rest :: s.attempts.tail.map attemptEssence
  rw [hrest, List.map_tail, List.map_tail, h.attempts]

/-- The streams are changed alike. -/
theorem mapPeer {change change' : Peer → Peer}
    (hanswer : ∀ peer other : Peer, other.answer = peer.answer →
      (change' other).answer = (change peer).answer)
    (hessence : ∀ peer other : Peer, other.essence = peer.essence →
      (change' other).essence = (change peer).essence) :
    Matches { s with peer := s.peer.map change } { t with peer := t.peer.map change' } := by
  have hmap : ∀ {β : Type} (view : Peer → β) (first second : Option Peer),
      (∀ peer other : Peer, view other = view peer →
        view (change' other) = view (change peer)) →
      second.map view = first.map view →
      (second.map change').map view = (first.map change).map view := by
    intro β view first second hview hsame
    cases first with
    | none =>
      cases second with
      | none => rfl
      | some other => cases hsame
    | some peer =>
      cases second with
      | none => cases hsame
      | some other => exact congrArg some (hview peer other (Option.some.inj hsame))
  exact { h with
    answer := hmap Peer.answer _ _ hanswer h.answer
    request := fun hearly => hmap Peer.essence _ _ hessence (h.request hearly) }

/-- Both sessions go on with the same reads. -/
theorem putReads {rest rest' : Script (Except IoError Bytes)}
    (hrest : rest'.essence = rest.essence) : Matches (s.putReads rest) (t.putReads rest') := by
  refine h.mapPeer ?_ ?_
  · intro peer other hanswer
    have hcloses : other.closes.essence = peer.closes.essence := congrArg Prod.snd hanswer
    exact Prod.ext hrest hcloses
  · intro peer other hessence
    show { other.essence with reads := rest'.essence } = { peer.essence with reads := rest.essence }
    rw [hessence, hrest]

/-- Both sessions go on with the same writes. -/
theorem putWrites {rest rest' : Script (Except IoError Nat)}
    (hrest : rest'.essence = rest.essence) : Matches (s.putWrites rest) (t.putWrites rest') := by
  refine h.mapPeer (fun peer other hanswer => hanswer) ?_
  intro peer other hessence
  show { other.essence with writes := rest'.essence } = { peer.essence with writes := rest.essence }
  rw [hessence, hrest]

/-- Both sessions go on with the same flushes. -/
theorem putFlushes {rest rest' : Script (Except IoError Unit)}
    (hrest : rest'.essence = rest.essence) :
    Matches (s.putFlushes rest) (t.putFlushes rest') := by
  refine h.mapPeer (fun peer other hanswer => hanswer) ?_
  intro peer other hessence
  show { other.essence with flushes := rest'.essence }
    = { peer.essence with flushes := rest.essence }
  rw [hessence, hrest]

/-- Both sessions go on with the same way to close. -/
theorem putCloses {rest rest' : Script (Except IoError Unit)}
    (hrest : rest'.essence = rest.essence) : Matches (s.putCloses rest) (t.putCloses rest') := by
  refine h.mapPeer ?_ ?_
  · intro peer other hanswer
    have hreads : other.reads.essence = peer.reads.essence := congrArg Prod.fst hanswer
    exact Prod.ext hreads hrest
  · intro peer other hessence
    show { other.essence with closes := rest'.essence }
      = { peer.essence with closes := rest.essence }
    rw [hessence, hrest]

/-! ### The parts of a move -/

/-- Both sessions record the same event. -/
theorem record (event : Event) : Matches (s.record event) (t.record event) :=
  { h with
    notices := by rw [notices_record, notices_record, h.notices]
    received := by rw [received_record, received_record, h.received] }

/-- Both sessions turn to the same task, which is not an earlier one. -/
theorem setTask {task : Task} (hearly : task.isEarly = true → s.task.isEarly = true) :
    Matches { s with task } { t with task } :=
  { h with
    request := fun hnext => h.request (hearly hnext)
    task := rfl }

/-- Settling leaves the relation alone: it moves the idle limit only. -/
theorem settle : Matches s.settle t.settle := by
  have hset : Matches { s with watchdog := s.watchdog.reset s.now }
      { t with watchdog := t.watchdog.reset t.now } := { h with }
  exact hset.record .settled

/-- Both sessions enter the same state. -/
theorem enter (state : State) : Matches (s.enter state) (t.enter state) := by
  have hmoved : Matches { s with state := s.state.moveTo state }
      { t with state := t.state.moveTo state } :=
    { h with state := congrArg (fun old : State => old.moveTo state) h.state }
  exact hmoved.record _

/-- Both sessions give their work the same end. -/
theorem conclude (ending : Ending) : Matches (s.conclude ending) (t.conclude ending) :=
  h.setTask fun hearly => by cases hearly

/-- Both sessions fail with the same error. -/
theorem fail (error : Error) : Matches (s.fail error) (t.fail error) :=
  h.conclude _

/-- Both owners are told the same, whatever they do in return. -/
theorem notify (notice : Notice) : Matches (s.notify notice) (t.notify notice) := by
  have hset : Matches { s with reactions := (s.reactions.take notice).2 }
      { t with reactions := (t.reactions.take notice).2 } := { h with }
  exact (hset.record (.notified notice)).lulls (lull_notify s notice) (lull_notify t notice)

/-- Both owners get the same last call. -/
theorem notifyEnd (outcome : Outcome) : Matches (s.notifyEnd outcome) (t.notifyEnd outcome) := by
  cases outcome with
  | shutdown => exact h
  | eof => exact h.notify .eof
  | failed error => exact h.notify (.error error)

/-- Both sessions come to the same outcome. -/
theorem finish (outcome : Outcome) : Matches (s.finish outcome) (t.finish outcome) := by
  have hover : Matches { s with after := [], task := .ended outcome }
      { t with after := [], task := .ended outcome } :=
    { h with
      request := fun hearly => by cases hearly
      task := rfl }
  exact (hover.record .ended).lulls (lull_finish s outcome) (lull_finish t outcome)

/-- Nobody has asked the sessions to stop, so they begin with the same thing. -/
theorem attempt (hs : s.stopRequested = false) (ht : t.stopRequested = false)
    {operation : Operation}
    (hearly : (Task.attempting operation).isEarly = true → s.task.isEarly = true) :
    Matches (s.attempt operation) (t.attempt operation) := by
  rw [attempt_of_calm hs, attempt_of_calm ht]
  exact (h.setTask hearly).record _

/-! ### Results -/

/-- Both sessions go on to the next address. -/
theorem connectNext (hs : s.stopRequested = false) (ht : t.stopRequested = false)
    (hearly : s.task.isEarly = true) (candidate : Nat) (last : IoError) (candidates : Candidates) :
    Matches (s.connectNext candidate last candidates)
      (t.connectNext candidate last candidates) := by
  cases candidates with
  | nil => exact h.fail _
  | cons endpoint others => exact (h.enter _).attempt hs ht fun _ => hearly

/-- Both sessions use the same answer of the resolver. -/
theorem resolved (hs : s.stopRequested = false) (ht : t.stopRequested = false)
    (hearly : s.task.isEarly = true) (result : Except IoError Candidates) :
    Matches (s.resolved result) (t.resolved result) := by
  have hconfig : t.settle.connection.config = s.settle.connection.config :=
    congrArg Connection.config h.connection
  unfold Session.resolved
  simp only [hconfig]
  split
  · exact h.settle.fail _
  · exact h.settle.fail _
  · exact h.settle.connectNext hs ht hearly _ _ _

/-- Both sessions use the same attempt, up to the pauses of the stream that it brings. -/
theorem connected (hs : s.stopRequested = false) (ht : t.stopRequested = false)
    (hearly : s.task.isEarly = true) (candidate : Nat) (others : Candidates)
    {result result' : Except IoError Peer}
    (hresult : Except.map Peer.essence result' = Except.map Peer.essence result) :
    Matches (s.connected candidate others result) (t.connected candidate others result') := by
  have htail : Matches { s with attempts := s.attempts.tail }
      { t with attempts := t.attempts.tail } :=
    { h with attempts := by rw [List.map_tail, List.map_tail, h.attempts] }
  have hdone := htail.settle
  cases result with
  | error cause =>
    cases result' with
    | error cause' =>
      cases hresult
      exact hdone.connectNext hs ht hearly _ _ _
    | ok peer' => cases hresult
  | ok peer =>
    cases result' with
    | error cause' => cases hresult
    | ok peer' =>
      -- The two streams differ in their pauses only, so they will take the request alike.
      have hpeer : peer'.essence = peer.essence := Except.ok.inj hresult
      have hopen : Matches
          { ({ s with attempts := s.attempts.tail } : Session).settle with peer := some peer }
          { ({ t with attempts := t.attempts.tail } : Session).settle with peer := some peer' } :=
        { hdone with
          answer := congrArg (fun shown : Peer => some (shown.reads, shown.closes)) hpeer
          request := fun _ => congrArg some hpeer }
      have hrequest : t.connection.request = s.connection.request :=
        congrArg Connection.request h.connection
      show Matches _ ((({ ({ t with attempts := t.attempts.tail } : Session).settle with
        peer := some peer' } : Session).enter .writing).attempt
          (.write .request t.connection.request))
      rw [hrequest]
      exact (hopen.enter .writing).attempt hs ht fun _ => hearly

/-- Both sessions use the same write, while the request is written. -/
theorem written (hearly : s.task.isEarly = true) (purpose : Purpose) (bytes : Bytes)
    (result : Except IoError Nat) :
    Matches (s.written purpose bytes result) (t.written purpose bytes result) := by
  cases result with
  | error cause =>
    simp only [Session.written]
    split
    · exact h
    · exact h.settle.fail _
  | ok limit =>
    have hwrote := h.record (.wrote (bytes.take limit))
    simp only [Session.written]
    split
    · exact hwrote.settle.fail _
    · exact hwrote.setTask fun _ => hearly

/-- Both sessions use the same flush of the request. -/
theorem flushed (result : Except IoError Unit) :
    Matches (s.flushed .request result) (t.flushed .request result) := by
  cases result with
  | error cause => exact h.settle.fail _
  | ok done =>
    exact ((h.record .flushed).settle.enter .readingStatus).setTask fun hearly => by cases hearly

/-- Both sessions use the same read. -/
theorem readable (result : Except IoError Bytes) :
    Matches (s.readable result) (t.readable result) := by
  cases result with
  | error cause => exact h.settle.fail _
  | ok bytes =>
    simp only [Session.readable]
    split
    · exact h.settle.conclude _
    · exact { h with arrived := rfl }

/-- Both sessions hand the same bytes on to the decoder. -/
theorem receive : Matches s.receive t.receive := by
  have hlimit : t.connection.config.readLimit = s.connection.config.readLimit := by
    rw [h.connection]
  have hbytes : t.arrived.take t.connection.config.readLimit
      = s.arrived.take s.connection.config.readLimit := by rw [h.arrived, hlimit]
  have hdrop : Matches { s with arrived := s.arrived.drop s.connection.config.readLimit }
      { t with arrived := t.arrived.drop t.connection.config.readLimit } :=
    { h with arrived := by rw [h.arrived, hlimit] }
  have hread := hdrop.settle.record (.received (s.arrived.take s.connection.config.readLimit))
  unfold Session.receive
  simp only [hbytes]
  exact { hread with
    decoder := congrArg (fun decoder : Decoder => decoder.push _) h.decoder
    request := fun hearly => by cases hearly
    task := rfl }

/-- Both decoders signal the same. -/
theorem stepDecoder (hs : s.stopRequested = false) (ht : t.stopRequested = false) :
    Matches s.stepDecoder t.stepDecoder := by
  have hadvance : t.decoder.advance t.limits = s.decoder.advance s.limits := by
    rw [limits, limits, h.connection, h.decoder]
  have hgoes : ¬ s.stopRequested = true := by rw [hs]; exact Bool.false_ne_true
  have hgoes' : ¬ t.stopRequested = true := by rw [ht]; exact Bool.false_ne_true
  unfold Session.stepDecoder
  rw [hadvance]
  -- The decoders are equal, so both sessions act on one signal.
  cases s.decoder.advance s.limits with
  | mk signal decoder =>
    have hset : Matches { s with decoder } { t with decoder } := { h with decoder := rfl }
    cases signal with
    | more => exact hset.attempt hs ht fun hearly => by cases hearly
    | proceed => exact hset
    | accepted status =>
      simp only
      split
      · exact hset.enter _
      · exact hset.enter _
    | headers map =>
      simp only
      rw [if_neg hgoes, if_neg hgoes']
      exact (hset.notify _).enter _
    | data bytes =>
      simp only
      rw [if_neg hgoes, if_neg hgoes']
      exact hset.notify _
    | finished => exact hset.conclude _
    | failed error => exact hset.fail _

/-- Both sessions wind up in the same way. -/
theorem stepConclusion (hs : s.stopRequested = false) (ht : t.stopRequested = false)
    (ending : Ending) : Matches (s.stepConclusion ending) (t.stepConclusion ending) := by
  unfold Session.stepConclusion
  rw [hs, ht, h.state]
  generalize outcomeOf false s.state ending = outcome
  have hend := h.notifyEnd outcome
  have hshut : Matches { s.notifyEnd outcome with uplink := (s.notifyEnd outcome).uplink.close }
      { t.notifyEnd outcome with uplink := (t.notifyEnd outcome).uplink.close } := { hend with }
  have hclosed := hshut.enter .closed
  have hstream : ∀ {first second : Option Peer},
      second.map Peer.answer = first.map Peer.answer → second.isSome = first.isSome := by
    intro first second hanswer
    have hsome := congrArg Option.isSome hanswer
    rwa [Option.isSome_map, Option.isSome_map] at hsome
  simp only [hstream hclosed.answer]
  split
  · exact (hclosed.setTask fun hearly => by cases hearly).record .closing
  · exact hclosed.finish outcome

/-- Both streams are closed, whatever comes of it. -/
theorem closed (result : Except IoError Unit) (outcome : Outcome) :
    Matches (({ s with peer := none }.record (.closed result)).finish outcome)
      (({ t with peer := none }.record (.closed result)).finish outcome) := by
  have hgone : Matches { s with peer := none } { t with peer := none } :=
    { h with answer := rfl, request := fun _ => rfl }
  exact (hgone.record (.closed result)).finish outcome

/-! ### What has come of a session -/

/-- Only one of the sessions may be writing a message, and otherwise they are at the same task. -/
theorem task_eq (hs : s.task.isUplink = false) (ht : t.task.isUplink = false) :
    t.task = s.task := by
  rw [← Task.downlink_of_not hs, ← Task.downlink_of_not ht, h.task]

/-- What is the same for all guarded operations is the same for both sessions. -/
theorem task_congr {β : Type} (view : Task → β)
    (hview : ∀ operation, view (.attempting operation) = view (.attempting .read)) :
    view t.task = view s.task := by
  have hwaits : ∀ task : Task, view task.downlink = view task := by
    intro task
    cases hup : task.isUplink with
    | false => rw [Task.downlink_of_not hup]
    | true =>
      obtain ⟨operation, rfl, -⟩ := Task.exists_of_isUplink hup
      rw [Task.downlink_of_isUplink hup]
      exact (hview operation).symm
  rw [← hwaits, h.task, hwaits]

/-- Both sessions are halted, or neither is. -/
theorem isHalted : t.isHalted = s.isHalted :=
  h.task_congr (fun task => ({ s with task } : Session).isHalted) fun _ => rfl

/-- Both sessions have come to the same outcome, if to any. -/
theorem outcome? : t.outcome? = s.outcome? :=
  h.task_congr (fun task => ({ s with task } : Session).outcome?) fun _ => rfl

end

end Matches

end Session

end NtripClient
