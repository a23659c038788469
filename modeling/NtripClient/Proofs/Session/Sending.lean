import NtripClient.Proofs.Session.Calls

/-!
# `NtripClient.Proofs.Session.Sending`: what reaches the server, and in which order

The request and the messages of the owner are written one after another. A write may accept a
part of what it is offered, fail, or take its time, and messages may be sent at any moment, by
actions that are scheduled, that react to a call, or that come from a script.
`sends_in_order` is the main statement: at every moment of the log the accepted bytes are the
first ones of the request and the messages sent so far, each of them is flushed before the next
one begins, and a session that waits for bytes of a body has nothing left to write.

`Output` is what the stream has got, read off the log: blocks that end with a flush, and the
bytes behind them. `Position` relates the output, the messages sent and the messages queued for
each task: it says which block is being written, and how much of it is left. A message is in
exactly one place, so none is lost and none is written twice when a wait is given up. Moves that
neither write nor send keep all of this (`Carries`), and an action adds the same messages to
those sent and to the queue (`sending_act`).
-/

set_option autoImplicit false

namespace NtripClient

/-! ### What the log says of writes and messages -/

/-- What a stream has accepted: blocks, each ended by a flush, and the bytes behind them. -/
structure Output where
  /-- The blocks. -/
  flushed : List Bytes := []
  /-- The bytes accepted since the last flush. -/
  pending : Bytes := []
deriving DecidableEq, Repr

/-- What a stream has accepted after one more event. -/
def Output.after (output : Output) : Event → Output
  | .wrote bytes => { output with pending := output.pending ++ bytes }
  | .flushed => { flushed := output.flushed ++ [output.pending] }
  | _ => output

/-- The bytes that a stream accepts in an event. -/
def Event.accepted : Event → Bytes
  | .wrote bytes => bytes
  | _ => []

/-- Nothing happens to the stream. -/
def Event.isQuiet : Event → Bool
  | .wrote _ => false
  | .flushed => false
  | _ => true

namespace History

/-- What the stream has accepted. -/
def output : List Entry → Output
  | [] => {}
  | entry :: earlier => (output earlier).after entry.event

/-- The messages that were sent, oldest first. -/
def sent : List Entry → List Bytes
  | [] => []
  | entry :: earlier => sent earlier ++ entry.event.sent

/-- The bytes that the stream has accepted, in order. -/
def accepted : List Entry → Bytes
  | [] => []
  | entry :: earlier => accepted earlier ++ entry.event.accepted

/-- The output holds the accepted bytes, in order. -/
theorem accepted_eq (history : List Entry) :
    accepted history = (output history).flushed.flatten ++ (output history).pending := by
  induction history with
  | nil => rfl
  | cons entry earlier ih =>
    -- A write adds to the last block, and a flush moves the border behind it.
    rw [accepted, output, ih]
    cases entry.event <;> simp [Event.accepted, Output.after]

/-- The blocks flushed are the request and the first messages, and what was accepted since is
the front of the next one. -/
def InOrder (request : Bytes) (history : List Entry) : Prop :=
  ∃ left, request :: sent history = (output history).flushed ++ left ∧
    (output history).pending <+: left.headD []

/-- An event that keeps the order. Behind the first block it may be a write only while the body
is handed over. -/
structure Fits (request : Bytes) (entry : Entry) (earlier : List Entry) : Prop where
  inOrder : InOrder request (entry :: earlier)
  active : ∀ bytes, entry.event = .wrote bytes → (output earlier).flushed ≠ [] →
    entry.state.isActive = true

/-- At every moment the order was kept. -/
def Orderly (request : Bytes) (history : List Entry) : Prop :=
  InOrder request history ∧
    ∀ entry earlier, entry :: earlier <:+ history → Fits request entry earlier

section
variable {request : Bytes} {entry : Entry} {history : List Entry}

/-- Before anything happens the order is kept, with the request still to be written. -/
theorem orderly_nil (request : Bytes) : Orderly request [] := by
  refine ⟨⟨[request], rfl, List.nil_prefix⟩, ?_⟩
  intro entry earlier hsuffix
  cases List.suffix_nil.1 hsuffix

/-- An event that keeps the order goes behind a log that does. -/
theorem Orderly.cons (h : Orderly request history) (hfits : Fits request entry history) :
    Orderly request (entry :: history) := by
  refine ⟨hfits.inOrder, ?_⟩
  intro other earlier hsuffix
  rcases List.suffix_cons_iff.1 hsuffix with heq | hsuffix
  · cases heq
    exact hfits
  · exact h.2 other earlier hsuffix

/-- At every moment the accepted bytes are the first ones of the request and the messages. -/
theorem InOrder.front_accepted (h : InOrder request history) :
    accepted history <+: request ++ (sent history).flatten := by
  obtain ⟨left, hsplit, hpending⟩ := h
  have hflatten : request ++ (sent history).flatten
      = (output history).flushed.flatten ++ left.flatten := by
    rw [← List.flatten_append, ← hsplit]
    rfl
  rw [accepted_eq, hflatten, List.prefix_append_right_inj]
  -- What was accepted since the last flush is the front of the next block, if there is one.
  cases left with
  | nil => exact hpending
  | cons block left => exact hpending.trans (List.prefix_append _ _)

/-- What is no write and no flush leaves the output as it is. -/
theorem output_of_quiet (h : entry.event.isQuiet = true) :
    output (entry :: history) = output history := by
  rw [output]
  cases hevent : entry.event <;> rw [hevent] at h <;> first | rfl | cases h

/-- A message that is sent comes behind all others. -/
theorem Orderly.quiet (h : Orderly request history) (hquiet : entry.event.isQuiet = true) :
    Orderly request (entry :: history) := by
  refine h.cons ⟨?_, ?_⟩
  · -- The message is one more block that is left.
    obtain ⟨left, hsplit, hpending⟩ := h.1
    refine ⟨left ++ entry.event.sent, ?_, ?_⟩
    · rw [output_of_quiet hquiet, sent, ← List.cons_append, hsplit, List.append_assoc]
    · rw [output_of_quiet hquiet]
      cases left with
      | nil =>
        rw [List.prefix_nil.1 hpending]
        exact List.nil_prefix
      | cons block left => exact hpending
  · intro bytes hwrote
    rw [hwrote] at hquiet
    cases hquiet

end

end History

/-! ### Where the session is in its writing -/

namespace Task

/-- There is no stream yet. -/
def isOpening : Task → Bool
  | .attempting .resolve => true
  | .attempting (.connect _ _ _) => true
  | _ => false

/-- The session is at the answer. -/
def isReading : Task → Bool
  | .attempting .read => true
  | .decoding => true
  | _ => false

end Task

/-- The request is the first block, and messages follow it while the body is handed over. -/
def Purpose.Follows (purpose : Purpose) (before : List Bytes) (isActive : Bool) : Prop :=
  match purpose with
  | .request => before = []
  | .uplink => before ≠ [] ∧ isActive = true

/-- Where the request and each message are: flushed, being written, or in the queue. -/
inductive Position (request : Bytes) (output : Output) (sent queue : List Bytes)
    (isActive : Bool) : Task → Prop where
  /-- Nothing was written. -/
  | opening {task : Task} (isOpening : task.isOpening = true) (fresh : output = {})
      (waiting : sent = queue) : Position request output sent queue isActive task
  /-- A block is being written: a part of it was accepted, and these bytes are left. -/
  | writing {purpose : Purpose} {bytes : Bytes}
      (follows : purpose.Follows output.flushed isActive)
      (waiting : request :: sent = output.flushed ++ (output.pending ++ bytes) :: queue) :
      Position request output sent queue isActive (.attempting (.write purpose bytes))
  /-- A block was written, and is being flushed. -/
  | flushing {purpose : Purpose} (follows : purpose.Follows output.flushed isActive)
      (waiting : request :: sent = output.flushed ++ output.pending :: queue) :
      Position request output sent queue isActive (.attempting (.flush purpose))
  /-- All that was taken from the queue is written and flushed, and so is the request. -/
  | reading {task : Task} (isReading : task.isReading = true) (nothing : output.pending = [])
      (first : output.flushed ≠ []) (waiting : request :: sent = output.flushed ++ queue) :
      Position request output sent queue isActive task
  /-- Nothing will be written any more. -/
  | stopped {task : Task} (idle : task.isWorking = false) :
      Position request output sent queue isActive task

namespace Position

variable {request : Bytes} {output : Output} {sent queue : List Bytes} {isActive : Bool}
  {task : Task} {purpose : Purpose} {bytes : Bytes}

/-- A message that is sent now is queued behind the others. -/
theorem send (h : Position request output sent queue isActive task) (more : List Bytes) :
    Position request output (sent ++ more) (queue ++ more) isActive task := by
  -- The messages in front of the queue stay where they are.
  have hmore : ∀ {front : List Bytes}, request :: sent = front ++ queue →
      request :: (sent ++ more) = front ++ (queue ++ more) := by
    intro front hfront
    rw [← List.cons_append, hfront, List.append_assoc]
  have hblock : ∀ {front : List Bytes} {block : Bytes}, request :: sent = front ++ block :: queue →
      request :: (sent ++ more) = front ++ block :: (queue ++ more) := by
    intro front block hfront
    rw [← List.cons_append, hfront, List.append_assoc, List.cons_append]
  cases h with
  | opening isOpening fresh waiting => exact .opening isOpening fresh (by rw [waiting])
  | writing follows waiting => exact .writing follows (hblock waiting)
  | flushing follows waiting => exact .flushing follows (hblock waiting)
  | reading isReading nothing first waiting =>
    exact .reading isReading nothing first (hmore waiting)
  | stopped idle => exact .stopped idle

/-- While there is no stream, nothing was written, and all messages wait. -/
theorem fresh (h : Position request output sent queue isActive task)
    (hopening : task.isOpening = true) : output = {} ∧ sent = queue := by
  cases h with
  | opening _ fresh waiting => exact ⟨fresh, waiting⟩
  | writing => cases hopening
  | flushing => cases hopening
  | reading isReading =>
    unfold Task.isOpening at hopening
    split at hopening <;> first | cases isReading | cases hopening
  | stopped idle =>
    unfold Task.isOpening at hopening
    split at hopening <;> first | cases idle | cases hopening

/-- What is left of a block completes it. -/
theorem part
    (h : Position request output sent queue isActive (.attempting (.write purpose bytes))) :
    purpose.Follows output.flushed isActive ∧
      request :: sent = output.flushed ++ (output.pending ++ bytes) :: queue := by
  cases h with
  | writing follows waiting => exact ⟨follows, waiting⟩
  | opening isOpening => cases isOpening
  | reading isReading => cases isReading
  | stopped idle => cases idle

/-- What is flushed is a whole block. -/
theorem whole (h : Position request output sent queue isActive (.attempting (.flush purpose))) :
    purpose.Follows output.flushed isActive ∧
      request :: sent = output.flushed ++ output.pending :: queue := by
  cases h with
  | flushing follows waiting => exact ⟨follows, waiting⟩
  | opening isOpening => cases isOpening
  | reading isReading => cases isReading
  | stopped idle => cases idle

/-- At the answer the request and all that was taken from the queue is written and flushed. -/
theorem flushed (h : Position request output sent queue isActive task)
    (hreading : task.isReading = true) :
    output.pending = [] ∧ output.flushed ≠ [] ∧ request :: sent = output.flushed ++ queue := by
  cases h with
  | reading _ nothing first waiting => exact ⟨nothing, first, waiting⟩
  | opening isOpening =>
    unfold Task.isReading at hreading
    split at hreading <;> first | cases isOpening | cases hreading
  | writing => cases hreading
  | flushing => cases hreading
  | stopped idle =>
    unfold Task.isReading at hreading
    split at hreading <;> first | cases idle | cases hreading

end Position

namespace Session

variable {s t : Session} {origin : Connection}

/-- What the stream has accepted so far. -/
def output (s : Session) : Output :=
  History.output s.history

/-- The messages sent so far, oldest first. -/
def sent (s : Session) : List Bytes :=
  History.sent s.history

/-- The writes of a session are in order, and it is at a certain place of them. -/
structure Sending (s : Session) (origin : Connection) : Prop where
  connection : s.connection = origin
  orderly : History.Orderly origin.request s.history
  position : Position origin.request s.output s.sent s.uplink.queue s.state.isActive s.task

/-! ### Moves that neither write nor send -/

/-- Nothing is written or sent. -/
structure Carries (s t : Session) : Prop where
  connection : t.connection = s.connection
  output : t.output = s.output
  sent : t.sent = s.sent
  queue : t.uplink.queue = s.uplink.queue
  orderly : ∀ request, History.Orderly request s.history → History.Orderly request t.history

namespace Carries

/-- Where the queue and the log stay as they are, nothing is written or sent. -/
theorem of_eq (connection : t.connection = s.connection)
    (queue : t.uplink.queue = s.uplink.queue) (history : t.history = s.history) : Carries s t where
  connection := connection
  output := by rw [Session.output, history]; rfl
  sent := by rw [Session.sent, history]; rfl
  queue := queue
  orderly _ h := history ▸ h

/-- A session that does not move writes and sends nothing. -/
theorem refl (s : Session) : Carries s s :=
  .of_eq rfl rfl rfl

/-- It makes no difference what else changes. -/
theorem frame (h : Carries s t) {state : State} {task : Task} {watchdog : Watchdog} {held : Held}
    {reactions : Reactions} {after : List Action}
    {lookup : Script (Except IoError Candidates)}
    {attempts : List (Script (Except IoError Peer))} {peer : Option Peer} {arrived : Bytes}
    {decoder : Decoder} {isOpen : Bool} :
    Carries s { t with state, task, watchdog, held, reactions, after, lookup, attempts, peer,
                       arrived, decoder, uplink := { t.uplink with isOpen } } :=
  ⟨h.connection, h.output, h.sent, h.queue, h.orderly⟩

/-- Most of what is recorded is neither a write nor a message. -/
theorem record (h : Carries s t) (event : Event) (hquiet : event.isQuiet = true)
    (hsent : event.sent = []) : Carries s (t.record event) where
  connection := h.connection
  output := (History.output_of_quiet hquiet).trans h.output
  sent := by
    show History.sent t.history ++ event.sent = s.sent
    rw [hsent, List.append_nil]
    exact h.sent
  queue := h.queue
  orderly request horderly := (h.orderly request horderly).quiet hquiet

/-- Settling neither writes nor sends. -/
theorem settle (h : Carries s t) : Carries s t.settle :=
  record (t := { t with watchdog := t.watchdog.reset t.now }) h.frame .settled rfl rfl

/-- Entering a state neither writes nor sends. -/
theorem enter (h : Carries s t) (state : State) : Carries s (t.enter state) :=
  record (t := { t with state := t.state.moveTo state }) h.frame _ rfl rfl

end Carries

/-- After a move that neither writes nor sends, the place may be another one. -/
theorem Sending.carry (h : s.Sending origin) (k : Carries s t)
    (position : Position origin.request s.output s.sent s.uplink.queue t.state.isActive t.task) :
    t.Sending origin where
  connection := k.connection.trans h.connection
  orderly := k.orderly _ h.orderly
  position := by rw [k.output, k.sent, k.queue]; exact position

/-- Work may stop anywhere. -/
theorem Sending.stop (h : s.Sending origin) (k : Carries s t) (idle : t.task.isWorking = false) :
    t.Sending origin :=
  h.carry k (.stopped idle)

/-- The work may stop whatever is being written. -/
theorem Sending.conclude (h : s.Sending origin) (k : Carries s t) (ending : Ending) :
    (t.conclude ending).Sending origin :=
  h.stop (t := t.conclude ending) k.frame rfl

/-- An operation may begin where its place is. -/
theorem Sending.attempt (h : s.Sending origin) (k : Carries s t) {operation : Operation}
    (position : Position origin.request s.output s.sent s.uplink.queue t.state.isActive
      (.attempting operation)) : (t.attempt operation).Sending origin := by
  unfold Session.attempt
  split
  · exact h.conclude k _
  · exact h.carry (Carries.record (t := { t with task := .attempting operation }) k.frame
      _ rfl rfl) position

/-! ### Time and the owner -/

/-- A message that is sent is queued at once, and any other action sends nothing. -/
theorem sending_act (h : s.Sending origin) (action : Action) : (s.act action).Sending origin := by
  obtain ⟨held, reply, hact⟩ := act_eq s action
  rw [hact]
  refine ⟨h.connection, h.orderly.quiet rfl, ?_⟩
  exact h.position.send (Event.acted action reply).sent

/-- Messages may be sent in the meantime. -/
theorem sending_lull (h : s.Sending origin) (hlull : Lull s t) : t.Sending origin := by
  refine hlull.keeps (P := fun t => t.Sending origin) (fun _ action h => sending_act h action) ?_ h
  intro t u same h
  -- Time alone neither writes nor sends, and the session stays where it is.
  refine h.carry (.of_eq same.connection (by rw [same.uplink]) same.history) ?_
  rw [same.state, same.task]
  exact h.position

/-- A pause leaves the session at its place, or the work stops. -/
theorem sending_pause {α : Type} {script : Script α} (h : s.Sending origin)
    (hpause : Pause script s t) : t.Sending origin := by
  cases hpause with
  | on hlull => exact sending_lull h hlull
  | stuck hlull =>
    exact (sending_lull h hlull).stop (Carries.frame (Carries.refl _)) rfl
  | cancelled hlull => exact (sending_lull h hlull).conclude (Carries.refl _) _
  | expired hlull => exact (sending_lull h hlull).conclude (Carries.refl _) _

/-- The owner may send in return for a call. -/
theorem sending_notify (h : s.Sending origin) (notice : Notice) :
    (s.notify notice).Sending origin := by
  refine sending_lull ?_ (lull_notify s notice)
  exact h.carry (Carries.record (t := { s with reactions := (s.reactions.take notice).2 })
    (Carries.refl s).frame _ rfl rfl) h.position

/-- The owner may try to send after the end. -/
theorem sending_finish (h : s.Sending origin) (k : Carries s t) (outcome : Outcome) :
    (t.finish outcome).Sending origin := by
  refine sending_lull ?_ (lull_finish t outcome)
  exact h.stop (Carries.record (t := { t with after := [], task := .ended outcome })
    k.frame _ rfl rfl) rfl

/-! ### Before the request -/

/-- The next attempt is made with nothing written yet. -/
theorem sending_connectNext (h : s.Sending origin) (k : Carries s t) (fresh : s.output = {})
    (waiting : s.sent = s.uplink.queue) (candidate : Nat) (last : IoError)
    (candidates : Candidates) : (t.connectNext candidate last candidates).Sending origin := by
  cases candidates with
  | nil => exact h.conclude k _
  | cons endpoint others => exact h.attempt (k.enter _) (.opening rfl fresh waiting)

/-- The lookup ends with nothing written yet. -/
theorem sending_resolved (h : s.Sending origin) (k : Carries s t) (fresh : s.output = {})
    (waiting : s.sent = s.uplink.queue) (result : Except IoError Candidates) :
    (t.resolved result).Sending origin := by
  unfold resolved
  split
  · exact h.conclude k.settle _
  · exact h.conclude k.settle _
  · exact sending_connectNext h k.settle fresh waiting _ _ _

/-- An attempt ends with nothing written yet, and the request is the first block. -/
theorem sending_connected (h : s.Sending origin) (k : Carries s t) (fresh : s.output = {})
    (waiting : s.sent = s.uplink.queue) (candidate : Nat) (others : Candidates)
    (result : Except IoError Peer) : (t.connected candidate others result).Sending origin := by
  have hk : Carries s ({ t with attempts := t.attempts.tail } : Session).settle :=
    Carries.settle k.frame
  unfold connected
  cases result with
  | error cause => exact sending_connectNext h hk fresh waiting _ _ _
  | ok peer =>
    have hpeer : Carries s { ({ t with attempts := t.attempts.tail } : Session).settle with
        peer := some peer } := hk.frame
    refine h.attempt (hpeer.enter .writing) (.writing ?_ ?_)
    · rw [fresh]
      rfl
    · -- The whole request is the first block.
      show origin.request :: s.sent
        = s.output.flushed ++ (s.output.pending ++ t.connection.request) :: s.uplink.queue
      rw [fresh, waiting, k.connection, h.connection]
      rfl

/-! ### Writing and flushing -/

/-- A write moves bytes from what is left of a block to what was accepted. -/
theorem sending_wrote (h : s.Sending origin) {purpose : Purpose} {bytes : Bytes}
    (htask : s.task = .attempting (.write purpose bytes)) (limit : Nat) :
    ({ s.record (.wrote (bytes.take limit)) with
        task := .attempting (.write purpose (bytes.drop limit)) } : Session).Sending origin := by
  obtain ⟨follows, waiting⟩ := (htask ▸ h.position).part
  have hsent : (s.record (.wrote (bytes.take limit))).sent = s.sent := List.append_nil _
  -- The bytes that were accepted go on where those before them ended.
  have hwaiting : origin.request :: (s.record (.wrote (bytes.take limit))).sent
      = s.output.flushed
        ++ ((s.output.pending ++ bytes.take limit) ++ bytes.drop limit) :: s.uplink.queue := by
    rw [hsent, List.append_assoc, List.take_append_drop, waiting]
  refine ⟨h.connection, h.orderly.cons ⟨⟨_, hwaiting, List.prefix_append _ _⟩, ?_⟩,
    .writing follows hwaiting⟩
  intro written hwrote hfirst
  -- Behind the first block only messages are written.
  cases purpose with
  | request => exact absurd follows hfirst
  | uplink => exact follows.2

/-- What was written as a whole is flushed next. -/
theorem sending_written_all (h : s.Sending origin) {purpose : Purpose}
    (htask : s.task = .attempting (.write purpose [])) :
    ({ s with task := .attempting (.flush purpose) } : Session).Sending origin := by
  obtain ⟨follows, waiting⟩ := (htask ▸ h.position).part
  rw [List.append_nil] at waiting
  exact ⟨h.connection, h.orderly, .flushing follows waiting⟩

/-- The result of a write leaves the rest of the block, or stops the work. -/
theorem sending_written (h : s.Sending origin) {purpose : Purpose} {bytes : Bytes}
    (htask : s.task = .attempting (.write purpose bytes)) (result : Except IoError Nat) :
    (s.written purpose bytes result).Sending origin := by
  unfold written
  cases result with
  | error cause =>
    simp only
    split
    · exact h
    · exact h.conclude (Carries.refl s).settle _
  | ok limit =>
    have hwrote := sending_wrote h htask limit
    simp only
    split
    · have hk : Carries
          ({ s.record (.wrote (bytes.take limit)) with
              task := .attempting (.write purpose (bytes.drop limit)) } : Session)
          (s.record (.wrote (bytes.take limit))) := .of_eq rfl rfl rfl
      exact hwrote.conclude hk.settle _
    · exact hwrote

/-- A flush ends a block, and all that was taken from the queue is written. -/
theorem sending_flush (h : s.Sending origin) {purpose : Purpose}
    (htask : s.task = .attempting (.flush purpose)) :
    ({ s.record .flushed with task := .decoding } : Session).Sending origin := by
  obtain ⟨-, waiting⟩ := (htask ▸ h.position).whole
  have hsent : (s.record .flushed).sent = s.sent := List.append_nil _
  -- The block that was pending joins those before it.
  have hwaiting : origin.request :: (s.record .flushed).sent
      = (s.output.flushed ++ [s.output.pending]) ++ s.uplink.queue := by
    rw [hsent, waiting, List.append_assoc]
    rfl
  refine ⟨h.connection, h.orderly.cons ⟨⟨s.uplink.queue, hwaiting, List.nil_prefix⟩, ?_⟩,
    .reading rfl rfl (List.append_ne_nil_of_right_ne_nil _ (by simp)) hwaiting⟩
  intro bytes hwrote
  cases hwrote

/-- The result of a flush ends the block, or stops the work. -/
theorem sending_flushed (h : s.Sending origin) {purpose : Purpose}
    (htask : s.task = .attempting (.flush purpose)) (result : Except IoError Unit) :
    (s.flushed purpose result).Sending origin := by
  unfold flushed
  cases result with
  | error cause => exact h.conclude (Carries.refl s).settle _
  | ok u =>
    have hflush := sending_flush h htask
    have hk : Carries ({ s.record .flushed with task := .decoding } : Session)
        (s.record .flushed).settle := Carries.settle (.of_eq rfl rfl rfl)
    obtain ⟨nothing, first, waiting⟩ := hflush.position.flushed rfl
    -- After the request comes the answer, and after a message the read that it interrupted.
    cases purpose with
    | request =>
      have hentered := hk.enter .readingStatus
      exact hflush.carry hentered.frame (.reading rfl nothing first waiting)
    | uplink => exact hflush.attempt hk (.reading rfl nothing first waiting)

/-! ### At the answer -/

/-- A session at the answer may go on with the answer in any state. -/
theorem sending_read (h : s.Sending origin) (hreading : s.task.isReading = true)
    (k : Carries s t) (hreading' : t.task.isReading = true) : t.Sending origin := by
  obtain ⟨nothing, first, waiting⟩ := h.position.flushed hreading
  exact h.carry k (.reading hreading' nothing first waiting)

/-- Bytes that arrive do not move the session from its place. -/
theorem sending_readable (h : s.Sending origin) (result : Except IoError Bytes) :
    (s.readable result).Sending origin := by
  unfold readable
  cases result with
  | error cause => exact h.conclude (Carries.refl s).settle _
  | ok bytes =>
    simp only
    split
    · exact h.conclude (Carries.refl s).settle _
    · exact h.carry (Carries.refl s).frame h.position

/-- Bytes may be handed on while messages wait. -/
theorem sending_receive (h : s.Sending origin) (htask : s.task = .attempting .read) :
    s.receive.Sending origin := by
  have hk : Carries s ({ s with
      arrived := s.arrived.drop s.connection.config.readLimit } : Session).settle :=
    Carries.settle (Carries.refl s).frame
  have hreceived := hk.record (.received (s.arrived.take s.connection.config.readLimit)) rfl rfl
  exact sending_read h (by rw [htask]; rfl) hreceived.frame rfl

/-- A message that is taken from the queue is the next block. -/
theorem sending_take (h : s.Sending origin) (htask : s.task = .attempting .read)
    (hactive : s.state.isActive = true) {message : Bytes} {uplink : Uplink}
    (htake : s.uplink.take? = some (message, uplink)) :
    (({ s with uplink } : Session).settle.attempt (.write .uplink message)).Sending origin := by
  have hqueue : s.uplink.queue = message :: uplink.queue := by
    unfold Uplink.take? at htake
    split at htake
    · cases htake
    · rename_i first queue hcons
      cases htake
      exact hcons
  obtain ⟨nothing, first, waiting⟩ := h.position.flushed (by rw [htask]; rfl)
  have hposition : Position origin.request s.output s.sent uplink.queue s.state.isActive
      (.attempting (.write .uplink message)) := by
    refine .writing ⟨first, hactive⟩ ?_
    rw [nothing, waiting, hqueue]
    rfl
  -- It leaves the queue and is being written at the same moment.
  have htaken : ({ s with uplink, task := .attempting (.write .uplink message) } :
      Session).Sending origin := ⟨h.connection, h.orderly, hposition⟩
  exact htaken.attempt (Carries.settle (.of_eq rfl rfl rfl)) hposition

/-- Decoding neither writes nor sends, though the owner may when it is called. -/
theorem sending_stepDecoder (h : s.Sending origin) (htask : s.task = .decoding) :
    s.stepDecoder.Sending origin := by
  have hreading : s.task.isReading = true := by rw [htask]; rfl
  unfold stepDecoder
  cases hadvance : s.decoder.advance s.limits with
  | mk signal next =>
    have hnext : ({ s with decoder := next } : Session).Sending origin :=
      h.carry (Carries.refl s).frame h.position
    obtain ⟨nothing, first, waiting⟩ := hnext.position.flushed hreading
    -- Calls let the owner act; nothing else is sent, and nothing is written.
    cases signal with
    | more => exact hnext.attempt (Carries.refl _) (.reading rfl nothing first waiting)
    | proceed => exact hnext
    | finished => exact hnext.conclude (Carries.refl _) _
    | failed error => exact hnext.conclude (Carries.refl _) _
    | accepted status =>
      simp only
      split
      · exact sending_read hnext hreading ((Carries.refl _).enter _) hreading
      · exact sending_read hnext hreading ((Carries.refl _).enter _) hreading
    | headers map =>
      simp only
      split
      · exact hnext.conclude (Carries.refl _) _
      · have htold := sending_notify hnext (.headers map)
        have hwork := (lull_notify { s with decoder := next } (.headers map)).kept.task
        have hreading' : (({ s with decoder := next } : Session).notify
            (.headers map)).task.isReading = true := by
          rw [hwork]
          exact hreading
        exact sending_read htold hreading' ((Carries.refl _).enter _) hreading'
    | data bytes =>
      simp only
      split
      · exact hnext.conclude (Carries.refl _) _
      · exact sending_notify hnext (.data bytes)

/-! ### At the end -/

/-- Winding up writes nothing, and messages sent from then on are refused. -/
theorem sending_stepConclusion (h : s.Sending origin) (ending : Ending) :
    (s.stepConclusion ending).Sending origin := by
  -- The owner may send while it is called for the last time. Then the uplink is closed.
  have htold : ∀ outcome, (s.notifyEnd outcome).Sending origin := by
    intro outcome
    cases outcome with
    | shutdown => exact h
    | eof => exact sending_notify h .eof
    | failed error => exact sending_notify h (.error error)
  have hclosed : ∀ outcome, Carries (s.notifyEnd outcome)
      (({ s.notifyEnd outcome with
          uplink := (s.notifyEnd outcome).uplink.close } : Session).enter .closed) :=
    fun outcome => Carries.enter (t := { s.notifyEnd outcome with
      uplink := (s.notifyEnd outcome).uplink.close })
      (Carries.refl (s.notifyEnd outcome)).frame .closed
  unfold stepConclusion
  simp only
  split
  · exact (htold _).stop (Carries.record (Carries.frame (hclosed _)) .closing rfl rfl) rfl
  · exact sending_finish (htold _) (hclosed _) _

/-! ### All moves -/

/-- A move keeps the writes in order. -/
theorem sending_step (h : s.Sending origin) : s.step.Sending origin := by
  have hsame : ∀ {t : Session}, Carries s t → t.state = s.state → t.task = s.task →
      t.Sending origin := by
    intro t k hstate htask
    refine h.carry k ?_
    rw [hstate, htask]
    exact h.position
  -- Over the tasks: the result of the operation, or a pause.
  cases htask : s.task with
  | attempting operation =>
    cases operation with
    | resolve =>
      rcases step_resolve htask with ⟨result, rest, -, hstep⟩ | hpause
      · obtain ⟨fresh, waiting⟩ := h.position.fresh (by rw [htask]; rfl)
        rw [hstep]
        exact sending_resolved h (t := s.putLookup rest) (Carries.refl s).frame fresh waiting _
      · exact sending_pause h hpause
    | connect candidate endpoint others =>
      rcases step_connect htask with ⟨result, rest, -, hstep⟩ | hpause
      · obtain ⟨fresh, waiting⟩ := h.position.fresh (by rw [htask]; rfl)
        rw [hstep]
        exact sending_connected h (t := s.putAttempt rest) (Carries.refl s).frame fresh waiting
          _ _ _
      · exact sending_pause h hpause
    | write purpose bytes =>
      by_cases hne : bytes = []
      · subst hne
        rw [step_write_nil htask]
        exact sending_written_all h htask
      · rcases step_write hne htask with ⟨result, rest, -, hstep⟩ | hpause
        · rw [hstep]
          exact sending_written (hsame (t := s.putWrites rest) (Carries.refl s).frame rfl rfl)
            htask _
        · exact sending_pause h hpause
    | flush purpose =>
      rcases step_flush htask with ⟨result, rest, -, hstep⟩ | hpause
      · rw [hstep]
        exact sending_flushed (hsame (t := s.putFlushes rest) (Carries.refl s).frame rfl rfl)
          htask _
      · exact sending_pause h hpause
    | read =>
      by_cases harrived : s.arrived = []
      · rcases step_read htask harrived with
          ⟨result, rest, -, hstep⟩ | ⟨message, uplink, -, hactive, htake, hstep⟩ | hpause
        · rw [hstep]
          exact sending_readable (hsame (t := s.putReads rest) (Carries.refl s).frame rfl rfl) _
        · rw [hstep]
          exact sending_take h htask hactive htake
        · exact sending_pause h hpause
      · rw [step_receive htask harrived]
        exact sending_receive h htask
  | decoding =>
    rw [step_decoding htask]
    exact sending_stepDecoder h htask
  | concluding ending =>
    rw [step_concluding htask]
    exact sending_stepConclusion h ending
  | closing outcome =>
    rcases step_closing htask with ⟨result, rest, -, hstep⟩ | hlull | ⟨-, hstep⟩
    · rw [hstep]
      exact sending_finish h (Carries.record (t := { s.putCloses rest with peer := none })
        (Carries.refl s).frame _ rfl rfl) _
    · exact sending_lull h hlull
    · rw [hstep]
      exact h.stop (t := { s with task := .stuck }) (Carries.refl s).frame rfl
  | ended outcome =>
    rw [step_of_halted (by rw [isHalted, htask])]
    exact h
  | stuck =>
    rw [step_of_halted (by rw [isHalted, htask])]
    exact h

/-- At any time the writes are in order. -/
theorem sending_runFor (connection : Connection) (plan : Plan) (moves : Nat) :
    ((start connection plan).runFor moves).Sending connection := by
  refine keeps_runFor (P := fun s => s.Sending connection) (fun _ => sending_step) moves ?_
  have hblank : (blank connection plan).Sending connection :=
    ⟨rfl, History.orderly_nil _, .opening rfl rfl rfl⟩
  have hlull := lull_actAll (blank connection plan) plan.before
  have hactions := sending_lull hblank hlull
  obtain ⟨fresh, waiting⟩ := hactions.position.fresh (by rw [hlull.kept.task]; rfl)
  have hheld : Carries ((blank connection plan).actAll plan.before)
      { (blank connection plan).actAll plan.before with
        held := { ((blank connection plan).actAll plan.before).held with
          status := plan.access.showsState } } := (Carries.refl _).frame
  rw [start_eq]
  exact hactions.attempt ((hheld.record .started rfl rfl).enter .resolving)
    (.opening rfl fresh waiting)

/-! ### The order of all writes -/

/-- A session has no bytes to receive, was not asked to stop, and its read has to wait. -/
structure AwaitsRead (s : Session) (until? : Option Nat) : Prop where
  task : s.task = .attempting .read
  arrived : s.arrived = []
  calm : s.stopRequested = false
  waits : s.reads.turn (.ok []) s.now = .wait until?

/-- The order in which a session writes the request and the messages. -/
structure SendsInOrder (request : Bytes) (s : Session) : Prop where
  /-- At every moment the accepted bytes are the first ones of the request and the messages
  sent so far. -/
  accepted : ∀ moment, moment <:+ s.history →
    History.accepted moment <+: request ++ (History.sent moment).flatten
  /-- At every moment the request and the first messages are flushed, each on its own, and only
  bytes of the next one were accepted since. -/
  blocks : ∀ moment, moment <:+ s.history → ∃ left,
    request :: History.sent moment = (History.output moment).flushed ++ left ∧
      (History.output moment).pending <+: left.headD []
  /-- Bytes are accepted behind the request only while the body is handed over. -/
  active : ∀ entry earlier, entry :: earlier <:+ s.history → ∀ bytes,
    entry.event = .wrote bytes → (History.output earlier).flushed ≠ [] →
    entry.state.isActive = true
  /-- Bytes of a message are offered only while the body is handed over, when the request and
  all messages before it are flushed. -/
  offered : ∀ bytes, s.task = .attempting (.write .uplink bytes) → s.state.isActive = true ∧
    ∃ done message later, s.sent = done ++ message :: later ∧
      s.output.flushed = request :: done ∧ s.output.pending ++ bytes = message
  /-- A session that has to wait for bytes of the body begins to write the oldest message that
  is left, or it waits, and then the request and all messages are written and flushed. -/
  waiting : ∀ until?, s.AwaitsRead until? → s.state.isActive = true →
    (∃ message later, s.uplink.queue = message :: later ∧
      s.step.task = .attempting (.write .uplink message)) ∨
    (s.step = s.idle until? ∧ s.output = { flushed := request :: s.sent, pending := [] })

/-- A log that is in order was in order at every earlier moment. -/
theorem orderly_of_suffix {request : Bytes} {history moment : List Entry}
    (h : History.Orderly request history) (hsuffix : moment <:+ history) :
    History.InOrder request moment := by
  cases moment with
  | nil => exact (History.orderly_nil request).1
  | cons entry earlier => exact (h.2 entry earlier hsuffix).inOrder

/-- Without a shutdown request an operation begins. -/
theorem attempt_of_calm (hcalm : s.stopRequested = false) (operation : Operation) :
    s.attempt operation
      = ({ s with task := .attempting operation } : Session).record (.began operation) := by
  rw [Session.attempt, if_neg (by rw [hcalm]; exact Bool.false_ne_true)]

/-- A session that waits at a body writes the next message, or has written all of them. -/
theorem Sending.waiting (h : s.Sending origin) {until? : Option Nat} (hwaits : s.AwaitsRead until?)
    (hactive : s.state.isActive = true) :
    (∃ message later, s.uplink.queue = message :: later ∧
      s.step.task = .attempting (.write .uplink message)) ∨
    (s.step = s.idle until? ∧
      s.output = { flushed := origin.request :: s.sent, pending := [] }) := by
  have hstep : s.step = s.waitForBytes until? := by
    simp only [step, hwaits.task, stepOperation, hwaits.arrived, List.isEmpty_nil, if_true, follow,
      hwaits.waits]
  obtain ⟨nothing, -, waiting⟩ := h.position.flushed (by rw [hwaits.task]; rfl)
  rw [waitForBytes, if_neg (by rw [hwaits.calm]; simp), if_pos hactive] at hstep
  -- All that was sent is flushed or in the queue, so an empty queue means that all is flushed.
  cases hqueue : s.uplink.queue with
  | nil =>
    rw [Uplink.take?, hqueue] at hstep
    rw [hqueue, List.append_nil] at waiting
    refine .inr ⟨hstep, ?_⟩
    rw [waiting, ← nothing]
  | cons message later =>
    rw [Uplink.take?, hqueue] at hstep
    have htaken := attempt_of_calm
      (s := ({ s with uplink := { s.uplink with queue := later } } : Session).settle)
      hwaits.calm (.write .uplink message)
    refine .inl ⟨message, later, rfl, ?_⟩
    rw [hstep]
    exact congrArg Session.task htaken

/-- **The request and the messages reach the server in order.** Whatever a session goes through,
nothing of them is lost, repeated or written too early. -/
theorem sends_in_order (connection : Connection) (plan : Plan) (moves : Nat) :
    Request.encode connection.config = .ok connection.request ∧
      SendsInOrder connection.request ((start connection plan).runFor moves) := by
  refine ⟨connection.request_eq, ?_⟩
  have h := sending_runFor connection plan moves
  constructor
  case accepted =>
    intro moment hmoment
    exact (orderly_of_suffix h.orderly hmoment).front_accepted
  case blocks =>
    intro moment hmoment
    exact orderly_of_suffix h.orderly hmoment
  case active =>
    intro entry earlier hsuffix
    exact (h.orderly.2 entry earlier hsuffix).active
  case offered =>
    intro bytes htask
    obtain ⟨⟨hfirst, hactive⟩, waiting⟩ := (htask ▸ h.position).part
    -- The first block is the request, and the others are messages.
    obtain ⟨request, done, hflushed⟩ := List.exists_cons_of_ne_nil hfirst
    rw [hflushed, List.cons_append] at waiting
    obtain ⟨rfl, hsent⟩ := List.cons.inj waiting
    exact ⟨hactive, done, _, _, hsent, hflushed, rfl⟩
  case waiting =>
    intro until? hwaits hactive
    exact h.waiting hwaits hactive

/-- One message is sent before the start, and one while the session waits. The stream accepts
the bytes in pieces. -/
def chattyPlan : Plan where
  before := [.send [1, 2, 3]]
  lookup := [.result (.ok [{ address := .v4 ⟨10, 0, 0, 1⟩, port := 0 }])]
  attempts := [[.result (.ok
    { reads := [.result (.ok (Utf8.encode "ICY 200 OK\r\n")), .delay 5, .act [.send [4]], .never]
      writes := [.result (.ok 7), .delay 3, .result (.ok 100), .result (.ok 2)] })]]

/-- In the middle of the first message nothing of the second one was written. When the session
waits at last, both are flushed. -/
theorem sends_in_order_chattyPlan :
    (((start .sample chattyPlan).runFor 17).task = .attempting (.write .uplink [3]) ∧
      ∃ done message later, ((start .sample chattyPlan).runFor 17).sent = done ++ message :: later ∧
        ((start .sample chattyPlan).runFor 17).output.flushed
          = Connection.sample.request :: done ∧
        ((start .sample chattyPlan).runFor 17).output.pending ++ [3] = message) ∧
    ((start .sample chattyPlan).runFor 27).AwaitsRead none ∧
      ((start .sample chattyPlan).runFor 27).output
        = { flushed := [Connection.sample.request, [1, 2, 3], [4]], pending := [] } := by
  have htask : ((start .sample chattyPlan).runFor 17).task = .attempting (.write .uplink [3]) := by
    decide +kernel
  have hreads : ((start .sample chattyPlan).runFor 27).reads = [.never] := by rfl
  have hwaits : ((start .sample chattyPlan).runFor 27).AwaitsRead none := by
    refine ⟨by decide +kernel, by decide +kernel, by decide +kernel, ?_⟩
    rw [hreads]
    rfl
  refine ⟨⟨htask, ((sends_in_order .sample chattyPlan 17).2.offered [3] htask).2⟩, hwaits, ?_⟩
  rcases (sends_in_order .sample chattyPlan 27).2.waiting none hwaits (by decide +kernel) with
    ⟨message, later, hqueue, -⟩ | ⟨-, houtput⟩
  · have hempty : ((start .sample chattyPlan).runFor 27).uplink.queue = [] := by decide +kernel
    rw [hempty] at hqueue
    cases hqueue
  · have hsent : ((start .sample chattyPlan).runFor 27).sent = [[1, 2, 3], [4]] := by decide +kernel
    rw [houtput, hsent]

end Session

end NtripClient
