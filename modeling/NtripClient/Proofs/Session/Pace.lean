import NtripClient.Proofs.Session.Clock
import NtripClient.Proofs.Session.Shutdown
import NtripClient.Proofs.Watchdog

/-!
# `NtripClient.Proofs.Session.Pace`: guarded operations and the idle limit

Guarded operations follow each other without a gap: each begins at the instant at which the one
before it was completed, the first one at the start. `Paced` says this of a log, and that no
operation takes longer than the idle limit allows. `Ticks` ties the watchdog to the log: its
deadline is the last completion and the limit, whatever its timer says.

`Timed` is the invariant of a session whose limit has not been reached (`timed_step`). While an
operation is under way it is the one that is pending in the log, and between two operations no
time passes. Such a session stops with nothing pending, or because of a shutdown request. If the
limit is reached in a wait, that is so at exactly the deadline (`expires_of_poll`).
-/

set_option autoImplicit false

namespace NtripClient

namespace Event

/-- A guarded operation begins. -/
def isBeginning : Event → Bool
  | .began _ => true
  | _ => false

/-- A guarded operation is complete. -/
def isSettled : Event → Bool
  | .settled => true
  | _ => false

/-- The stream takes something. -/
def isOutput : Event → Bool
  | .wrote _ => true
  | .flushed => true
  | _ => false

/-- Writing begins, of the request or of a message. -/
def beginsWrite : Event → Bool
  | .began (.write _ _) => true
  | _ => false

/-- The event belongs to a guarded operation. -/
def isGuarded (event : Event) : Bool :=
  event.isBeginning || event.isSettled || event.isOutput

end Event

/-- The operation writes, or flushes what was written. -/
def Operation.writes : Operation → Bool
  | .write _ _ => true
  | .flush _ => true
  | _ => false

/-- An instant is not later than a limit allows after another one, if there is a limit. -/
def IsWithin (limit? : Option Nat) (start time : Nat) : Prop :=
  ∀ limit, limit? = some limit → time ≤ start + limit

namespace History

/-- The instant of the last completion of an operation; at first, of the start. -/
def lastSettled : List Entry → Nat
  | [] => 0
  | entry :: earlier => if entry.event.isSettled then entry.time else lastSettled earlier

/-- The beginning of the operation that is under way. -/
def pending? : List Entry → Option Entry
  | [] => none
  | entry :: earlier =>
    if entry.event.isBeginning then some entry
    else if entry.event.isSettled then none
    else pending? earlier

/-- An entry keeps the pace of the log before it. -/
structure KeepsPace (limit? : Option Nat) (entry : Entry) (earlier : List Entry) : Prop where
  /-- An operation begins when the one before it is complete, without a gap. -/
  begins : entry.event.isBeginning = true →
    pending? earlier = none ∧ entry.time = lastSettled earlier
  /-- An operation is complete within the limit. -/
  settles : entry.event.isSettled = true → ∃ start, pending? earlier = some start ∧
    IsWithin limit? start.time entry.time
  /-- The stream takes something only in an operation that writes. -/
  outputs : entry.event.isOutput = true → ∃ start, pending? earlier = some start ∧
    start.event.beginsWrite = true

/-- Operations follow each other without a gap and within the limit. -/
def Paced (limit? : Option Nat) : List Entry → Prop
  | [] => True
  | entry :: earlier => Paced limit? earlier ∧ KeepsPace limit? entry earlier

section
variable {limit? : Option Nat} {entry start : Entry} {history later earlier : List Entry}

/-- Only a completion changes the instant of the last one. -/
theorem lastSettled_cons (h : entry.event.isSettled = false) :
    lastSettled (entry :: history) = lastSettled history := by
  rw [lastSettled, if_neg (by rw [h]; decide)]

/-- What belongs to no operation neither begins nor completes one, and the stream takes nothing. -/
theorem isGuarded_eq_false {event : Event} (h : event.isGuarded = false) :
    event.isBeginning = false ∧ event.isSettled = false ∧ event.isOutput = false := by
  simp only [Event.isGuarded, Bool.or_eq_false_iff] at h
  exact ⟨h.1.1, h.1.2, h.2⟩

/-- Only a beginning and a completion change what is under way. -/
theorem pending?_cons (hbegins : entry.event.isBeginning = false)
    (hsettled : entry.event.isSettled = false) :
    pending? (entry :: history) = pending? history := by
  rw [pending?, if_neg (by rw [hbegins]; decide), if_neg (by rw [hsettled]; decide)]

/-- What belongs to no operation keeps the pace. -/
theorem paced_cons (h : entry.event.isGuarded = false) (hpaced : Paced limit? history) :
    Paced limit? (entry :: history) := by
  obtain ⟨hbegins, hsettled, houtput⟩ := isGuarded_eq_false h
  refine ⟨hpaced, ?_, ?_, ?_⟩
  · intro hthis
    rw [hbegins] at hthis
    cases hthis
  · intro hthis
    rw [hsettled] at hthis
    cases hthis
  · intro hthis
    rw [houtput] at hthis
    cases hthis

/-- However much of it is logged, the pace is kept and the same operation is under way. -/
theorem Paced.append (hpaced : Paced limit? history)
    (h : ∀ entry ∈ later, entry.event.isGuarded = false) :
    Paced limit? (later ++ history) ∧ pending? (later ++ history) = pending? history := by
  induction later with
  | nil => exact ⟨hpaced, rfl⟩
  | cons entry later ih =>
    have hentry := h entry (List.mem_cons_self ..)
    obtain ⟨hbegins, hsettled, -⟩ := isGuarded_eq_false hentry
    obtain ⟨hpaced', hpending⟩ := ih fun other hmem => h other (List.mem_cons_of_mem _ hmem)
    exact ⟨paced_cons hentry hpaced', (pending?_cons hbegins hsettled).trans hpending⟩

/-- The earlier part of a log keeps the pace if the whole does. -/
theorem Paced.of_append (h : Paced limit? (later ++ history)) : Paced limit? history := by
  induction later with
  | nil => exact h
  | cons entry later ih => exact ih h.1

/-- The operation that is under way has begun at the last completion. -/
theorem Paced.pending?_eq_some (h : Paced limit? history)
    (hpending : pending? history = some start) :
    start.event.isBeginning = true ∧ start.time = lastSettled history := by
  induction history with
  | nil => cases hpending
  | cons entry earlier ih =>
    obtain ⟨hearlier, hentry⟩ := h
    -- The beginning is this entry, or it lies further back, and this is no completion.
    unfold pending? at hpending
    split at hpending
    · rename_i hbegins
      cases hpending
      have hsettled : start.event.isSettled = false := by
        cases he : start.event <;> rw [he] at hbegins <;> first | rfl | cases hbegins
      rw [lastSettled_cons hsettled]
      exact ⟨hbegins, (hentry.begins hbegins).2⟩
    · split at hpending
      · cases hpending
      · rename_i hsettled
        rw [lastSettled_cons (by simpa using hsettled)]
        exact ih hearlier hpending

/-- The operation that is under way has begun at some place of the log, and was not completed
since. -/
theorem exists_of_pending? (hpending : pending? history = some start) :
    ∃ since earlier, history = since ++ start :: earlier ∧ start.event.isBeginning = true ∧
      ∀ entry ∈ since, entry.event.isSettled = false := by
  induction history with
  | nil => cases hpending
  | cons entry earlier ih =>
    unfold pending? at hpending
    split at hpending
    · cases hpending
      exact ⟨[], earlier, rfl, ‹_›, fun entry hmem => by cases hmem⟩
    · split at hpending
      · cases hpending
      · rename_i hsettled
        obtain ⟨since, before, rfl, hbegins, hsince⟩ := ih hpending
        refine ⟨entry :: since, before, rfl, hbegins, ?_⟩
        intro other hmem
        rcases List.mem_cons.1 hmem with rfl | hmem
        · simpa using hsettled
        · exact hsince other hmem

/-- An operation that has begun is still under way, or was completed within the limit. -/
theorem Paced.pending_or_settled (h : Paced limit? (later ++ start :: earlier))
    (hbegins : start.event.isBeginning = true) :
    pending? (later ++ start :: earlier) = some start ∨
      ∃ entry ∈ later, entry.event.isSettled = true ∧ IsWithin limit? start.time entry.time := by
  induction later with
  | nil => exact .inl (if_pos hbegins)
  | cons entry later ih =>
    change Paced limit? (entry :: (later ++ start :: earlier)) at h
    obtain ⟨hearlier, hentry⟩ := h
    rcases ih hearlier with hpending | ⟨other, hmem, hsettled⟩
    · cases hb : entry.event.isBeginning with
      | true =>
        -- No operation begins while another one is under way.
        have hnone := (hentry.begins hb).1
        rw [hpending] at hnone
        cases hnone
      | false =>
        cases hs : entry.event.isSettled with
        | true =>
          -- What is completed here is what was under way, and that is what has begun.
          obtain ⟨found, hfound, hwithin⟩ := hentry.settles hs
          cases hpending.symm.trans hfound
          exact .inr ⟨entry, List.mem_cons_self .., hs, hwithin⟩
        | false =>
          exact .inl ((pending?_cons hb hs).trans hpending)
    · exact .inr ⟨other, List.mem_cons_of_mem _ hmem, hsettled⟩

end

end History

open History

namespace Session

variable {s t : Session} {limit? : Option Nat}

/-! ### The invariant -/

/-- The watchdog and the clock agree with the log. -/
structure Ticks (limit? : Option Nat) (s : Session) : Prop where
  limit : s.watchdog.timeout = limit?
  timer : s.watchdog.timer ≤ s.watchdog.deadline
  deadline : ∀ limit, limit? = some limit →
    s.watchdog.deadline = lastSettled s.history + limit
  paced : Paced limit? s.history
  past : lastSettled s.history ≤ s.now
  inTime : IsWithin limit? (lastSettled s.history) s.now
  /-- The owner has not been called for the last time. -/
  calls : ∀ entry ∈ s.history, entry.event.isLastCall = false

/-- An operation is under way. -/
structure Underway (limit? : Option Nat) (s : Session) (operation : Operation) : Prop where
  ticks : s.Ticks limit?
  pending : ∃ start, pending? s.history = some start ∧
    (operation.writes = true → start.event.beginsWrite = true)

/-- An operation has just been completed. -/
structure Complete (limit? : Option Nat) (s : Session) : Prop where
  ticks : s.Ticks limit?
  pending : pending? s.history = none
  now : s.now = lastSettled s.history

/-- A session that has not been wound up, and whose limit has not been reached. -/
inductive Timed (limit? : Option Nat) (s : Session) : Prop where
  | attempting {operation : Operation} (task : s.task = .attempting operation)
      (h : s.Underway limit? operation)
  | decoding (task : s.task = .decoding) (h : s.Complete limit?)
  /-- The work has stopped with nothing pending, unless a shutdown was requested. -/
  | stopped {ending : Ending} (task : s.task = .concluding ending) (ticks : s.Ticks limit?)
      (other : ending ≠ .failed .connectionTimeout)
      (pending : ending ≠ .cancelled → pending? s.history = none)
  /-- Nothing happens any more, and there is no limit. -/
  | stuck (task : s.task = .stuck) (ticks : s.Ticks limit?) (unlimited : limit? = none)

/-- Whatever the session is at, the watchdog and the clock agree with the log. -/
theorem Timed.ticks (h : s.Timed limit?) : s.Ticks limit? := by
  cases h with
  | attempting _ h => exact h.ticks
  | decoding _ h => exact h.ticks
  | stopped _ ticks => exact ticks
  | stuck _ ticks => exact ticks

/-! ### What the parts of a move keep -/

/-- The clock agrees with the log until one of them moves. -/
theorem Ticks.congr (h : s.Ticks limit?) (watchdog : t.watchdog = s.watchdog)
    (now : t.now = s.now) (history : t.history = s.history) : t.Ticks limit? where
  limit := by rw [watchdog, h.limit]
  timer := by rw [watchdog]; exact h.timer
  deadline := by rw [watchdog, history]; exact h.deadline
  paced := history ▸ h.paced
  past := by rw [now, history]; exact h.past
  inTime := by rw [now, history]; exact h.inTime
  calls := history ▸ h.calls

/-- Nothing is under way until the log says otherwise. -/
theorem Complete.congr (h : s.Complete limit?) (watchdog : t.watchdog = s.watchdog)
    (now : t.now = s.now) (history : t.history = s.history) : t.Complete limit? :=
  ⟨h.ticks.congr watchdog now history, history ▸ h.pending, by rw [now, history]; exact h.now⟩

/-- Recording something that keeps the pace and is no completion. -/
theorem Ticks.record (h : s.Ticks limit?) {event : Event} (hsettled : event.isSettled = false)
    (hcall : event.isLastCall = false) (hpaced : Paced limit? (s.record event).history) :
    (s.record event).Ticks limit? := by
  have hlast : lastSettled (s.record event).history = lastSettled s.history :=
    lastSettled_cons hsettled
  refine ⟨h.limit, h.timer, ?_, hpaced, ?_, ?_, ?_⟩
  · rw [hlast]
    exact h.deadline
  · rw [hlast]
    exact h.past
  · rw [hlast]
    exact h.inTime
  · intro entry hmem
    rcases List.mem_cons.1 hmem with rfl | hmem
    · exact hcall
    · exact h.calls entry hmem

/-- Recording something that is not about an operation. -/
theorem Complete.record (h : s.Complete limit?) {event : Event}
    (hguarded : event.isGuarded = false) (hcall : event.isLastCall = false) :
    (s.record event).Complete limit? where
  ticks := h.ticks.record (isGuarded_eq_false hguarded).2.1 hcall
    (paced_cons hguarded h.ticks.paced)
  pending :=
    (pending?_cons (isGuarded_eq_false hguarded).1 (isGuarded_eq_false hguarded).2.1).trans
      h.pending
  now := h.now.trans (lastSettled_cons (isGuarded_eq_false hguarded).2.1).symm

/-- Entering a state is not about an operation. -/
theorem Complete.enter (h : s.Complete limit?) (state : State) :
    (s.enter state).Complete limit? :=
  Complete.record (s := { s with state := s.state.moveTo state }) (h.congr rfl rfl rfl) rfl rfl

/-- The owner does not change what is known of operations. -/
theorem lull_history (limit? : Option Nat) (hlull : Lull s t) :
    (Paced limit? s.history → Paced limit? t.history) ∧
      pending? t.history = pending? s.history ∧
      lastSettled t.history = lastSettled s.history ∧
      ((∀ entry ∈ s.history, entry.event.isLastCall = false) →
        ∀ entry ∈ t.history, entry.event.isLastCall = false) := by
  induction hlull with
  | refl => exact ⟨id, rfl, rfl, id⟩
  | act action _ ih =>
    obtain ⟨hpaced, hpending, hsettled, hcalls⟩ := ih
    obtain ⟨held, reply, heq⟩ := act_eq _ action
    rw [heq]
    refine ⟨fun h => paced_cons rfl (hpaced h), (pending?_cons rfl rfl).trans hpending,
      (lastSettled_cons rfl).trans hsettled, ?_⟩
    intro h entry hmem
    rcases List.mem_cons.1 hmem with rfl | hmem
    · rfl
    · exact hcalls h entry hmem
  | alike _ same ih =>
    rw [same.history]
    exact ih

/-- What the owner does leaves the clock in agreement with the log. -/
theorem Ticks.lull (h : s.Ticks limit?) (hlull : Lull s t) (watchdog : t.watchdog = s.watchdog)
    (now : t.now = s.now) : t.Ticks limit? := by
  obtain ⟨hpaced, -, hsettled, hcalls⟩ := lull_history limit? hlull
  refine ⟨by rw [watchdog, h.limit], by rw [watchdog]; exact h.timer, ?_, hpaced h.paced, ?_, ?_,
    hcalls h.calls⟩
  · rw [watchdog, hsettled]
    exact h.deadline
  · rw [now, hsettled]
    exact h.past
  · rw [now, hsettled]
    exact h.inTime

/-- What the owner does sets nothing under way. -/
theorem Complete.lull (h : s.Complete limit?) (hlull : Lull s t)
    (watchdog : t.watchdog = s.watchdog) (now : t.now = s.now) : t.Complete limit? := by
  obtain ⟨-, hpending, hsettled, -⟩ := lull_history limit? hlull
  exact ⟨h.ticks.lull hlull watchdog now, hpending.trans h.pending,
    now.trans (h.now.trans hsettled.symm)⟩

/-- What the owner does leaves the operation under way. -/
theorem Underway.lull {operation : Operation} (h : s.Underway limit? operation)
    (hlull : Lull s t) (watchdog : t.watchdog = s.watchdog) (now : t.now = s.now) :
    t.Underway limit? operation := by
  obtain ⟨-, hpending, -, -⟩ := lull_history limit? hlull
  exact ⟨h.ticks.lull hlull watchdog now, hpending ▸ h.pending⟩

/-- A call that is not the last one sets nothing under way. -/
theorem Complete.notify (h : s.Complete limit?) {notice : Notice}
    (hterminal : notice.isTerminal = false) : (s.notify notice).Complete limit? := by
  have htold : ({ s with reactions := (s.reactions.take notice).2 }.record
      (.notified notice)).Complete limit? :=
    Complete.record (s := { s with reactions := (s.reactions.take notice).2 })
      (h.congr rfl rfl rfl) rfl hterminal
  obtain ⟨hwatchdog, hnow⟩ := watchdog_actAll
    ({ s with reactions := (s.reactions.take notice).2 }.record (.notified notice))
    (s.reactions.take notice).1
  exact htold.lull (lull_notify s notice) hwatchdog hnow

/-- A completion is progress: it sets the deadline anew. -/
theorem Underway.settle {operation : Operation} (h : s.Underway limit? operation) :
    s.settle.Complete limit? := by
  obtain ⟨hticks, start, hpending, -⟩ := h
  have hstart := (hticks.paced.pending?_eq_some hpending).2
  -- The deadline moves on, because the last completion is past.
  have hlater : ∀ limit, s.watchdog.timeout = some limit →
      s.watchdog.deadline ≤ s.now + limit := by
    intro limit hlimit
    rw [hticks.deadline limit (hticks.limit.symm.trans hlimit)]
    exact Nat.add_le_add_right hticks.past limit
  obtain ⟨htimer, hdeadline⟩ := Watchdog.reset_spec hticks.timer hlater
  rw [hticks.limit] at hdeadline
  have hwithin : IsWithin limit? start.time s.now := by
    rw [hstart]
    exact hticks.inTime
  refine ⟨⟨(timeout_reset _ _).trans hticks.limit, htimer, hdeadline, ⟨hticks.paced, ?_⟩,
    Nat.le_refl _, fun limit _ => Nat.le_add_right _ _, ?_⟩, rfl, rfl⟩
  · exact ⟨nofun, fun _ => ⟨start, hpending, hwithin⟩, nofun⟩
  · intro entry hmem
    rcases List.mem_cons.1 hmem with rfl | hmem
    · rfl
    · exact hticks.calls entry hmem

/-- An operation is under way until the log says otherwise. -/
theorem Underway.congr {operation : Operation} (h : s.Underway limit? operation)
    (watchdog : t.watchdog = s.watchdog) (now : t.now = s.now) (history : t.history = s.history) :
    t.Underway limit? operation :=
  ⟨h.ticks.congr watchdog now history, history ▸ h.pending⟩

/-- The stream takes something only while an operation writes. -/
theorem Underway.output {operation : Operation} (h : s.Underway limit? operation)
    (hwrites : operation.writes = true) {event : Event} (hbegins : event.isBeginning = false)
    (hsettled : event.isSettled = false) (hcall : event.isLastCall = false) :
    (s.record event).Underway limit? operation := by
  obtain ⟨hticks, start, hpending, hstart⟩ := h
  refine ⟨hticks.record hsettled hcall ⟨hticks.paced, ?_⟩, start, ?_, hstart⟩
  · refine ⟨fun hthis => ?_, fun hthis => ?_, fun _ => ⟨start, hpending, hstart hwrites⟩⟩
    · rw [show event.isBeginning = true from hthis] at hbegins
      cases hbegins
    · rw [show event.isSettled = true from hthis] at hsettled
      cases hsettled
  · exact (pending?_cons hbegins hsettled).trans hpending

/-! ### What operations come to -/

/-- Between two operations the work may stop, for any reason but the limit. -/
theorem timed_conclude (h : s.Complete limit?) {ending : Ending}
    (hother : ending ≠ .failed .connectionTimeout) : (s.conclude ending).Timed limit? :=
  .stopped rfl (h.ticks.congr rfl rfl rfl) hother fun _ => h.pending

/-- Between two operations the work may fail, with any error but that of the limit. -/
theorem timed_fail (h : s.Complete limit?) {error : Error} (hother : error ≠ .connectionTimeout) :
    (s.fail error).Timed limit? :=
  timed_conclude h fun heq => hother (Ending.failed.inj heq)

/-- A shutdown request may cut short whatever is under way. -/
theorem timed_cancel (h : s.Ticks limit?) : (s.conclude .cancelled).Timed limit? :=
  .stopped rfl (h.congr rfl rfl rfl) (by decide) fun hne => absurd rfl hne

/-- The next operation begins without a gap. -/
theorem timed_attempt (h : s.Complete limit?) {operation : Operation}
    (hwrites : operation.writes = true → (Event.began operation).beginsWrite = true) :
    (s.attempt operation).Timed limit? := by
  unfold attempt
  split
  · exact timed_cancel h.ticks
  · obtain ⟨hticks, hpending, hnow⟩ := h
    have htask : ({ s with task := .attempting operation } : Session).Ticks limit? :=
      hticks.congr rfl rfl rfl
    exact .attempting rfl ⟨htask.record rfl rfl
      ⟨hticks.paced, fun _ => ⟨hpending, hnow⟩, nofun, nofun⟩, _, rfl, hwrites⟩

/-- The next attempt begins at the instant at which the last one failed. -/
theorem timed_connectNext (h : s.Complete limit?) (candidate : Nat) (last : IoError)
    (candidates : Candidates) : (s.connectNext candidate last candidates).Timed limit? := by
  cases candidates with
  | nil => exact timed_fail h (by simp)
  | cons endpoint others => exact timed_attempt (h.enter _) fun hwrites => by cases hwrites

/-- With the answer of the resolver the lookup is complete. -/
theorem timed_resolved (h : s.Underway limit? .resolve) (result : Except IoError Candidates) :
    (s.resolved result).Timed limit? := by
  have hs := h.settle
  unfold resolved
  split
  · exact timed_fail hs (by simp)
  · exact timed_fail hs (by simp)
  · exact timed_connectNext hs _ _ _

/-- With a result the attempt is complete. -/
theorem timed_connected {candidate : Nat} {endpoint : Endpoint} {others : Candidates}
    (h : s.Underway limit? (.connect candidate endpoint others)) (result : Except IoError Peer) :
    (s.connected candidate others result).Timed limit? := by
  have hs : ({ s with attempts := s.attempts.tail } : Session).settle.Complete limit? :=
    Underway.settle (h.congr rfl rfl rfl)
  unfold connected
  cases result with
  | error cause => exact timed_connectNext hs _ _ _
  | ok peer =>
    refine timed_attempt ?_ fun _ => rfl
    exact Complete.enter
      (s := { ({ s with attempts := s.attempts.tail } : Session).settle with peer := some peer })
      (hs.congr rfl rfl rfl) .writing

/-- With bytes still to be written the write goes on, in the same operation. -/
theorem timed_written {purpose : Purpose} {bytes : Bytes}
    (h : s.Underway limit? (.write purpose bytes))
    (htask : s.task = .attempting (.write purpose bytes)) (result : Except IoError Nat) :
    (s.written purpose bytes result).Timed limit? := by
  unfold written
  cases result with
  | error cause =>
    -- An interruption is no completion: the operation is still under way.
    simp only
    split
    · exact .attempting htask h
    · exact timed_fail h.settle (by simp)
  | ok limit =>
    have hw : (s.record (.wrote (bytes.take limit))).Underway limit? (.write purpose bytes) :=
      h.output rfl rfl rfl rfl
    simp only
    split
    · exact timed_fail hw.settle (by simp)
    · -- What is left is written on, in the same operation.
      exact .attempting rfl ⟨hw.ticks.congr rfl rfl rfl, hw.pending⟩

/-- With its result the flush is complete. -/
theorem timed_flushed {purpose : Purpose} (h : s.Underway limit? (.flush purpose))
    (result : Except IoError Unit) : (s.flushed purpose result).Timed limit? := by
  unfold flushed
  cases result with
  | error cause => exact timed_fail h.settle (by simp)
  | ok u =>
    have hf : (s.record .flushed).Underway limit? (.flush purpose) := h.output rfl rfl rfl rfl
    cases purpose with
    | request => exact .decoding rfl ((hf.settle.enter .readingStatus).congr rfl rfl rfl)
    | uplink => exact timed_attempt hf.settle fun hwrites => by cases hwrites

/-- Bytes that arrive are read in the same operation; the end of the stream completes it. -/
theorem timed_readable (h : s.Underway limit? .read) (htask : s.task = .attempting .read)
    (result : Except IoError Bytes) : (s.readable result).Timed limit? := by
  unfold readable
  cases result with
  | error cause => exact timed_fail h.settle (by simp)
  | ok bytes =>
    simp only
    split
    · exact timed_conclude h.settle (by simp)
    · exact .attempting htask (h.congr rfl rfl rfl)

/-- With bytes for the decoder the read is complete. -/
theorem timed_receive (h : s.Underway limit? .read) : s.receive.Timed limit? := by
  have hs : ({ s with
      arrived := s.arrived.drop s.connection.config.readLimit } : Session).settle.Complete limit? :=
    Underway.settle (h.congr rfl rfl rfl)
  have hr : (({ s with arrived := s.arrived.drop s.connection.config.readLimit } :
      Session).settle.record (.received (s.arrived.take s.connection.config.readLimit))).Complete
        limit? := hs.record rfl rfl
  exact .decoding rfl (hr.congr rfl rfl rfl)

/-- An operation that gets its result, or a part of it, keeps the pace. -/
theorem timed_yields {operation : Operation} (htask : s.task = .attempting operation)
    (h : s.Underway limit? operation) (hyields : Yields s operation t) : t.Timed limit? := by
  cases hyields with
  | @resolved result rest =>
    exact timed_resolved (s := s.putLookup rest) (h.congr rfl rfl rfl) result
  | @connected candidate endpoint others result rest =>
    exact timed_connected (s := s.putAttempt rest) (h.congr rfl rfl rfl) result
  | offered => exact .attempting rfl ⟨h.ticks.congr rfl rfl rfl, h.pending⟩
  | @written purpose bytes result rest =>
    exact timed_written (s := s.putWrites rest) (h.congr rfl rfl rfl) htask result
  | @flushed purpose result rest =>
    exact timed_flushed (s := s.putFlushes rest) (h.congr rfl rfl rfl) result
  | @readable result rest =>
    exact timed_readable (s := s.putReads rest) (h.congr rfl rfl rfl) htask result
  | received => exact timed_receive h
  | @message message uplink htake =>
    have htaken : ({ s with uplink } : Session).Underway limit? .read := h.congr rfl rfl rfl
    exact timed_attempt htaken.settle fun _ => rfl

/-! ### Waiting -/

/-- A session that waits is woken up by its limit at the latest. -/
theorem underway_wakes {operation : Operation} (h : s.Underway limit? operation)
    {until? : Option Nat} {watchdog : Watchdog} (hpoll : s.watchdog.poll s.now = (false, watchdog))
    {now : Nat} {schedule : List (Nat × Action)} {due : List Action}
    (hwakes : Wakes { s with watchdog } (earliest until? watchdog.alarm?) t now schedule due) :
    t.Underway limit? operation := by
  obtain ⟨hticks, hpending⟩ := h
  obtain ⟨htimeout, hdeadline, htimer, -⟩ := Watchdog.poll_spec hticks.timer hpoll
  have hinTime : ∀ limit, limit? = some limit → now ≤ lastSettled s.history + limit := by
    intro limit hlimit
    -- The alarm is set to the deadline, and the session does not sleep longer.
    have halarm : watchdog.alarm? = some (lastSettled s.history + limit) := by
      rw [Watchdog.alarm?_eq htimer, htimeout, hticks.limit, hlimit, hdeadline,
        hticks.deadline limit hlimit]
      rfl
    cases until? with
    | none => exact hwakes.inTime _ (by rw [halarm]; rfl)
    | some instant =>
      have := hwakes.inTime _ (show earliest (some instant) watchdog.alarm?
        = some (min instant (lastSettled s.history + limit)) by rw [halarm]; rfl)
      omega
  have hset : ({ s with now, schedule, watchdog } : Session).Ticks limit? :=
    ⟨htimeout.trans hticks.limit, htimer, by rw [hdeadline]; exact hticks.deadline, hticks.paced,
      Nat.le_trans hticks.past hwakes.later, hinTime, hticks.calls⟩
  have hwoken : ({ s with now, schedule, watchdog } : Session).Underway limit? operation :=
    ⟨hset, hpending⟩
  rw [hwakes.eq]
  obtain ⟨hsame, hnow⟩ := watchdog_actAll { s with now, schedule, watchdog } due
  exact hwoken.lull (lull_actAll _ due) hsame hnow

/-- The limit cannot be exceeded in a wait, so when the watchdog tells, it is reached just now. -/
theorem expires_of_poll {operation : Operation} {until? : Option Nat}
    (hawaits : Awaits s operation until?) (h : s.Underway limit? operation)
    (hpoll : (s.watchdog.poll s.now).1 = true) :
    s.step = s.fail .connectionTimeout ∧
      ∃ limit, limit? = some limit ∧ s.now = lastSettled s.history + limit := by
  cases hwatch : s.watchdog.poll s.now with
  | mk expired watchdog =>
    obtain ⟨-, -, -, hexpired⟩ := Watchdog.poll_spec h.ticks.timer hwatch
    rw [hwatch] at hpoll
    obtain ⟨hsome, hreached⟩ := hexpired.1 hpoll
    rw [h.ticks.limit] at hsome
    constructor
    · have htold : expired = true := hpoll
      rw [step_of_awaits hawaits, idle, hwatch, htold]
      rfl
    · cases hlimit : limit? with
      | none => exact absurd hlimit hsome
      | some limit =>
        -- The deadline is not later than now, and by the invariant not earlier either.
        have hdeadline := h.ticks.deadline limit hlimit
        have hinTime := h.ticks.inTime limit hlimit
        exact ⟨limit, rfl, by omega⟩

/-- A session that waits, and has not reached its limit, goes on in time. -/
theorem timed_idle {operation : Operation} {until? : Option Nat}
    (hawaits : Awaits s operation until?) (h : s.Underway limit? operation)
    (hpoll : (s.watchdog.poll s.now).1 = false) : s.step.Timed limit? := by
  cases hwatch : s.watchdog.poll s.now with
  | mk expired watchdog =>
    obtain ⟨htimeout, -, htimer, -⟩ := Watchdog.poll_spec h.ticks.timer hwatch
    have htold : expired = false := by rw [hwatch] at hpoll; exact hpoll
    subst htold
    have hstep : s.step = ({ s with watchdog }.sleep (earliest until? watchdog.alarm?)).heed := by
      rw [step_of_awaits hawaits, idle, hwatch]
      rfl
    rw [hstep]
    -- The alarm lies ahead, since the watchdog has just been polled without expiring.
    rcases sleep_wakes { s with watchdog } (earliest_later (fun _ => hawaits.waits.lt) hwatch) with
      ⟨hnone, -, hstuck⟩ | ⟨now, schedule, due, hwakes⟩
    · -- Nothing wakes the session up, so there is no limit either.
      have hunlimited : limit? = none := by
        cases hlimit : limit? with
        | none => rfl
        | some limit =>
          rw [Watchdog.alarm?_eq htimer, htimeout, h.ticks.limit, hlimit] at hnone
          cases until? <;> cases hnone
      have hnever : ∀ limit, limit? = some limit →
          watchdog.deadline = lastSettled s.history + limit := by
        intro limit hlimit
        rw [hunlimited] at hlimit
        cases hlimit
      have hticks : ({ s with watchdog } : Session).Ticks limit? :=
        ⟨htimeout.trans h.ticks.limit, htimer, hnever, h.ticks.paced, h.ticks.past,
          h.ticks.inTime, h.ticks.calls⟩
      have hcalm : ({ s with watchdog, task := .stuck } : Session).stopRequested = false :=
        hawaits.calm
      rw [hstuck, heed, if_neg (by rw [hcalm]; decide)]
      exact .stuck rfl (hticks.congr rfl rfl rfl) hunlimited
    · have hunderway := underway_wakes h hwatch hwakes
      have htask : ({ s with watchdog }.sleep (earliest until? watchdog.alarm?)).task
          = .attempting operation := by
        rw [hwakes.eq, task_actAll]
        exact hawaits.task
      unfold heed
      split
      · exact timed_cancel hunderway.ticks
      · exact .attempting htask hunderway

/-! ### Decoding -/

/-- A decoder fails because of what it reads. -/
theorem advance_ne_connectionTimeout (limits : Limits) (decoder : Decoder) :
    (decoder.advance limits).1 ≠ .failed .connectionTimeout := by
  simp only [Decoder.advance, Decoder.takeStatus, Decoder.takeHeaders, Decoder.takeChunkSize,
    Decoder.takeChunkData, Decoder.takeChunkEnd]
  repeat' split
  all_goals simp

/-- Decoding happens between two operations. -/
theorem timed_stepDecoder (h : s.Complete limit?) (htask : s.task = .decoding) :
    s.stepDecoder.Timed limit? := by
  unfold stepDecoder
  cases hadvance : s.decoder.advance s.limits with
  | mk signal decoder =>
    have hs : ({ s with decoder } : Session).Complete limit? := h.congr rfl rfl rfl
    cases signal with
    | more => exact timed_attempt hs fun hwrites => by cases hwrites
    | proceed => exact .decoding htask hs
    | accepted status =>
      simp only
      split
      · exact .decoding htask (hs.enter _)
      · exact .decoding htask (hs.enter _)
    | headers map =>
      -- The owner is called, unless a shutdown was requested.
      simp only
      split
      · exact timed_cancel hs.ticks
      · have hkept := (lull_notify { s with decoder } (.headers map)).kept.task
        exact .decoding (hkept.trans htask) ((hs.notify rfl).enter _)
    | data bytes =>
      simp only
      split
      · exact timed_cancel hs.ticks
      · have hkept := (lull_notify { s with decoder } (.data bytes)).kept.task
        exact .decoding (hkept.trans htask) (hs.notify rfl)
    | finished => exact timed_conclude hs (by simp)
    | failed error =>
      refine timed_fail hs ?_
      rintro rfl
      exact advance_ne_connectionTimeout s.limits s.decoder (by rw [hadvance])

/-! ### Every move of a session at work -/

/-- As long as the limit is not reached, a session at work goes on in time. -/
theorem timed_step (hworks : s.task.isWorking = true) (h : s.Timed limit?)
    (hpoll : ∀ operation until?, Awaits s operation until? →
      (s.watchdog.poll s.now).1 = false) : s.step.Timed limit? := by
  cases h with
  | attempting htask h =>
    cases turnout_of_attempting htask with
    | yields hyields => exact timed_yields htask h hyields
    | moment hmoment =>
      exact .attempting (hmoment.lull.kept.task.trans htask)
        (h.lull hmoment.lull hmoment.watchdog hmoment.now)
    | cancelled _ hstep =>
      rw [hstep]
      exact timed_cancel h.ticks
    | awaits until? hawaits => exact timed_idle hawaits h (hpoll _ until? hawaits)
  | decoding htask h =>
    rw [step_decoding htask]
    exact timed_stepDecoder h htask
  | stopped htask => rw [htask] at hworks; cases hworks
  | stuck htask => rw [htask] at hworks; cases hworks

/-- What is under way in a session that waits. -/
theorem Timed.underway (h : s.Timed limit?) {operation : Operation}
    (htask : s.task = .attempting operation) : s.Underway limit? operation := by
  cases h with
  | attempting htask' h =>
    cases htask.symm.trans htask'
    exact h
  | decoding htask' => rw [htask] at htask'; cases htask'
  | stopped htask' => rw [htask] at htask'; cases htask'
  | stuck htask' => rw [htask] at htask'; cases htask'

/-- A limit is never zero. -/
theorem timeout_new (config : Config) :
    (Watchdog.new config.idleTimeout 0).timeout = config.idleTimeout := by
  show config.idleTimeout.filter (· != 0) = config.idleTimeout
  unfold Config.idleTimeout
  cases config.timeout with
  | none => rfl
  | some limit => by_cases hzero : limit = 0 <;> simp [hzero]

/-- A session is in time when it starts. -/
theorem timed_start (connection : Connection) (plan : Plan) :
    (start connection plan).Timed connection.config.idleTimeout := by
  rw [start_eq]
  refine timed_attempt ?_ fun hwrites => by cases hwrites
  refine Complete.enter ?_ _
  refine Complete.record ?_ rfl rfl
  have hblank : (blank connection plan).Complete connection.config.idleTimeout := by
    refine ⟨⟨timeout_new _, Nat.le_refl _, ?_, trivial, Nat.le_refl _, ?_, ?_⟩, rfl, rfl⟩
    · intro limit hlimit
      show 0 + (connection.config.idleTimeout.filter (· != 0)).getD 0 = 0 + limit
      rw [show connection.config.idleTimeout.filter (· != 0) = some limit from
        (timeout_new _).trans hlimit]
      rfl
    · intro limit _
      exact Nat.zero_le _
    · intro entry hmem
      cases hmem
  -- Nothing but what the owner does before the start lies in between.
  obtain ⟨hwatchdog, hnow⟩ := watchdog_actAll (blank connection plan) plan.before
  exact (hblank.lull (lull_actAll _ plan.before) hwatchdog hnow).congr rfl rfl rfl

end Session

end NtripClient
