import Mathlib.Data.List.Nodup
import NtripClient.Proofs.Answer.Route
import NtripClient.Proofs.Session.Passage

/-!
# `NtripClient.Proofs.Session.States`: the way of a session through its states

`forward_only` is the main statement. The states that a session shows one after another are the
front of a `State.route`, cut off where the session stopped, and then the closed one. The route is
a function of two things: which candidate answered, and the bytes received. A session that comes to
an end has closed (`states_run`).

`Session.states` reads the states off the log. Moves within one state leave them as they are
(`Shows.stays`), and entering another one adds it at the end (`Shows.enter`). The invariant is
`Travels`: at each place of the work the states shown are those that lead there (`Reaches`), which
for the answer depends on the part of it that the decoder is at (`ReadSoFar`), and once the work has
stopped they are cut off (`IsCut`). `Shows` also says of every entry of the log that it stands in
the right state (`Entry.Fits`).
-/

set_option autoImplicit false

namespace NtripClient

/-! ### The route -/

/-- The states behind the lookup: one for each candidate up to the one that answers, then the
request, then the answer. -/
def State.route (last : Nat) (bytes : Bytes) : List State :=
  (List.range (last + 1)).map .connecting ++ .writing :: State.ofAnswer bytes

/-- The candidates that a lookup comes to, all with this port number. -/
def Script.candidates (script : Script (Except IoError Candidates)) (port : UInt16) : Candidates :=
  match script.essence with
  | .result (.ok found) :: _ => Candidates.withPort found port
  | _ => []

/-- A call of the owner belongs to this state. -/
def Notice.Fits (state : State) : Notice → Prop
  | .headers _ => state = .readingHeaders
  | .data _ => state.isActive = true
  | .eof => state.isActive = true
  | .error _ => state ≠ .idle ∧ state ≠ .closed

/-- A call stands in the right state, and so does an attempt to connect, which is to the
candidate with its number. -/
def Entry.Fits (candidates : Candidates) (entry : Entry) : Prop :=
  match entry.event with
  | .notified notice => notice.Fits entry.state
  | .began (.connect candidate endpoint _) =>
    entry.state = .connecting candidate ∧ candidates[candidate]? = some endpoint
  | _ => True

/-- Plain entries fit anywhere. -/
theorem Entry.fits_of_isPlain {candidates : Candidates} {entry : Entry}
    (h : entry.event.isPlain = true) : entry.Fits candidates := by
  unfold Entry.Fits
  split
  · rename_i hevent
    rw [hevent] at h
    cases h
  · rename_i hevent
    rw [hevent] at h
    cases h
  · trivial

/-! ### What the route is made of -/

section
variable {bytes : Bytes}

/-- A candidate in front of states without any is one of those tried. -/
theorem State.le_of_connecting_mem {last candidate : Nat} {later : List State}
    (hlater : ∀ other, .connecting other ∉ later)
    (hmem : .connecting candidate ∈ (List.range (last + 1)).map State.connecting ++ later) :
    candidate ≤ last := by
  rcases List.mem_append.1 hmem with hmem | hmem
  · obtain ⟨other, hother, heq⟩ := List.mem_map.1 hmem
    cases heq
    exact Nat.lt_succ_iff.1 (List.mem_range.1 hother)
  · exact absurd hmem (hlater candidate)

/-- Every state on the way lies behind the lookup, and is not the last one. -/
theorem State.mem_route {last : Nat} {state : State} (h : state ∈ State.route last bytes) :
    state ≠ .idle ∧ state ≠ .resolving ∧ state ≠ .closed := by
  rcases List.mem_append.1 h with hmem | hmem
  · obtain ⟨other, -, rfl⟩ := List.mem_map.1 hmem
    simp
  rcases List.mem_cons.1 hmem with rfl | hmem
  · simp
  · rcases State.mem_ofAnswer hmem with rfl | rfl | ⟨framing, rfl⟩ <;> simp

/-- A chunked body lies behind a status line that does not skip the headers. -/
theorem State.skipsHeaders_of_mem_route {last : Nat}
    (h : .streaming .chunked ∈ State.route last bytes) :
    ∃ status, statusLine? bytes = some status ∧ status.skipsHeaders = false := by
  have hanswer : State.streaming .chunked ∈ State.ofAnswer bytes := by
    rcases List.mem_append.1 h with hmem | hmem
    · simp at hmem
    · simpa using hmem
  rcases State.ofAnswer_cases bytes with
    heq | ⟨status, -, -, heq⟩ | ⟨status, framing?, hstatus, hskips, -⟩
  · simp [heq] at hanswer
  · simp [heq] at hanswer
  · exact ⟨status, hstatus, hskips⟩

end

/-! ### The states that lead to a place -/

/-- The states behind the lookup that lead to a place of the work. -/
inductive Reaches (candidates : Candidates) (bytes : Bytes) (d : Decoder) :
    Place → List State → Prop where
  | lookup : Reaches candidates bytes d .lookup []
  /-- A candidate is tried after all before it. -/
  | attempt {candidate : Nat} {endpoint : Endpoint} {others : Candidates}
      (rest : candidates.drop candidate = endpoint :: others) :
      Reaches candidates bytes d (.attempt candidate endpoint others)
        ((List.range (candidate + 1)).map .connecting)
  /-- The request comes after the candidate that answers. -/
  | request {last : Nat} (within : last < candidates.length) :
      Reaches candidates bytes d .request
        ((List.range (last + 1)).map .connecting ++ [.writing])
  /-- The answer comes after the request. -/
  | answer {last : Nat} {place : Place} {read : List State} (late : place.isEarly = false)
      (within : last < candidates.length) (sofar : ReadSoFar bytes d read) :
      Reaches candidates bytes d place
        ((List.range (last + 1)).map .connecting ++ .writing :: read)

namespace Reaches

variable {candidates : Candidates} {bytes : Bytes} {d : Decoder} {place : Place}
  {reached : List State}

/-- A candidate that is left is one of the candidates. -/
theorem lt_of_drop {candidate : Nat} {endpoint : Endpoint} {others : Candidates}
    (h : candidates.drop candidate = endpoint :: others) : candidate < candidates.length := by
  rw [← Nat.not_le]
  intro hle
  rw [List.drop_of_length_le hle] at h
  cases h

/-- These states are the front of a route, and each candidate among them is there. -/
theorem front (h : Reaches candidates bytes d place reached) :
    ∃ last, reached <+: State.route last bytes ∧
      ∀ candidate, .connecting candidate ∈ reached → candidate < candidates.length := by
  cases h with
  | lookup => exact ⟨0, List.nil_prefix, fun candidate hmem => by cases hmem⟩
  | @attempt tried endpoint others rest =>
    refine ⟨tried, List.prefix_append _ _, ?_⟩
    intro candidate hmem
    rw [← List.append_nil (List.map _ _)] at hmem
    exact Nat.lt_of_le_of_lt (State.le_of_connecting_mem (by simp) hmem) (lt_of_drop rest)
  | @request last within =>
    refine ⟨last, ?_, ?_⟩
    · exact (List.prefix_append_right_inj _).2 (List.cons_prefix_cons.2 ⟨rfl, List.nil_prefix⟩)
    · intro candidate hmem
      exact Nat.lt_of_le_of_lt (State.le_of_connecting_mem (by simp) hmem) within
  | @answer last place read late within sofar =>
    have hread : ∀ other, .connecting other ∉ .writing :: read := by
      intro other hmem
      rcases List.mem_cons.1 hmem with h | hmem
      · cases h
      · exact State.connecting_not_mem_ofAnswer other bytes (sofar.isPrefix.subset hmem)
    refine ⟨last, ?_, ?_⟩
    · exact (List.prefix_append_right_inj _).2 (List.cons_prefix_cons.2 ⟨rfl, sofar.isPrefix⟩)
    · intro candidate hmem
      exact Nat.lt_of_le_of_lt (State.le_of_connecting_mem hread hmem) within

end Reaches

/-- Only the lookup itself has the place of the lookup. -/
theorem Task.eq_of_place_lookup {task : Task} (h : task.place? = some .lookup) :
    task = .attempting .resolve := by
  cases task with
  | attempting operation =>
    cases operation with
    | resolve => rfl
    | write purpose bytes => cases purpose <;> cases h
    | flush purpose => cases purpose <;> cases h
    | _ => cases h
  | _ => cases h

namespace Session

variable {s t u : Session} {origin : Connection} {candidates : Candidates} {shown : List State}

/-! ### The states shown -/

/-- The states up to an entry: that of the entry comes behind them if it is not the last one. -/
def shownWith (states : List State) (entry : Entry) : List State :=
  if states.getLast? = some entry.state then states else states ++ [entry.state]

/-- The states that a session has shown so far, one after another. -/
def states (s : Session) : List State :=
  s.log.foldl shownWith []

/-- Entries in the last state show no other one. -/
theorem foldl_shownWith {state : State} {entries : List Entry}
    (hlast : shown.getLast? = some state)
    (hall : ∀ entry ∈ entries, entry.state = state) :
    entries.foldl shownWith shown = shown := by
  induction entries with
  | nil => rfl
  | cons entry rest ih =>
    have hsame : shownWith shown entry = shown := by
      rw [shownWith, hall entry List.mem_cons_self, if_pos hlast]
    rw [List.foldl_cons, hsame]
    exact ih fun other hmem => hall other (List.mem_cons_of_mem _ hmem)

/-- These are the states shown, the last one is the state now, and every call was in its state. -/
structure Shows (s : Session) (candidates : Candidates) (shown : List State) : Prop where
  eq : s.states = shown
  last : shown.getLast? = some s.state
  fits : ∀ entry ∈ s.log, entry.Fits candidates

/-- The session stays in its state, and what is logged is in its state. -/
structure Stays (candidates : Candidates) (s t : Session) : Prop where
  state : t.state = s.state
  log : Adds (fun entry => entry.state = s.state ∧ entry.Fits candidates) s t

/-- A session that stays, and stays on, stays. -/
theorem Stays.trans (h : Stays candidates s t) (k : Stays candidates t u) :
    Stays candidates s u where
  state := k.state.trans h.state
  log := h.log.trans (h.state ▸ k.log)

/-- Plain moves leave the session in its state. -/
theorem Still.stays (h : Still s t) : Stays candidates s t := by
  obtain ⟨added, hlog, hplain⟩ := h.log
  refine ⟨h.state, added, hlog, ?_⟩
  intro entry hmem
  exact ⟨(hplain entry hmem).1, Entry.fits_of_isPlain (hplain entry hmem).2⟩

/-- An operation begins in the state that the session is in. -/
theorem stays_attempt (s : Session) {operation : Operation}
    (hfits : (s.entry (.began operation)).Fits candidates) :
    Stays candidates s (s.attempt operation) := by
  unfold Session.attempt
  split
  · exact ⟨rfl, adds_of_history rfl⟩
  · exact ⟨rfl, adds_record { s with task := .attempting operation } ⟨rfl, hfits⟩⟩

/-- The owner is called in the state that the session is in. -/
theorem stays_notify (s : Session) {notice : Notice} (hfits : notice.Fits s.state) :
    Stays candidates s (s.notify notice) := by
  have htold : Stays candidates s
      ({ s with reactions := (s.reactions.take notice).2 }.record (.notified notice)) :=
    ⟨rfl, adds_record { s with reactions := (s.reactions.take notice).2 } ⟨rfl, hfits⟩⟩
  exact htold.trans (lull_notify s notice).still.stays

/-- A session that stays shows no other state. -/
theorem Shows.stays (h : s.Shows candidates shown) (k : Stays candidates s t) :
    t.Shows candidates shown := by
  obtain ⟨added, hlog, hadded⟩ := k.log
  refine ⟨?_, k.state ▸ h.last, ?_⟩
  · rw [Session.states, hlog, List.foldl_append]
    show added.foldl shownWith s.states = shown
    rw [h.eq]
    exact foldl_shownWith h.last fun entry hmem => (hadded entry hmem).1
  · intro entry hmem
    rw [hlog] at hmem
    rcases List.mem_append.1 hmem with hold | hnew
    · exact h.fits entry hold
    · exact (hadded entry hnew).2

/-- The entry of a state is made in that state. -/
theorem exists_entry_enter (hopen : s.state.isClosed = false) (state : State) :
    ∃ entry : Entry, (s.enter state).log = s.log ++ [entry] ∧ entry.state = state ∧
      entry.event = .entered state :=
  ⟨_, log_record _ _, state_enter hopen state, rfl⟩

/-- Another state comes behind those shown. -/
theorem Shows.enter (h : s.Shows candidates shown) (hopen : s.state.isClosed = false)
    {state : State} (hne : s.state ≠ state) :
    (s.enter state).Shows candidates (shown ++ [state]) := by
  obtain ⟨entry, hlog, hstate, hevent⟩ := exists_entry_enter hopen state
  refine ⟨?_, ?_, ?_⟩
  · have hother : ¬ shown.getLast? = some entry.state := by
      rw [h.last, hstate]
      exact fun heq => hne (Option.some.inj heq)
    rw [Session.states, hlog, List.foldl_append]
    show shownWith s.states entry = _
    rw [h.eq, shownWith, if_neg hother, hstate]
  · rw [state_enter hopen, List.getLast?_append]
    rfl
  · intro other hmem
    rw [hlog] at hmem
    rcases List.mem_append.1 hmem with hold | hnew
    · exact h.fits other hold
    · rw [List.mem_singleton.1 hnew, Entry.Fits, hevent]
      trivial

/-! ### The way of a session -/

/-- The states shown are the first two, then a front of a route, and then the last one if the
session is closed. All candidates among them are those of the lookup. -/
def IsCut (s : Session) (candidates : Candidates) (shown : List State) : Prop :=
  ∃ last reached,
    shown = .idle :: .resolving :: (reached ++ if s.state.isClosed then [.closed] else []) ∧
      reached <+: State.route last s.received ∧
      ∀ candidate, .connecting candidate ∈ reached → candidate < candidates.length

/-- Where the way is cut off depends on the state and on the bytes received. -/
theorem IsCut.of_eq (h : s.IsCut candidates shown) (state : t.state = s.state)
    (received : t.received = s.received) : t.IsCut candidates shown := by
  unfold IsCut at h ⊢
  rw [state, received]
  exact h

/-- The session has come to a place, and the states shown are those that lead there. -/
structure Arrived (s : Session) (candidates : Candidates) (place : Place)
    (reached : List State) : Prop where
  isOpen : s.state.isClosed = false
  shows : s.Shows candidates (.idle :: .resolving :: reached)
  reaches : Reaches candidates s.received s.decoder place reached
  /-- What the lookup will come to is still ahead of it. -/
  lookup : place = .lookup → s.lookup.candidates s.connection.config.port = candidates

/-- At a place of the work the states shown are those that lead there. Once the work has stopped
they are cut off. -/
inductive Travels (candidates : Candidates) (s : Session) : Prop where
  | working {place : Place} {reached : List State} (task : s.task.place? = some place)
      (arrived : s.Arrived candidates place reached)
  | stopping {ending : Ending} {shown : List State} (task : s.task = .concluding ending)
      (shows : s.Shows candidates shown) (cut : s.IsCut candidates shown)
      (finished : ending = .finished → s.state.isActive = true)
  | past {shown : List State} (task : s.task.isOver = true ∨ s.task = .stuck)
      (shows : s.Shows candidates shown) (cut : s.IsCut candidates shown)

section
variable {place : Place} {reached : List State}

/-- Where the states shown lead to a place, they are cut off there. -/
theorem Arrived.isCut (h : s.Arrived candidates place reached) :
    s.IsCut candidates (.idle :: .resolving :: reached) := by
  obtain ⟨last, hfront, hwithin⟩ := h.reaches.front
  refine ⟨last, reached, ?_, hfront, hwithin⟩
  rw [h.isOpen]
  exact congrArg (fun states => State.idle :: .resolving :: states) (List.append_nil _).symm

/-- A session that stays may be at another place to which the same states lead. -/
theorem Arrived.stays (h : s.Arrived candidates place reached) (k : Stays candidates s t)
    (received : t.received = s.received) (next : Place)
    (reaches : Reaches candidates s.received t.decoder next reached)
    (lookup : next = .lookup → t.lookup.candidates t.connection.config.port = candidates) :
    t.Arrived candidates next reached where
  isOpen := k.state ▸ h.isOpen
  shows := h.shows.stays k
  reaches := received ▸ reaches
  lookup := lookup

/-- The session comes to another place by entering its state. -/
theorem Arrived.enter (h : s.Arrived candidates place reached) (k : Stays candidates s u)
    (received : u.received = s.received) {state : State} (hne : s.state ≠ state)
    (hopen : state.isClosed = false) (next : Place) (late : next ≠ .lookup)
    (reaches : Reaches candidates s.received u.decoder next (reached ++ [state])) :
    (u.enter state).Arrived candidates next (reached ++ [state]) where
  isOpen := by rwa [state_enter (k.state ▸ h.isOpen)]
  shows := (h.shows.stays k).enter (k.state ▸ h.isOpen) (k.state ▸ hne)
  reaches := by
    rw [received_enter, received]
    exact reaches
  lookup := fun heq => absurd heq late

/-- The work may stop at any place, and is finished only while the body is handed over. -/
theorem Arrived.conclude (h : s.Arrived candidates place reached) {ending : Ending}
    (finished : ending = .finished → s.state.isActive = true) :
    (s.conclude ending).Travels candidates :=
  .stopping rfl ⟨h.shows.eq, h.shows.last, h.shows.fits⟩ (h.isCut.of_eq rfl rfl) finished

/-- An operation begins at the place that the session has come to, or the work stops there. -/
theorem Arrived.attempt (h : s.Arrived candidates place reached) {operation : Operation}
    (hplace : (Task.attempting operation).place? = some place)
    (hfits : (s.entry (.began operation)).Fits candidates) :
    (s.attempt operation).Travels candidates := by
  have hlater := h.shows.stays (stays_attempt s hfits)
  by_cases hstop : s.stopRequested = true
  · rw [Session.attempt, if_pos hstop]
    exact h.conclude (fun heq => by cases heq)
  · rw [Session.attempt, if_neg hstop] at hlater ⊢
    refine .working hplace ⟨h.isOpen, hlater, ?_, h.lookup⟩
    rw [received_record_of_silent _ rfl]
    exact h.reaches

/-- A session that rests keeps to its way. -/
theorem Rests.travels (h : Rests s t) (htask : s.task.place? = some place)
    (k : s.Arrived candidates place reached) : t.Travels candidates := by
  have hstays : Stays candidates s t := h.stays
  rcases h.place with hsame | hstuck | ⟨ending, hending, hne, -⟩
  · refine .working (hsame.trans htask) (k.stays hstays h.received place (h.decoder ▸ k.reaches) ?_)
    rintro rfl
    have hlookup := h.lookup (Task.eq_of_place_lookup (hsame.trans htask))
    rw [← k.lookup rfl, Script.candidates, hlookup, h.connection]
    rfl
  · exact .past (.inr hstuck) (k.shows.stays hstays) (k.isCut.of_eq h.state h.received)
  · exact .stopping hending (k.shows.stays hstays) (k.isCut.of_eq h.state h.received)
      fun heq => absurd heq hne

/-- Where the answer is read, the states shown are those of a way through it. -/
theorem Arrived.answer (h : s.Arrived candidates .decoding reached) :
    ∃ last read, reached = (List.range (last + 1)).map .connecting ++ .writing :: read ∧
      last < candidates.length ∧ ReadSoFar s.received s.decoder read := by
  cases h.reaches with
  | answer late within sofar => exact ⟨_, _, rfl, within, sofar⟩

/-- The next candidate is tried once all before it were. -/
theorem Arrived.tries (h : s.Arrived candidates place reached) (k : Still s u)
    {candidate : Nat} {endpoint : Endpoint} {others : Candidates}
    (hrest : candidates.drop candidate = endpoint :: others)
    (hreached : reached = (List.range candidate).map .connecting)
    (hne : s.state ≠ .connecting candidate) :
    ((u.enter (.connecting candidate)).attempt (.connect candidate endpoint others)).Travels
      candidates := by
  have hreaches : Reaches candidates s.received u.decoder (.attempt candidate endpoint others)
      (reached ++ [.connecting candidate]) := by
    have hway : reached ++ [.connecting candidate]
        = (List.range (candidate + 1)).map State.connecting := by
      rw [List.range_succ, List.map_append, hreached]
      rfl
    rw [hway]
    exact .attempt hrest
  have harrived := h.enter k.stays k.received hne rfl _ (by simp) hreaches
  refine harrived.attempt rfl ⟨state_enter (k.state ▸ h.isOpen) _, ?_⟩
  rw [← List.head?_drop, hrest]
  rfl

/-- The lookup ends with the candidates that were ahead of it. -/
theorem Arrived.finds (h : s.Arrived candidates .lookup reached) (hstands : s.Stands origin .lookup)
    (k : Still s u) {found : Candidates} {rest : Script (Except IoError Candidates)}
    {endpoint : Endpoint} {others : Candidates} (hgives : s.lookup.Gives (.ok []) (.ok found) rest)
    (hcandidates : Candidates.withPort found s.connection.config.port = endpoint :: others) :
    ((u.enter (.connecting 0)).attempt (.connect 0 endpoint others)).Travels candidates := by
  have hall : candidates = endpoint :: others := by
    rw [← h.lookup rfl, ← hcandidates, Script.candidates]
    rcases hgives with ⟨-, hvalue, -⟩ | hscript
    · cases hvalue
      cases hcandidates
    · rw [hscript]
      rfl
  have hreached : reached = [] := by
    cases h.reaches with
    | lookup => rfl
    | answer late => cases late
  exact h.tries k (by rw [hall]; rfl) hreached (by simp [hstands.state, Place.state])

/-- An attempt that fails leads to the next candidate. -/
theorem Arrived.triesNext {candidate : Nat} {failed endpoint : Endpoint} {others : Candidates}
    (h : s.Arrived candidates (.attempt candidate failed (endpoint :: others)) reached)
    (hstands : s.Stands origin (.attempt candidate failed (endpoint :: others))) (k : Still s u) :
    ((u.enter (.connecting (candidate + 1))).attempt
      (.connect (candidate + 1) endpoint others)).Travels candidates := by
  cases h.reaches with
  | answer late => cases late
  | attempt hrest =>
    have hnext : candidates.drop (candidate + 1) = endpoint :: others := by
      rw [← List.tail_drop, hrest]
      rfl
    exact h.tries k hnext rfl (by simp [hstands.state, Place.state])

/-- An attempt that succeeds leads to the request. -/
theorem Arrived.connects {candidate : Nat} {endpoint : Endpoint} {others : Candidates}
    (h : s.Arrived candidates (.attempt candidate endpoint others) reached)
    (hstands : s.Stands origin (.attempt candidate endpoint others)) (k : Still s u)
    (bytes : Bytes) : ((u.enter .writing).attempt (.write .request bytes)).Travels candidates := by
  have hreaches : Reaches candidates s.received u.decoder .request (reached ++ [.writing]) := by
    cases h.reaches with
    | answer late => cases late
    | attempt hrest => exact .request (Reaches.lt_of_drop hrest)
  have harrived := h.enter k.stays k.received (by simp [hstands.state, Place.state]) rfl _
    (by simp) hreaches
  exact harrived.attempt rfl trivial

/-- Behind the request comes the answer, all of which is still ahead. -/
theorem Arrived.asks (h : s.Arrived candidates .request reached)
    (hstands : s.Stands origin .request) (k : Still s u) :
    ({ u.enter .readingStatus with task := .decoding } : Session).Travels candidates := by
  obtain ⟨hdecoder, hreceived⟩ := hstands.fresh rfl
  have hsofar : ReadSoFar s.received u.decoder [.readingStatus] := by
    rw [k.decoder, hdecoder, hreceived]
    exact .status rfl rfl
  have hreaches : Reaches candidates s.received u.decoder .decoding
      (reached ++ [.readingStatus]) := by
    cases h.reaches with
    | answer late => cases late
    | request within =>
      rw [List.append_assoc]
      exact .answer rfl within hsofar
  have harrived := h.enter k.stays k.received (by simp [hstands.state, Place.state]) rfl
    _ (by simp) hreaches
  exact .working rfl ⟨harrived.isOpen, ⟨harrived.shows.eq, harrived.shows.last,
    harrived.shows.fits⟩, harrived.reaches, fun heq => by cases heq⟩

/-- What arrives is more of the same answer. -/
theorem Arrived.receives (h : s.Arrived candidates .waiting reached) (k : Still s u)
    (bytes : Bytes) :
    ({ u.record (.received bytes) with
      decoder := u.decoder.push bytes, task := .decoding } : Session).Travels candidates := by
  have hstays : Stays candidates s (u.record (.received bytes)) :=
    k.stays.trans ⟨rfl, adds_record u ⟨rfl, trivial⟩⟩
  have hshows := h.shows.stays hstays
  have hreceived : (u.record (.received bytes)).received = s.received ++ bytes :=
    (received_record u _).trans (congrArg (· ++ bytes) k.received)
  have hreaches : Reaches candidates (u.record (.received bytes)).received
      (u.decoder.push bytes) .decoding reached := by
    rw [hreceived, k.decoder]
    cases h.reaches with
    | answer late within sofar => exact .answer rfl within (sofar.push bytes)
  exact .working rfl ⟨hstays.state ▸ h.isOpen, ⟨hshows.eq, hshows.last, hshows.fits⟩, hreaches,
    fun heq => by cases heq⟩

/-- An operation leads to the next place of the way, or leaves the session where it is. -/
theorem Leads.travels (h : Leads s t) (hplace : s.IsInPlace origin)
    (htask : s.task.place? = some place) (k : s.Arrived candidates place reached) :
    t.Travels candidates := by
  have hstands := hplace place htask
  -- The place is that of the task, and one way leads on from it.
  cases h with
  | rests hrests => exact hrests.travels htask k
  | found hstill hresolve hgives hcandidates =>
    rw [hresolve] at htask
    cases htask
    exact k.finds hstands hstill hgives hcandidates
  | next hstill hconnect =>
    rw [hconnect] at htask
    cases htask
    exact k.triesNext hstands hstill
  | connected hstill hconnect =>
    rw [hconnect] at htask
    cases htask
    exact k.connects hstands hstill _
  | asked hstill hflush =>
    rw [hflush] at htask
    cases htask
    exact k.asks hstands hstill
  | received bytes hstill hread =>
    rw [hread] at htask
    cases htask
    exact k.receives hstill bytes

/-- The state of the next part of the answer is entered. -/
theorem Arrived.enterNext {last : Nat} {read : List State}
    (h : s.Arrived candidates .decoding
      ((List.range (last + 1)).map .connecting ++ .writing :: read))
    (within : last < candidates.length) (k : Stays candidates s u)
    (received : u.received = s.received) (task : u.task = .decoding) {state : State}
    (hne : s.state ≠ state) (hopen : state.isClosed = false)
    (hread : ReadSoFar s.received u.decoder (read ++ [state])) :
    (u.enter state).Travels candidates := by
  refine .working (congrArg Task.place? task)
    (h.enter k received hne hopen .decoding (by simp) ?_)
  rw [List.append_assoc]
  exact .answer rfl within hread

/-- Decoding keeps to the way through the answer. -/
theorem Decodes.travels (h : Decodes s t) (hstands : s.Stands origin .decoding)
    (htask : s.task = .decoding) (k : s.Arrived candidates .decoding reached) :
    t.Travels candidates := by
  have hstate : s.state = s.decoder.stage.state := hstands.state
  obtain ⟨last, read, rfl, hwithin, hsofar⟩ := k.answer
  -- With another decoder the session has still shown the same.
  have hstays : ∀ next, Stays candidates s { s with decoder := next } :=
    fun next => ⟨rfl, adds_of_history rfl⟩
  have hdecoding : s.task.place? = some .decoding := by
    rw [htask]
    rfl
  cases h with
  | @waits next stage buffer hungry =>
    have harrived := k.stays (hstays next) rfl .waiting
      (.answer rfl hwithin (hsofar.keep stage (.inl buffer))) (fun heq => by cases heq)
    exact harrived.attempt rfl trivial
  | @proceeds next active stage =>
    exact .working hdecoding (k.stays (hstays next) rfl .decoding
      (.answer rfl hwithin (hsofar.keep stage (.inr active))) (fun heq => by cases heq))
  | @accepts status length stage stop line ok next eq =>
    have hread : ReadSoFar s.received next (read ++ [next.stage.state]) := by
      rw [eq, line]
      exact hsofar.accept stage stop (line ▸ ok) rfl
    have hne : s.state ≠ next.stage.state := by
      rw [hstate, stage, eq]
      simp only
      split <;> simp [Stage.state]
    exact k.enterNext hwithin (hstays next) rfl htask hne (Stage.isClosed_state _) hread
  | @tellsHeaders map length stage stop block next eq =>
    have hread : ReadSoFar s.received next (read ++ [next.stage.state]) := by
      rw [eq]
      exact hsofar.block stage stop block
    have hne : s.state ≠ next.stage.state := by
      rw [hstate, stage, eq, Decoder.state_bodyStage]
      simp
    have hkept := (lull_notify { s with decoder := next } (.headers map)).kept
    have hnotified : Stays candidates s
        (({ s with decoder := next } : Session).notify (.headers map)) :=
      (hstays next).trans (stays_notify _ (hstate.trans stage))
    refine k.enterNext hwithin hnotified (received_notify _ _) (hkept.task.trans htask) hne
      (Stage.isClosed_state _) ?_
    rw [hkept.decoder]
    exact hread
  | @tellsData next bytes active stage =>
    have hkept := (lull_notify { s with decoder := next } (.data bytes)).kept
    have hfits : (Notice.data bytes).Fits s.state := by
      show s.state.isActive = true
      rwa [hstate]
    refine .working ((congrArg Task.place? hkept.task).trans hdecoding) (k.stays
      ((hstays next).trans (stays_notify _ hfits)) (received_notify _ _) .decoding ?_
      (fun heq => by cases heq))
    rw [hkept.decoder]
    exact .answer rfl hwithin (hsofar.keep stage (.inr active))
  | @stops next ending active =>
    refine .stopping rfl (k.shows.stays ⟨rfl, adds_of_history rfl⟩) (k.isCut.of_eq rfl rfl) ?_
    intro hfinished
    rw [← hstate] at active
    exact active hfinished

end

/-- A session that has shown its way is no longer idle. -/
theorem IsCut.ne_idle (h : s.IsCut candidates shown) (k : s.Shows candidates shown) :
    s.state ≠ .idle := by
  obtain ⟨last, reached, hshown, hfront, -⟩ := h
  have hlast := k.last
  rw [hshown, List.getLast?_cons_cons] at hlast
  -- The last state shown is behind the first one.
  have hmem := List.mem_of_getLast? hlast
  intro hidle
  rw [hidle] at hmem
  rcases List.mem_cons.1 hmem with hfirst | hmem
  · cases hfirst
  rcases List.mem_append.1 hmem with hreached | hclosed
  · exact (State.mem_route (hfront.subset hreached)).1 rfl
  · simp at hclosed

/-- The last call is made in its state. -/
theorem stays_notifyEnd (hopen : s.state.isClosed = false) (hidle : s.state ≠ .idle)
    {ending : Ending} (hfinished : ending = .finished → s.state.isActive = true) :
    Stays candidates s (s.notifyEnd (outcomeOf s.stopRequested s.state ending)) := by
  have hclosed : s.state ≠ .closed := by
    rintro heq
    rw [heq] at hopen
    cases hopen
  cases houtcome : outcomeOf s.stopRequested s.state ending with
  | shutdown => exact ⟨rfl, adds_of_history rfl⟩
  | failed error =>
    have hfits : (Notice.error error).Fits s.state := ⟨hidle, hclosed⟩
    exact stays_notify s hfits
  | eof =>
    -- The body is over because it is complete, or because the server closed in the middle of it.
    have hactive : s.state.isActive = true := by
      unfold outcomeOf at houtcome
      split at houtcome
      · cases houtcome
      cases ending with
      | cancelled => cases houtcome
      | failed error => cases houtcome
      | finished => exact hfinished rfl
      | closed =>
        simp only at houtcome
        split at houtcome
        · assumption
        · cases houtcome
    have hfits : Notice.eof.Fits s.state := hactive
    exact stays_notify s hfits

/-- Winding up is over in one move, but for the closing of the stream. -/
theorem isOver_stepConclusion (s : Session) (ending : Ending) :
    (s.stepConclusion ending).task.isOver = true := by
  rw [stepConclusion_eq]
  split
  · rfl
  · rw [task_finish]
    rfl

/-- Winding up closes the way. -/
theorem travels_of_concluding (hopen : s.state.isClosed = false) {ending : Ending}
    (htask : s.task = .concluding ending) (hshows : s.Shows candidates shown)
    (hcut : s.IsCut candidates shown) (hfinished : ending = .finished → s.state.isActive = true) :
    s.step.Travels candidates := by
  have hstays : Stays candidates s _ := stays_notifyEnd hopen (hcut.ne_idle hshows) hfinished
  have hstill := still_of_concluding htask
  have hover : s.step.task.isOver = true := by
    rw [step_concluding htask]
    exact isOver_stepConclusion s ending
  generalize outcomeOf s.stopRequested s.state ending = outcome at hstays hstill
  -- The last calls are made in the state left behind, so closing is the one state to add.
  have hlater : ({ s.notifyEnd outcome with
      uplink := (s.notifyEnd outcome).uplink.close } : Session).Shows candidates shown :=
    hshows.stays (hstays.trans ⟨rfl, adds_of_history rfl⟩)
  have hclosed : (s.notifyEnd outcome).shutDown.Shows candidates (shown ++ [.closed]) := by
    refine hlater.enter (hstays.state ▸ hopen) ?_
    show (s.notifyEnd outcome).state ≠ .closed
    rw [hstays.state]
    intro heq
    rw [heq] at hopen
    cases hopen
  have hstate : (s.notifyEnd outcome).shutDown.state = .closed := (shut_shutDown _).state
  have hreceived : (s.notifyEnd outcome).shutDown.received = s.received :=
    (received_enter _ _).trans (received_notifyEnd s outcome)
  refine .past (.inl hover) (hclosed.stays hstill.stays) ?_
  obtain ⟨last, reached, hshown, hfront, hwithin⟩ := hcut
  refine ⟨last, reached, ?_, ?_, hwithin⟩
  · rw [hstill.state, hstate, hshown, hopen]
    simp [State.isClosed]
  · rw [hstill.received, hreceived]
    exact hfront

/-- What is over stays so. -/
theorem isOver_step (h : s.task.isOver = true ∨ s.task = .stuck) :
    s.step.task.isOver = true ∨ s.step.task = .stuck := by
  cases htask : s.task with
  | closing outcome =>
    rcases step_closing htask with ⟨result, rest, -, hstep⟩ | hlull | ⟨-, hstep⟩
    · rw [hstep, task_finish]
      exact .inl rfl
    · rw [hlull.kept.task, htask]
      exact .inl rfl
    · rw [hstep]
      exact .inr rfl
  | ended outcome =>
    rw [step_of_halted (by simp only [isHalted, htask]), htask]
    exact .inl rfl
  | stuck =>
    rw [step_of_halted (by simp only [isHalted, htask]), htask]
    exact .inr rfl
  | _ =>
    rw [htask] at h
    rcases h with hover | hstuck
    · cases hover
    · cases hstuck

/-- Every move keeps to the way. -/
theorem travels_step (hphase : s.Phase) (hsound : s.decoder.Sound) (hplace : s.IsInPlace origin)
    (h : s.Travels candidates) : s.step.Travels candidates := by
  cases h with
  | @working place reached htask harrived =>
    cases hcurrent : s.task with
    | attempting operation =>
      exact (leads_of_attempting hcurrent).travels hplace htask harrived
    | decoding =>
      rw [hcurrent] at htask
      cases htask
      have hstands := hplace .decoding (by rw [hcurrent]; rfl)
      exact (decodes_of_decoding hcurrent hsound).travels hstands hcurrent harrived
    | _ =>
      rw [hcurrent] at htask
      cases htask
  | @stopping ending shown htask hshows hcut hfinished =>
    have hopen : s.state.isClosed = false := by
      cases hphase with
      | inWork h => exact h.state
      | shut _ hover =>
        rw [htask] at hover
        rcases hover with hover | hstuck
        · cases hover
        · cases hstuck
    exact travels_of_concluding hopen htask hshows hcut hfinished
  | past htask hshows hcut =>
    have hstill := still_of_over htask
    exact .past (isOver_step htask) (hshows.stays hstill.stays)
      (hcut.of_eq hstill.state hstill.received)

/-- Entries in one state show one state. -/
theorem foldl_shownWith_nil {state : State} {entries : List Entry} (hne : entries ≠ [])
    (hall : ∀ entry ∈ entries, entry.state = state) : entries.foldl shownWith [] = [state] := by
  cases entries with
  | nil => exact absurd rfl hne
  | cons entry rest =>
    have hfirst : shownWith [] entry = [state] := by
      rw [shownWith, hall entry List.mem_cons_self]
      rfl
    rw [List.foldl_cons, hfirst]
    exact foldl_shownWith rfl fun other hmem => hall other (List.mem_cons_of_mem _ hmem)

/-- The way begins with the lookup. -/
theorem travels_start (connection : Connection) (plan : Plan) :
    (start connection plan).Travels (plan.lookup.candidates connection.config.port) := by
  obtain ⟨u, hheld, hlookup, hstart⟩ := exists_start connection plan
  have hstill := hheld.record .started rfl
  obtain ⟨added, hlog, hplain⟩ := hstill.log
  have hne : (u.record .started).log ≠ [] := by
    rw [log_record]
    exact List.append_ne_nil_of_right_ne_nil _ (List.cons_ne_nil _ _)
  -- Before the start the owner may act, but each entry still shows an idle session.
  have hidle : ∀ entry ∈ (u.record .started).log, entry.IsPlain .idle := by
    rw [hlog]
    exact hplain
  have hshows : (u.record .started).Shows (plan.lookup.candidates connection.config.port)
      [.idle] := by
    refine ⟨foldl_shownWith_nil hne fun entry hmem => (hidle entry hmem).1, ?_, ?_⟩
    · rw [hstill.state]
      rfl
    · exact fun entry hmem => Entry.fits_of_isPlain (hidle entry hmem).2
  have hopen : (u.record .started).state.isClosed = false := by
    rw [hstill.state]
    rfl
  have hne' : (u.record .started).state ≠ .resolving := by
    rw [hstill.state]
    simp [blank]
  have hentered := hshows.enter hopen hne'
  have harrived : ((u.record .started).enter .resolving).Arrived
      (plan.lookup.candidates connection.config.port) .lookup [] := by
    refine ⟨by rw [state_enter hopen]; rfl, hentered, .lookup, fun _ => ?_⟩
    show u.lookup.candidates u.connection.config.port = _
    rw [Script.candidates, hlookup, hheld.connection]
    rfl
  rw [hstart]
  exact harrived.attempt rfl trivial

/-- At any time the session keeps to its way. -/
theorem travels_runFor (connection : Connection) (plan : Plan) (moves : Nat) :
    ((start connection plan).runFor moves).Travels
      (plan.lookup.candidates connection.config.port) := by
  induction moves with
  | zero => exact travels_start connection plan
  | succ moves ih =>
    obtain ⟨hsound, hplace⟩ := isInPlace_runFor connection plan moves
    rw [runFor_succ']
    exact travels_step (phase_runFor connection plan moves) hsound hplace ih

/-! ### Forward only -/

/-- A chunked body comes only behind a status line that does not skip the headers. -/
theorem IsCut.chunked (h : s.IsCut candidates shown) (hmem : .streaming .chunked ∈ shown) :
    ∃ status, statusLine? s.received = some status ∧ status.skipsHeaders = false := by
  obtain ⟨last, reached, rfl, hfront, -⟩ := h
  have hreached : State.streaming .chunked ∈ reached := by
    rcases List.mem_cons.1 hmem with h | hmem
    · cases h
    rcases List.mem_cons.1 hmem with h | hmem
    · cases h
    rcases List.mem_append.1 hmem with hreached | hclosed
    · exact hreached
    · simp at hclosed
  exact State.skipsHeaders_of_mem_route (hfront.subset hreached)

/-- Whatever part of its life a session is in, its states are cut off there. -/
theorem Travels.exists_isCut (h : s.Travels candidates) :
    ∃ shown, s.Shows candidates shown ∧ s.IsCut candidates shown := by
  cases h with
  | working task arrived => exact ⟨_, arrived.shows, arrived.isCut⟩
  | stopping task shows cut finished => exact ⟨_, shows, cut⟩
  | past task shows cut => exact ⟨_, shows, cut⟩

/-- A session that waits for bytes has gone all of the way. -/
theorem Travels.complete (h : s.Travels candidates) (hsound : s.decoder.Sound)
    (hplace : s.IsInPlace origin) (hread : s.task = .attempting .read) :
    ∃ last, s.states = .idle :: .resolving :: State.route last s.received := by
  cases h with
  | stopping task => cases hread.symm.trans task
  | past task =>
    rw [hread] at task
    rcases task with hover | hstuck
    · cases hover
    · cases hstuck
  | working task arrived =>
    rw [hread] at task
    cases task
    have hungry := (hplace .waiting (by rw [hread]; rfl)).hungry (by simp)
    rw [arrived.shows.eq]
    cases arrived.reaches with
    | @answer last place read late within sofar =>
      rw [sofar.eq_of_hungry hsound hungry]
      exact ⟨last, rfl⟩

/-- A session with an outcome has been shut. -/
theorem Phase.state_of_outcome? (h : s.Phase) (hended : s.outcome?.isSome = true) :
    s.state = .closed := by
  cases h with
  | shut h => exact h.state
  | inWork h =>
    cases htask : s.task with
    | ended outcome =>
      have hover := h.task
      rw [htask] at hover
      cases hover
    | _ =>
      rw [outcome?, htask] at hended
      cases hended

/-- **The states of a whole session.** A session that comes to an end has shown the front of a
route, as far as its work went, and then the closed state, with which it ends. -/
theorem states_run {connection : Connection} {plan : Plan}
    (h : (start connection plan).run.outcome?.isSome = true) :
    ∃ last reached,
      (start connection plan).run.states = .idle :: .resolving :: (reached ++ [.closed]) ∧
      reached <+: State.route last (start connection plan).run.received ∧
      ∀ candidate, .connecting candidate ∈ reached →
        candidate < (plan.lookup.candidates connection.config.port).length := by
  have hclosed : (start connection plan).run.state = .closed :=
    (phase_runFor connection plan _).state_of_outcome? h
  have htravels : (start connection plan).run.Travels
      (plan.lookup.candidates connection.config.port) :=
    travels_runFor connection plan _
  obtain ⟨shown, hshows, last, reached, hshown, hfront, hwithin⟩ := htravels.exists_isCut
  refine ⟨last, reached, ?_, hfront, hwithin⟩
  rw [hshows.eq, hshown, hclosed]
  rfl

/-- The first candidate refuses, the second one answers with a body of no chunks. -/
def emptyAnswer : Plan where
  lookup := [.result (.ok
    [{ address := .v4 ⟨10, 0, 0, 1⟩, port := 0 }, { address := .v4 ⟨10, 0, 0, 2⟩, port := 0 }])]
  attempts := [[.result (.error { kind := .connectionRefused })], [.result (.ok
    { reads := [.result (.ok (Utf8.encode
        "HTTP/1.1 200 OK\r\nTransfer-Encoding: chunked\r\n\r\n0\r\n\r\n"))] })]]

/-- The route of this session has a state for each candidate, and it is shown to its end. -/
theorem states_run_emptyAnswer :
    (start .sample emptyAnswer).run.outcome?.isSome = true ∧
    (start .sample emptyAnswer).run.states = [.idle, .resolving, .connecting 0, .connecting 1,
      .writing, .readingStatus, .readingHeaders, .streaming .chunked, .closed] ∧
    ∃ last reached,
      (start .sample emptyAnswer).run.states = .idle :: .resolving :: (reached ++ [.closed]) ∧
      reached <+: State.route last (start .sample emptyAnswer).run.received := by
  have hended : (start .sample emptyAnswer).run.outcome?.isSome = true := by decide +kernel
  obtain ⟨last, reached, hstates, hfront, -⟩ := states_run hended
  exact ⟨hended, by decide +kernel, last, reached, hstates, hfront⟩

end Session

end NtripClient
