import NtripClient.Proofs.Builder
import NtripClient.Proofs.Request.Reading
import NtripClient.Proofs.Session.Passage
import NtripClient.Proofs.Session.Sending

/-!
# `NtripClient.Proofs.Session.Request`: the request of a connection, from its parts to the stream

Whatever settings a builder takes, a connection that is built has a request that reads as its
parts and as nothing else, and its sessions offer exactly this request. `clear_of_build` is the
main statement, and `IsClear` says what it comes to.

That the request is allowed is found out once, when the connection is built. So no session fails
because of it: nothing that can go wrong on the way or in the answer is such a fault, and what stops
the work is what the owner is told and what the session comes to (`IsBlameless`).
-/

set_option autoImplicit false

namespace NtripClient

/-! ### Faults of the request -/

/-- The session comes to a failure because the request is not allowed. -/
def Outcome.isRequestFault : Outcome → Bool
  | .failed error => error.isRequestFault
  | _ => false

/-- The owner is told that the request is not allowed. -/
def Notice.isRequestFault : Notice → Bool
  | .error cause => cause.isRequestFault
  | _ => false

/-- What the session is at leads to a failure because the request is not allowed. -/
def Task.isRequestFault : Task → Bool
  | .concluding ending => ending.isRequestFault
  | .closing outcome => outcome.isRequestFault
  | .ended outcome => outcome.isRequestFault
  | _ => false

/-- A session that works is not about to fail. -/
theorem Task.isRequestFault_of_isWorking {task : Task} (h : task.isWorking = true) :
    task.isRequestFault = false := by
  cases task with
  | attempting operation => rfl
  | decoding => rfl
  | _ => cases h

/-- What interrupts the work is not a fault of the request. -/
theorem Task.IsInterrupted.isRequestFault {task : Task} (h : task.IsInterrupted) :
    task.isRequestFault = false := by
  rcases h with rfl | ⟨ending, rfl, -, hfault⟩
  · rfl
  · exact hfault

/-- The last call blames the request only if the outcome does. -/
theorem Outcome.isRequestFault_lastCalls {outcome : Outcome} (h : outcome.isRequestFault = false) :
    ∀ notice ∈ outcome.lastCalls, notice.isRequestFault = false := by
  intro notice hmem
  cases outcome with
  | shutdown => cases hmem
  | eof =>
    rw [List.mem_singleton.1 hmem]
    rfl
  | failed error =>
    rw [List.mem_singleton.1 hmem]
    exact h

/-- At the place of the request it is written or flushed. -/
theorem Task.eq_of_place_request {task : Task} (h : task.place? = some .request) :
    (∃ bytes, task = .attempting (.write .request bytes)) ∨
      task = .attempting (.flush .request) := by
  cases task with
  | attempting operation =>
    cases operation with
    | write purpose bytes =>
      cases purpose with
      | request => exact .inl ⟨bytes, rfl⟩
      | uplink => cases h
    | flush purpose =>
      cases purpose with
      | request => exact .inr rfl
      | uplink => cases h
    | _ => cases h
  | _ => cases h

/-- No other place has its state. -/
theorem Place.eq_request_of_state {place : Place} {stage : Stage}
    (h : place.state stage = .writing) : place = .request := by
  cases place with
  | request => rfl
  | waiting => cases stage <;> cases h
  | decoding => cases stage <;> cases h
  | _ => cases h

namespace Session

variable {s t : Session}

/-- What a session comes to is no such fault if its ending is none. -/
theorem isRequestFault_outcomeOf (stopRequested : Bool) (state : State) {ending : Ending}
    (h : ending.isRequestFault = false) :
    (outcomeOf stopRequested state ending).isRequestFault = false := by
  unfold outcomeOf
  split
  · rfl
  · cases ending with
    | cancelled => rfl
    | finished => rfl
    | failed error => exact h
    | closed =>
      simp only
      split
      · rfl
      · rfl

/-- Nothing blames the request, neither what the session is at nor what was told. -/
structure IsBlameless (s : Session) : Prop where
  task : s.task.isRequestFault = false
  notices : ∀ notice ∈ s.notices, notice.isRequestFault = false

/-- A session that tells nothing more blames nothing more. -/
theorem IsBlameless.of_notices (h : s.IsBlameless) (task : t.task.isRequestFault = false)
    (notices : t.notices = s.notices) : t.IsBlameless :=
  ⟨task, notices ▸ h.notices⟩

/-- Calls that do not blame the request. -/
theorem IsBlameless.tells (h : s.IsBlameless) (task : t.task.isRequestFault = false)
    {told : List Notice} (htold : ∀ notice ∈ told, notice.isRequestFault = false)
    (notices : t.notices = s.notices ++ told) : t.IsBlameless := by
  refine ⟨task, ?_⟩
  intro notice hmem
  rw [notices] at hmem
  rcases List.mem_append.1 hmem with hold | hnew
  · exact h.notices notice hold
  · exact htold notice hnew

/-- Beginning an operation does not lead to a fault of the request. -/
theorem isRequestFault_attempt (s : Session) (operation : Operation) :
    (s.attempt operation).task.isRequestFault = false := by
  unfold Session.attempt
  split
  · rfl
  · rfl

/-- A guarded operation tells nothing, and what stops it is no fault of the request. -/
theorem Leads.isBlameless (h : Leads s t) (htask : s.task.isWorking = true) (k : s.IsBlameless) :
    t.IsBlameless := by
  obtain ⟨bytes, htakes, -⟩ := h.takes
  refine k.of_notices ?_ htakes.notices
  cases h with
  | rests hrests =>
    -- At its place the session works on, and what interrupts it there is no such fault.
    rcases hrests.place with hsame | hstopped
    · obtain ⟨place, hplace⟩ := Task.exists_place htask
      have hworks := Task.isWorking_of_place (hsame.trans hplace)
      exact Task.isRequestFault_of_isWorking hworks
    · exact hstopped.isRequestFault
  | found => exact isRequestFault_attempt _ _
  | next => exact isRequestFault_attempt _ _
  | connected => exact isRequestFault_attempt _ _
  | asked => rfl
  | received => rfl

/-- Neither is anything in the answer. -/
theorem Decodes.isBlameless (h : Decodes s t) (k : s.IsBlameless) : t.IsBlameless := by
  have hnotified : ∀ (next : Decoder) (notice : Notice),
      (({ s with decoder := next } : Session).notify notice).task.isRequestFault = false := by
    intro next notice
    have hkept := (lull_notify { s with decoder := next } notice).kept
    rw [hkept.task]
    exact k.task
  cases h with
  | @waits next =>
    have htakes := (Still.refl { s with decoder := next }).takes.attempt .read
    exact k.of_notices (isRequestFault_attempt _ _) htakes.notices
  | proceeds => exact k.of_notices k.task rfl
  | accepts => exact k.of_notices k.task (notices_enter _ _)
  | @tellsHeaders map length stage stop block next eq =>
    have hnotices := (notices_enter (({ s with decoder := next } : Session).notify (.headers map))
      next.stage.state).trans (notices_notify _ _)
    exact k.tells (hnotified next (.headers map)) (List.forall_mem_singleton.2 rfl) hnotices
  | @tellsData next bytes =>
    exact k.tells (hnotified next (.data bytes)) (List.forall_mem_singleton.2 rfl)
      (notices_notify _ _)
  | stops next active fault => exact k.of_notices fault rfl

/-- Winding up tells what has stopped the work. -/
theorem isBlameless_of_concluding {ending : Ending} (htask : s.task = .concluding ending)
    (k : s.IsBlameless) : s.step.IsBlameless := by
  have hending : ending.isRequestFault = false := by
    have hfault := k.task
    rw [htask] at hfault
    exact hfault
  have houtcome := isRequestFault_outcomeOf s.stopRequested s.state hending
  refine k.tells ?_ (Outcome.isRequestFault_lastCalls houtcome) (notices_of_concluding htask)
  rw [step_concluding htask, stepConclusion_eq]
  split
  · exact houtcome
  · rw [task_finish]
    exact houtcome

/-- Closing the stream does not change what the session comes to. -/
theorem isBlameless_of_closing {outcome : Outcome} (htask : s.task = .closing outcome)
    (k : s.IsBlameless) : s.step.IsBlameless := by
  have houtcome := k.task
  have hstill := still_of_over (s := s) (.inl (by rw [htask]; rfl))
  refine k.of_notices ?_ hstill.notices
  rcases step_closing htask with ⟨result, rest, -, hstep⟩ | hlull | ⟨-, hstep⟩
  · rw [htask] at houtcome
    rw [hstep, task_finish]
    exact houtcome
  · rw [hlull.kept.task]
    exact houtcome
  · rw [hstep]
    rfl

/-- No move blames the request. -/
theorem isBlameless_step (hsound : s.decoder.Sound) (k : s.IsBlameless) : s.step.IsBlameless := by
  cases htask : s.task with
  | attempting operation =>
    exact (leads_of_attempting htask).isBlameless (by rw [htask]; rfl) k
  | decoding => exact (decodes_of_decoding htask hsound).isBlameless k
  | concluding ending => exact isBlameless_of_concluding htask k
  | closing outcome => exact isBlameless_of_closing htask k
  | ended outcome =>
    rw [step_of_halted (by simp only [isHalted, htask])]
    exact k
  | stuck =>
    rw [step_of_halted (by simp only [isHalted, htask])]
    exact k

/-- At any time nothing blames the request. -/
theorem isBlameless_runFor (connection : Connection) (plan : Plan) (moves : Nat) :
    ((start connection plan).runFor moves).IsBlameless := by
  have hstart : (start connection plan).IsBlameless := by
    constructor
    · obtain ⟨u, -, -, hstart⟩ := exists_start connection plan
      rw [hstart]
      exact isRequestFault_attempt _ _
    · rw [(takes_start connection plan).notices]
      intro notice hmem
      cases hmem
  have hsound : (start connection plan).decoder.Sound :=
    (isInPlace_runFor connection plan 0).1
  exact (keeps_runFor (P := fun s => s.decoder.Sound ∧ s.IsBlameless)
    (fun s h => ⟨sound_step h.1, isBlameless_step h.1 h.2⟩) moves ⟨hsound, hstart⟩).2

/-! ### What is offered first -/

/-- Before the first flush, what was accepted and what is left make up the request. -/
theorem accepted_append {origin : Connection} (left : Bytes) (hfirst : s.output.flushed = [])
    (waiting : origin.request :: s.sent
      = s.output.flushed ++ (s.output.pending ++ left) :: s.uplink.queue) :
    History.accepted s.history ++ left = origin.request := by
  rw [hfirst, List.nil_append] at waiting
  rw [History.accepted_eq]
  show s.output.flushed.flatten ++ s.output.pending ++ left = origin.request
  rw [hfirst]
  exact (List.cons.inj waiting).1.symm

/-- As long as the stream has accepted nothing, only the whole request is offered. -/
theorem Sending.first {origin : Connection} (h : s.Sending origin) (hne : origin.request ≠ [])
    {purpose : Purpose} {bytes : Bytes} (htask : s.task = .attempting (.write purpose bytes))
    (hnothing : History.accepted s.history = []) :
    purpose = .request ∧ bytes = origin.request := by
  obtain ⟨follows, waiting⟩ := (htask ▸ h.position).part
  -- The block that is being written is the first one exactly if it is the request.
  cases purpose with
  | request =>
    have hwhole := accepted_append bytes follows waiting
    rw [hnothing] at hwhole
    exact ⟨rfl, hwhole⟩
  | uplink =>
    -- A message comes behind the request, which is not empty and was accepted.
    obtain ⟨block, done, hblocks⟩ := List.exists_cons_of_ne_nil follows.1
    rw [hblocks, List.cons_append] at waiting
    rw [History.accepted_eq, List.append_eq_nil_iff] at hnothing
    have hblock : block ∈ (History.output s.history).flushed := by
      show block ∈ s.output.flushed
      rw [hblocks]
      exact List.mem_cons_self
    have hempty := List.flatten_eq_nil_iff.1 hnothing.1 block hblock
    exact absurd ((List.cons.inj waiting).1.trans hempty) hne

/-- At the place of the request its last bytes are offered, and flushed once all are accepted. -/
theorem Sending.writing {origin : Connection} (h : s.Sending origin)
    (hplace : s.task.place? = some .request) :
    ∃ left, History.accepted s.history ++ left = origin.request ∧
      (s.task = .attempting (.write .request left) ∨
        left = [] ∧ s.task = .attempting (.flush .request)) := by
  have hposition := h.position
  rcases Task.eq_of_place_request hplace with ⟨bytes, htask⟩ | htask
  · rw [htask] at hposition
    obtain ⟨hfirst, waiting⟩ := hposition.part
    exact ⟨bytes, accepted_append bytes hfirst waiting, .inl htask⟩
  · rw [htask] at hposition
    obtain ⟨hfirst, waiting⟩ := hposition.whole
    rw [← List.append_nil s.output.pending] at waiting
    exact ⟨[], accepted_append [] hfirst waiting, .inr ⟨rfl, htask⟩⟩

/-- How a session treats the request of its connection. -/
structure Trusts (s : Session) (request : Bytes) : Prop where
  /-- The configuration that the session runs with still has this request, so to check it again
  when it is written finds no fault. -/
  encodes : Request.encode s.connection.config = .ok request
  /-- As long as the stream has accepted nothing, exactly the request is offered to it. -/
  first : ∀ purpose bytes, s.task = .attempting (.write purpose bytes) →
    History.accepted s.history = [] → purpose = .request ∧ bytes = request
  /-- A session that works while its state is writing offers what is left of the request, or flushes
  it when all of it was accepted. -/
  writing : s.state = .writing → s.task.isWorking = true →
    ∃ left, History.accepted s.history ++ left = request ∧
      (s.task = .attempting (.write .request left) ∨
        left = [] ∧ s.task = .attempting (.flush .request))
  /-- The owner is not told that the request is not allowed. -/
  untold : ∀ fault, .error (.invalidRequest fault) ∉ s.notices
  /-- The session does not end because of it. -/
  unfailed : ∀ fault, s.outcome? ≠ some (.failed (.invalidRequest fault))

/-- However far a session has got, it trusts its request. -/
theorem trusts_runFor {connection : Connection} (hne : connection.request ≠ []) (plan : Plan)
    (moves : Nat) : ((start connection plan).runFor moves).Trusts connection.request := by
  have hblameless := isBlameless_runFor connection plan moves
  have hplace := (isInPlace_runFor connection plan moves).2
  generalize hs : (start connection plan).runFor moves = s at hblameless hplace
  have hsending := hs ▸ sending_runFor connection plan moves
  constructor
  case encodes =>
    rw [hsending.connection]
    exact connection.request_eq
  case first =>
    intro purpose bytes htask hnothing
    exact hsending.first hne htask hnothing
  -- Writing is the state of the request alone, so the task is one of the request's.
  case writing =>
    intro hstate hworks
    obtain ⟨place, htask⟩ := Task.exists_place hworks
    have hrequest : place = .request :=
      Place.eq_request_of_state (((hplace place htask).state).symm.trans hstate)
    rw [hrequest] at htask
    exact hsending.writing htask
  case untold =>
    intro fault hmem
    cases hblameless.notices _ hmem
  -- Only an ended session has an outcome, and none ends by blaming the request.
  case unfailed =>
    intro fault houtcome
    have hfault := hblameless.task
    cases htask : s.task with
    | ended outcome =>
      rw [outcome?, htask] at houtcome
      cases houtcome
      rw [htask] at hfault
      cases hfault
    | _ =>
      rw [outcome?, htask] at houtcome
      cases houtcome

end Session

/-! ### The request of a connection -/

/-- A configuration that has a request has a host. -/
theorem Request.exists_host {config : Config} {bytes : Bytes} (h : encode config = .ok bytes) :
    ∃ host, config.hostField = .ok host := by
  cases hhost : config.hostField with
  | ok host => exact ⟨host, rfl⟩
  | error fault =>
    rw [encode, hhost] at h
    cases h

/-- What reads as a request has bytes. -/
theorem Request.Reads.ne_nil {bytes requestLine target : Bytes} {fieldLines : List Bytes}
    {fields : List (Bytes × Bytes)} (h : Reads bytes requestLine fieldLines target fields) :
    bytes ≠ [] := by
  rintro rfl
  have hlength := congrArg List.length h.lines
  simp [Bytes.cutLines] at hlength

namespace Builder

/-- The connection has the configuration of its builder, and its request. -/
theorem config_of_build {builder : Builder} {connection : Connection}
    (h : builder.build = .ok connection) : connection.config = builder.config :=
  (of_build h).1

/-- The request of a connection is clear: it says what was set, and nothing else. -/
structure IsClear (builder : Builder) (connection : Connection) : Prop where
  /-- It is the request of what was set. -/
  encodes : connection.config = builder.config ∧
    Request.encode builder.config = .ok connection.request
  /-- It reads as the target and the fields that were set. There are credentials among the fields
  exactly if there were any set. -/
  reads : ∃ host requestLine fieldLines, builder.config.hostField = .ok host ∧
    Request.Reads connection.request requestLine fieldLines
      (Utf8.encode builder.config.target.text)
      ([(Utf8.encode "Host", host.bytes),
          (Utf8.encode "User-Agent", builder.config.userAgent.bytes)]
        ++ builder.config.credentials.toList.map (fun credentials =>
          (Utf8.encode "Authorization", Utf8.encode credentials.headerValue))
        ++ builder.config.headers.map (fun field => (field.1.bytes, field.2.bytes))
        ++ [(Utf8.encode "Connection", Utf8.encode "close")])
  /-- Whoever has the same request has set the same. -/
  unambiguous : ∀ (other : Builder) (second : Connection), other.build = .ok second →
    second.request = connection.request → Request.Agree builder.config other.config
  /-- It is what every session offers first, also if its idle limit is set later, and none fails
  because of it. -/
  sends : ∀ running, running = connection ∨ (∃ ms, running = connection.withTimeout ms) →
    ∀ plan moves, ((Session.start running plan).runFor moves).Trusts connection.request

/-- **No request is other than it was set.** For all settings, a connection that can be built
has a request that ends with its only blank line. The other lines are the request line, one line
for each field and nothing else, and they give back the very bytes of the target, the names and
the values. So no text can add a line or a field, equal requests come from equal parts, and every
session offers exactly this request, and never fails because of it. -/
theorem clear_of_build {builder : Builder} {connection : Connection}
    (h : builder.build = .ok connection) : builder.IsClear connection := by
  have hconfig := config_of_build h
  have hencode := hconfig ▸ connection.request_eq
  obtain ⟨host, hhost⟩ := Request.exists_host hencode
  have hreads := Request.reads_encode hhost hencode
  constructor
  case encodes => exact ⟨hconfig, hencode⟩
  case reads => exact ⟨host, _, _, hhost, hreads⟩
  case unambiguous =>
    intro other second hother heq
    have hencode' := config_of_build hother ▸ second.request_eq
    obtain ⟨host', hhost'⟩ := Request.exists_host hencode'
    have hreads' := heq ▸ Request.reads_encode hhost' hencode'
    obtain ⟨htarget, hfields⟩ := hreads.unique hreads'
    exact Request.agree_of_fields hhost hhost' htarget hfields
  case sends =>
    intro running hrunning plan moves
    rcases hrunning with rfl | ⟨ms, rfl⟩
    · exact Session.trusts_runFor hreads.ne_nil plan moves
    · have hne : (connection.withTimeout ms).request ≠ [] := hreads.ne_nil
      exact Session.trusts_runFor hne plan moves

/-- A host, a user agent, credentials and fields with colons, a tab, and bytes outside of ASCII. -/
def ornate : Builder :=
  (new "::1" 2101).setAll [.mountpoint "RTCM/3?a=b?c", .credentials "martin" "s:e cret",
    .userAgent [78, 9, 195, 169], .header (Utf8.encode "Ntrip-Version") (Utf8.encode "a: b: c"),
    .header (Utf8.encode "x-empty") []]

/-- Its request is clear, and it is offered to a server that can be reached. -/
theorem clear_of_build_ornate :
    ∃ connection, ornate.build = .ok connection ∧ ornate.IsClear connection ∧
      ((Session.start connection (.serving [])).runFor 2).task
        = .attempting (.write .request connection.request) := by
  have hok : ornate.build.isOk = true := by decide +kernel
  cases hbuild : ornate.build with
  | error fault =>
    rw [hbuild] at hok
    cases hok
  | ok connection => exact ⟨connection, rfl, clear_of_build hbuild, rfl⟩

end Builder

end NtripClient
