import NtripClient.Connection
import NtripClient.Proofs.Text.Utf8

/-!
# `NtripClient.Proofs.Builder`: what a builder makes of the steps it takes

A step of a builder is a setting or a write to the configuration itself. Settings can be refused,
and only they can (`Step.IsRefused`). `take_eq` says all that a step does: it writes one thing or,
if it is refused, nothing, and then its fault is kept unless there is one already.

So the steps of a builder come apart. Those that are refused decide whether a connection is made
and which fault is reported; all others decide what is in it. Only the host can still be at fault in
the end. It is if it holds a control character, whatever brackets and port number stand around it
(`Config.hostField_eq_error_iff`). `obeys_ofSteps` is the main statement, and `Obeys` says what it
comes to.
-/

set_option autoImplicit false

namespace NtripClient

/-! ### The host -/

/-- A character that may not stand in a field value: a control character other than the tab. -/
def IsControl (c : Char) : Prop :=
  (c.toNat < 0x20 ∧ c.toNat ≠ 0x09) ∨ c.toNat = 0x7F

/-- Control characters are ASCII characters. -/
theorem IsControl.lt {c : Char} (h : IsControl c) : c.toNat < 128 := by
  unfold IsControl at h
  omega

/-- A digit is no control character. -/
theorem not_isControl_of_isDigit {c : Char} (h : c.isDigit = true) : ¬ IsControl c := by
  have hrange := Char.isDigit_iff_toNat.1 h
  simp only [Char.reduceToNat] at hrange
  unfold IsControl
  omega

/-- The bytes that may not stand in a field value are those of the control characters. -/
theorem isValueByte_eq_false_iff {b : UInt8} :
    isValueByte b = false ↔ (b.toNat < 0x20 ∧ b.toNat ≠ 0x09) ∨ b.toNat = 0x7F := by
  have hle : 32 ≤ b ↔ 32 ≤ b.toNat := UInt8.le_iff_toNat_le
  have htab : b = 9 ↔ b.toNat = 9 := UInt8.toNat_inj.symm
  have hdelete : b = 127 ↔ b.toNat = 127 := UInt8.toNat_inj.symm
  simp only [isValueByte, Bool.or_eq_false_iff, Bool.and_eq_false_iff, beq_eq_false_iff_ne, ne_eq,
    decide_eq_false_iff_not, bne_eq_false_iff_eq, hle, htab, hdelete]
  omega

/-- A field value is refused exactly if one of its bytes may not stand in it. -/
theorem FieldValue.parse_eq_error_iff {bytes : Bytes} {fault : RequestFault} :
    parse bytes = .error fault ↔ fault = .fieldValue ∧ ∃ b ∈ bytes, isValueByte b = false := by
  unfold parse
  split
  case isTrue hall =>
    simp only [reduceCtorEq, false_iff, not_and, not_exists, Bool.not_eq_false]
    exact fun _ => List.all_eq_true.1 hall
  case isFalse hall =>
    simp only [Except.error.injEq, eq_comm (a := RequestFault.fieldValue), iff_self_and]
    intro _
    simpa using hall

/-- The bytes of a text make a field value unless it holds a control character. -/
theorem FieldValue.parse_encode_eq_error_iff {text : String} {fault : RequestFault} :
    parse (Utf8.encode text) = .error fault ↔
      fault = .fieldValue ∧ ∃ c ∈ text.toList, IsControl c := by
  rw [parse_eq_error_iff]
  refine and_congr_right fun _ => ⟨?_, ?_⟩
  · rintro ⟨b, hb, hnot⟩
    have hcontrol := isValueByte_eq_false_iff.1 hnot
    obtain ⟨c, hc, hb⟩ := List.mem_flatMap.1 hb
    refine ⟨c, hc, ?_⟩
    rcases Utf8.encodeChar_cases c with ⟨hsmall, hself⟩ | ⟨-, hlarge⟩
    · rw [hself, List.mem_singleton] at hb
      rwa [hb, Utf8.toNat_ofNat (by omega)] at hcontrol
    · have hle := hlarge b hb
      omega
  · rintro ⟨c, hc, hcontrol⟩
    refine ⟨UInt8.ofNat c.toNat, (Utf8.mem_encode_iff hcontrol.lt).2 hc, ?_⟩
    have hlt := hcontrol.lt
    rwa [isValueByte_eq_false_iff, Utf8.toNat_ofNat (by omega)]

namespace Config

/-- What is put around a host is no control character. -/
theorem mem_hostChars_iff {config : Config} {c : Char} (hc : IsControl c) :
    c ∈ config.hostChars ↔ c ∈ config.host.toList := by
  have hne : ∀ d, ¬ IsControl d → c ≠ d := by
    rintro d hd rfl
    exact hd hc
  have hport : c ∉ Numeral.decimal config.port.toNat := fun hmem =>
    not_isControl_of_isDigit (Numeral.isDigit_of_mem_decimal hmem) hc
  have hfront : c ≠ '[' := hne '[' (by unfold IsControl; decide)
  have hback : c ≠ ']' := hne ']' (by unfold IsControl; decide)
  have hcolon : c ≠ ':' := hne ':' (by unfold IsControl; decide)
  unfold hostChars
  simp only
  split <;> split <;> simp [hfront, hback, hcolon, hport]

/-- The host is refused exactly if it holds a control character. -/
theorem hostField_eq_error_iff {config : Config} {fault : RequestFault} :
    config.hostField = .error fault ↔
      fault = .fieldValue ∧ ∃ c ∈ config.host.toList, IsControl c := by
  rw [hostField, FieldValue.parse_encode_eq_error_iff, String.toList_ofList]
  refine and_congr_right fun _ => exists_congr fun c => ?_
  exact and_congr_left fun hc => mem_hostChars_iff hc

end Config

namespace Builder

/-! ### What can be written -/

/-- A part of what a builder holds that has one value. All but the further fields of the request are
such parts. -/
inductive Scalar where
  | host
  | port
  | target
  | credentials
  | userAgent
  | timeout
  | maxLineLength
  | maxHeaderSize
  | bufferCapacity
  | tcp
deriving DecidableEq

namespace Scalar

/-- The values of a part. -/
def Value : Scalar → Type
  | host => String
  | port => UInt16
  | target => Target
  | credentials => Option Credentials
  | userAgent => FieldValue
  | timeout => Option Nat
  | maxLineLength | maxHeaderSize | bufferCapacity => Nat
  | tcp => TcpConfig

/-- The value that a builder holds. -/
def get (builder : Builder) : (scalar : Scalar) → scalar.Value
  | host => builder.config.host
  | port => builder.config.port
  | target => builder.config.target
  | credentials => builder.config.credentials
  | userAgent => builder.config.userAgent
  | timeout => builder.config.timeout
  | maxLineLength => builder.config.maxLineLength
  | maxHeaderSize => builder.config.maxHeaderSize
  | bufferCapacity => builder.config.bufferCapacity
  | tcp => builder.tcp

/-- A builder with another value. -/
def put (builder : Builder) : (scalar : Scalar) → scalar.Value → Builder
  | host, value => { builder with config.host := value }
  | port, value => { builder with config.port := value }
  | target, value => { builder with config.target := value }
  | credentials, value => { builder with config.credentials := value }
  | userAgent, value => { builder with config.userAgent := value }
  | timeout, value => { builder with config.timeout := value }
  | maxLineLength, value => { builder with config.maxLineLength := value }
  | maxHeaderSize, value => { builder with config.maxHeaderSize := value }
  | bufferCapacity, value => { builder with config.bufferCapacity := value }
  | tcp, value => { builder with tcp := value }

variable (builder : Builder) (scalar : Scalar)

/-- What is written to a part can be read from it. -/
@[simp]
theorem get_put_self (value : scalar.Value) : get (put builder scalar value) scalar = value := by
  cases scalar <;> rfl

/-- What is written to a part leaves the others as they are. -/
theorem get_put_of_ne {written : Scalar} (h : written ≠ scalar) (value : written.Value) :
    get (put builder written value) scalar = get builder scalar := by
  cases written <;> cases scalar <;> first | rfl | exact absurd rfl h

/-- The further fields are no such part. -/
@[simp]
theorem headers_put (value : scalar.Value) :
    (put builder scalar value).config.headers = builder.config.headers := by
  cases scalar <;> rfl

/-- No value that is written is a fault. -/
@[simp]
theorem fault_put (value : scalar.Value) : (put builder scalar value).fault = builder.fault := by
  cases scalar <;> rfl

end Scalar

/-- What one step writes. -/
inductive Write where
  /-- One value. -/
  | scalar (scalar : Scalar) (value : scalar.Value)
  /-- One more field behind the others. -/
  | header (header : FieldName × FieldValue)
  /-- All the fields at once. -/
  | headers (headers : List (FieldName × FieldValue))

namespace Write

/-- The builder after it was written. -/
def put (builder : Builder) : Write → Builder
  | scalar part value => part.put builder value
  | header added => { builder with config.headers := builder.config.headers ++ [added] }
  | headers all => { builder with config.headers := all }

/-- The value that is written to a part. -/
def value? (part : Scalar) : Write → Option part.Value
  | scalar written value => if h : written = part then some (h ▸ value) else none
  | header _ | headers _ => none

/-- The field that is added. -/
def header? : Write → Option (FieldName × FieldValue)
  | header added => some added
  | scalar _ _ | headers _ => none

/-- The other fields stay. -/
def keepsHeaders : Write → Bool
  | headers _ => false
  | scalar _ _ | header _ => true

/-- Nothing that is written is a fault. -/
@[simp]
theorem fault_put (write : Write) (builder : Builder) :
    (write.put builder).fault = builder.fault := by
  cases write with
  | scalar part value => exact part.fault_put builder value
  | header added => rfl
  | headers all => rfl

/-- A part holds what is written to it, or what it held before. -/
theorem get_put (write : Write) (builder : Builder) (part : Scalar) :
    part.get (write.put builder) = (write.value? part).getD (part.get builder) := by
  cases write with
  | scalar written value =>
    by_cases h : written = part
    · subst h
      simp [put, value?]
    · simp [put, value?, h, Scalar.get_put_of_ne]
  | header added => cases part <;> rfl
  | headers all => cases part <;> rfl

/-- A field that is added goes behind the others. -/
theorem headers_put {write : Write} (h : write.keepsHeaders = true) (builder : Builder) :
    (write.put builder).config.headers = builder.config.headers ++ write.header?.toList := by
  cases write with
  | scalar part value => simp [put, header?]
  | header added => rfl
  | headers all => cases h

end Write

/-! ### Steps -/

/-- One step of a builder: a setting, or a write to the configuration that it gives access to. -/
inductive Step where
  /-- A setting, which may be refused. -/
  | configure (setting : Setting)
  /-- A write, which the types keep valid. -/
  | direct (write : Write)

namespace Step

/-- Why a step is refused. For a field, the value only matters if the name is accepted. -/
inductive IsRefused : Step → RequestFault → Prop where
  | mountpoint {mountpoint : String} {fault : RequestFault} :
    Target.ofMountpoint mountpoint = .error fault →
    IsRefused (.configure (.mountpoint mountpoint)) fault
  | userAgent {value : Bytes} {fault : RequestFault} :
    FieldValue.parse value = .error fault → IsRefused (.configure (.userAgent value)) fault
  | name {name value : Bytes} {fault : RequestFault} :
    FieldName.parse name = .error fault → IsRefused (.configure (.header name value)) fault
  | value {name value : Bytes} {accepted : FieldName} {fault : RequestFault} :
    FieldName.parse name = .ok accepted → FieldValue.parse value = .error fault →
    IsRefused (.configure (.header name value)) fault

/-- What a step writes, or why it writes nothing. -/
def write : Step → Except RequestFault Write
  | direct write => .ok write
  | configure setting =>
    match setting with
    | .mountpoint mountpoint => (Target.ofMountpoint mountpoint).map (.scalar .target)
    | .credentials login password => .ok (.scalar .credentials (some { login, password }))
    | .userAgent value => (FieldValue.parse value).map (.scalar .userAgent)
    | .header name value => do
      let name ← FieldName.parse name
      (FieldValue.parse value).map fun value => .header (name, value)
    | .timeout ms => .ok (.scalar .timeout (some ms))
    | .maxLineLength length => .ok (.scalar .maxLineLength length)
    | .maxHeaderSize size => .ok (.scalar .maxHeaderSize size)
    | .bufferCapacity size => .ok (.scalar .bufferCapacity size)
    | .host host => .ok (.scalar .host host)
    | .port port => .ok (.scalar .port port)
    | .tcp config => .ok (.scalar .tcp config)

/-- What the steps write that are not refused, in order. -/
def writes (steps : List Step) : List Write :=
  steps.filterMap fun step => step.write.toOption

/-- The first step writes first, if it writes anything. -/
theorem writes_cons (step : Step) (steps : List Step) :
    writes (step :: steps) = step.write.toOption.toList ++ writes steps := by
  unfold writes
  rw [List.filterMap_cons]
  cases step.write.toOption <;> rfl

/-- The fault of a step that is refused. -/
def fault? (step : Step) : Option RequestFault :=
  match step.write with
  | .ok _ => none
  | .error fault => some fault

/-- Nothing is wrong with a step. -/
def IsValid (step : Step) : Prop :=
  ∀ fault, ¬ step.IsRefused fault

/-- What is made of a value that is read does not change the fault. -/
theorem eq_error_of_map {α β : Type} {f : α → β} {read : Except RequestFault α}
    {fault : RequestFault} (h : read.map f = .error fault) : read = .error fault := by
  cases read with
  | ok value => cases h
  | error other =>
    cases h
    rfl

/-- A step is refused exactly if it writes nothing. -/
theorem isRefused_iff {step : Step} {fault : RequestFault} :
    step.IsRefused fault ↔ step.write = .error fault := by
  constructor
  · rintro (h | h | h | ⟨hname, h⟩) <;> simp only [write, *] <;> rfl
  · intro h
    cases step with
    | direct write => cases h
    | configure setting =>
      cases setting with
      | mountpoint mountpoint => exact .mountpoint (eq_error_of_map h)
      | userAgent value => exact .userAgent (eq_error_of_map h)
      | header name value =>
        cases hname : FieldName.parse name with
        | error other =>
          simp only [write, hname] at h
          cases h
          exact .name hname
        | ok accepted =>
          simp only [write, hname] at h
          exact .value hname (eq_error_of_map h)
      | _ => cases h

/-- The fault of a step is why it is refused. -/
theorem fault?_eq_some_iff {step : Step} {fault : RequestFault} :
    step.fault? = some fault ↔ step.IsRefused fault := by
  rw [isRefused_iff]
  unfold fault?
  cases step.write <;> simp

/-- Only a step that is not refused has no fault. -/
theorem fault?_eq_none_iff {step : Step} : step.fault? = none ↔ step.IsValid := by
  rw [Option.eq_none_iff_forall_ne_some]
  exact forall_congr' fun fault => not_congr fault?_eq_some_iff

end Step

/-- Takes one step. -/
def take (builder : Builder) : Step → Builder
  | .configure setting => builder.set setting
  | .direct write => write.put builder

/-- Takes steps in order. -/
def takeAll (builder : Builder) (steps : List Step) : Builder :=
  steps.foldl take builder

variable (builder : Builder)

/-- All that a step does: it is written, or it is refused and its fault is kept unless there is one
already. -/
theorem take_eq (step : Step) : builder.take step =
    match step.write with
    | .ok write => write.put builder
    | .error fault => { builder with fault := builder.fault <|> some fault } := by
  cases step with
  | direct write => rfl
  | configure setting =>
    cases setting with
    | mountpoint mountpoint =>
      simp only [take, set, Config.apply, Config.setMountpoint, Step.write]
      cases Target.ofMountpoint mountpoint <;> rfl
    | userAgent value =>
      simp only [take, set, Config.apply, Step.write]
      cases FieldValue.parse value <;> rfl
    | header name value =>
      simp only [take, set, Config.apply, Step.write]
      cases FieldName.parse name with
      | error fault => rfl
      | ok name => cases FieldValue.parse value <;> rfl
    -- The other settings are never refused.
    | _ => rfl

/-! ### One step -/

/-- The fault of a step counts if there is none yet. -/
theorem fault_take (step : Step) : (builder.take step).fault = builder.fault.or step.fault? := by
  rw [take_eq, Step.fault?]
  cases step.write with
  | ok write => simp
  | error fault => exact Option.orElse_eq_or

/-- A part holds what the step writes to it, unless the step is refused or writes something else. -/
theorem get_take (part : Scalar) (step : Step) : part.get (builder.take step)
    = (step.write.toOption.bind (Write.value? part)).getD (part.get builder) := by
  rw [take_eq]
  cases step.write with
  | ok write => exact write.get_put builder part
  | error fault => cases part <;> rfl

/-- A step that does not replace the fields adds its own behind the others. -/
theorem headers_take {step : Step} (h : ∀ write ∈ step.write.toOption, write.keepsHeaders = true) :
    (builder.take step).config.headers
      = builder.config.headers ++ (step.write.toOption.bind Write.header?).toList := by
  rw [take_eq]
  cases hwrite : step.write with
  | ok write =>
    rw [hwrite] at h
    exact Write.headers_put (h write rfl) builder
  | error fault => exact (List.append_nil _).symm

/-- A step that is refused leaves what was set untouched. -/
theorem config_take_of_isRefused {step : Step} {fault : RequestFault} (h : step.IsRefused fault) :
    (builder.take step).config = builder.config ∧ (builder.take step).tcp = builder.tcp := by
  rw [take_eq, Step.isRefused_iff.1 h]
  exact ⟨rfl, rfl⟩

/-! ### Many steps -/

/-- Steps may be taken in two stages. -/
theorem takeAll_append (before after : List Step) :
    builder.takeAll (before ++ after) = (builder.takeAll before).takeAll after :=
  List.foldl_append

/-- The first fault is kept. -/
theorem fault_takeAll (steps : List Step) :
    (builder.takeAll steps).fault = builder.fault.or (steps.findSome? Step.fault?) := by
  induction steps generalizing builder with
  | nil => simp [takeAll]
  | cons step steps ih =>
    -- A fault of the first step stands in front of those that `ih` finds.
    rw [takeAll, List.foldl_cons, ← takeAll, ih, fault_take, List.findSome?_cons, Option.or_assoc]
    cases step.fault? <;> rfl

/-- The value that was written last is kept. -/
theorem get_takeAll (part : Scalar) (steps : List Step) : part.get (builder.takeAll steps)
    = ((Step.writes steps).filterMap (Write.value? part)).getLast?.getD (part.get builder) := by
  -- What the first step leaves is the default for the steps behind it.
  induction steps generalizing builder with
  | nil => rfl
  | cons step steps ih =>
    rw [takeAll, List.foldl_cons, ← takeAll, ih, get_take, Step.writes_cons]
    cases step.write with
    | error fault => rfl
    | ok write =>
      simp only [Except.toOption, Option.toList_some, List.singleton_append, List.filterMap_cons,
        Option.bind_some]
      cases write.value? part with
      | none => rfl
      | some value => rw [List.getLast?_cons, Option.getD_some]; rfl

/-- All fields that were added are kept, if none are replaced. -/
theorem headers_takeAll {steps : List Step}
    (h : ∀ write ∈ Step.writes steps, write.keepsHeaders = true) :
    (builder.takeAll steps).config.headers
      = builder.config.headers ++ (Step.writes steps).filterMap Write.header? := by
  induction steps generalizing builder with
  | nil => exact (List.append_nil _).symm
  | cons step steps ih =>
    rw [Step.writes_cons] at h ⊢
    obtain ⟨hstep, hsteps⟩ := List.forall_mem_append.1 h
    rw [takeAll, List.foldl_cons, ← takeAll, ih _ hsteps,
      headers_take _ fun write hwrite => hstep write (Option.mem_toList.2 hwrite),
      List.filterMap_append, List.append_assoc]
    cases step.write.toOption with
    | none => rfl
    | some write => cases hheader : write.header? <;> simp [hheader]

/-! ### Building -/

variable {builder : Builder}

/-- A connection is not made because of the fault that was kept, or else because of the host's. -/
theorem build_eq_error_iff {error : Error} : builder.build = .error error ↔
    ∃ fault, error = .invalidRequest fault ∧
      (builder.fault = some fault ∨
        builder.fault = none ∧ builder.config.hostField = .error fault) := by
  unfold build
  split
  case h_1 fault hfault => simp [hfault, eq_comm]
  case h_2 hnone =>
    have hencode : ∀ fault, Request.encode builder.config = .error fault ↔
        builder.config.hostField = .error fault := by
      intro fault
      unfold Request.encode
      cases builder.config.hostField with
      | ok host => simp [bind, Except.bind, pure, Except.pure]
      | error other => simp [bind, Except.bind]
    split
    case h_1 fault hfault => simp [hnone, ← hencode, hfault, eq_comm]
    case h_2 request hrequest => simp [hnone, ← hencode, hrequest]

/-- A connection has what was set in its builder. -/
theorem of_build {connection : Connection} (h : builder.build = .ok connection) :
    connection.config = builder.config ∧ connection.tcp = builder.tcp := by
  unfold build at h
  split at h
  · cases h
  · split at h
    · cases h
    · cases h
      exact ⟨rfl, rfl⟩

/-- A builder that has taken these steps and no others. -/
def ofSteps (host : String) (port : UInt16) (steps : List Step) : Builder :=
  (new host port).takeAll steps

section
variable {host : String} {port : UInt16} {steps : List Step}

/-- The fault of the first step that is refused is kept. -/
theorem fault_ofSteps : (ofSteps host port steps).fault = steps.findSome? Step.fault? := by
  rw [ofSteps, fault_takeAll]
  rfl

/-- A builder is at fault exactly if one of its steps is refused. -/
theorem fault_ofSteps_eq_none_iff :
    (ofSteps host port steps).fault = none ↔ ∀ step ∈ steps, step.IsValid := by
  rw [fault_ofSteps, List.findSome?_eq_none_iff]
  exact forall₂_congr fun step _ => Step.fault?_eq_none_iff

/-- If no step is refused, only the host can be at fault. -/
theorem build_ofSteps_eq_error_iff (h : ∀ step ∈ steps, step.IsValid) {error : Error} :
    (ofSteps host port steps).build = .error error ↔ error = .invalidRequest .fieldValue ∧
      ∃ c ∈ (ofSteps host port steps).config.host.toList, IsControl c := by
  rw [build_eq_error_iff, fault_ofSteps_eq_none_iff.2 h]
  simp only [reduceCtorEq, true_and, false_or, Config.hostField_eq_error_iff]
  constructor
  · rintro ⟨fault, rfl, rfl, hcontrol⟩
    exact ⟨rfl, hcontrol⟩
  · rintro ⟨rfl, hcontrol⟩
    exact ⟨.fieldValue, rfl, rfl, hcontrol⟩

/-- No connection is made if a step is refused, whichever it is. -/
theorem exists_build_ofSteps_eq_error_iff :
    (∃ error, (ofSteps host port steps).build = .error error) ↔
      (∃ step ∈ steps, ∃ fault, step.IsRefused fault) ∨
        ∃ c ∈ (ofSteps host port steps).config.host.toList, IsControl c := by
  cases hfirst : steps.findSome? Step.fault? with
  | some fault =>
    obtain ⟨step, hmem, hstep⟩ := List.exists_of_findSome?_eq_some hfirst
    refine iff_of_true ⟨.invalidRequest fault, ?_⟩ (.inl ⟨step, hmem, fault, ?_⟩)
    · exact build_eq_error_iff.2 ⟨fault, rfl, .inl (fault_ofSteps.trans hfirst)⟩
    · exact Step.fault?_eq_some_iff.1 hstep
  | none =>
    have hfault : (ofSteps host port steps).fault = none := fault_ofSteps.trans hfirst
    have hall := fault_ofSteps_eq_none_iff.1 hfault
    have hnone : ¬ ∃ step ∈ steps, ∃ fault, step.IsRefused fault := by
      rintro ⟨step, hmem, fault, hrefused⟩
      exact hall step hmem fault hrefused
    simp only [build_ofSteps_eq_error_iff hall, exists_eq_left, hnone, false_or]

end

/-- What comes of a sequence of steps. -/
structure Obeys (host : String) (port : UInt16) (steps : List Step) : Prop where
  /-- No connection is made exactly if a step was refused, or the host that was set last holds a
  control character. -/
  fails : (∃ error, (ofSteps host port steps).build = .error error) ↔
    (∃ step ∈ steps, ∃ fault, step.IsRefused fault) ∨
      ∃ c ∈ (ofSteps host port steps).config.host.toList, IsControl c
  /-- The fault of the first step that is refused is reported, whatever steps follow. -/
  first : ∀ before step after fault, steps = before ++ step :: after →
    (∀ earlier ∈ before, earlier.IsValid) → step.IsRefused fault →
    (ofSteps host port steps).build = .error (.invalidRequest fault)
  /-- The fault of the host is reported if no step is refused. -/
  last : (∀ step ∈ steps, step.IsValid) → ∀ error,
    (ofSteps host port steps).build = .error error ↔
      error = .invalidRequest .fieldValue ∧
        ∃ c ∈ (ofSteps host port steps).config.host.toList, IsControl c
  /-- A step that is refused leaves what was set before untouched. -/
  untouched : ∀ before step after fault, steps = before ++ step :: after → step.IsRefused fault →
    (ofSteps host port (before ++ [step])).config = (ofSteps host port before).config ∧
      (ofSteps host port (before ++ [step])).tcp = (ofSteps host port before).tcp
  /-- Each part has the value that was written last, or its default. -/
  values : ∀ part : Scalar, part.get (ofSteps host port steps)
    = ((Step.writes steps).filterMap (Write.value? part)).getLast?.getD (part.get (new host port))
  /-- The fields are those that were added, in order. -/
  added : (∀ write ∈ Step.writes steps, write.keepsHeaders = true) →
    (ofSteps host port steps).config.headers = (Step.writes steps).filterMap Write.header?
  /-- If all were replaced, those that were added since follow. -/
  replaced : ∀ before headers after, steps = before ++ .direct (.headers headers) :: after →
    (∀ write ∈ Step.writes after, write.keepsHeaders = true) →
    (ofSteps host port steps).config.headers
      = headers ++ (Step.writes after).filterMap Write.header?
  /-- A connection that is made has what was set. -/
  gives : ∀ connection, (ofSteps host port steps).build = .ok connection →
    connection.config = (ofSteps host port steps).config ∧
      connection.tcp = (ofSteps host port steps).tcp

/-- **A builder does what its steps say, or reports the first fault.** For every server and all
sequences of steps, valid or not: the fault that comes first is the one that is reported, the host
is looked at when all steps were valid, and what is set is what was written last, with the fields in
the order in which they were added. -/
theorem obeys_ofSteps (host : String) (port : UInt16) (steps : List Step) :
    Obeys host port steps := by
  constructor
  case fails => exact exists_build_ofSteps_eq_error_iff
  case first =>
    rintro before step after fault rfl hbefore hrefused
    refine build_eq_error_iff.2 ⟨fault, rfl, .inl ?_⟩
    have hnone : before.findSome? Step.fault? = none :=
      List.findSome?_eq_none_iff.2 fun earlier hmem => Step.fault?_eq_none_iff.2 (hbefore _ hmem)
    rw [fault_ofSteps, List.findSome?_append, hnone, List.findSome?_cons,
      Step.fault?_eq_some_iff.2 hrefused]
    rfl
  case last => exact fun hall error => build_ofSteps_eq_error_iff hall
  case untouched =>
    rintro before step after fault - hrefused
    rw [ofSteps, takeAll_append]
    exact config_take_of_isRefused _ hrefused
  case values => exact fun part => get_takeAll _ part steps
  case added => exact fun hkeeps => headers_takeAll _ hkeeps
  case replaced =>
    rintro before headers after rfl hkeeps
    rw [ofSteps, takeAll_append, takeAll, List.foldl_cons, ← takeAll, headers_takeAll _ hkeeps]
    rfl
  case gives => exact fun connection hbuild => of_build hbuild

/-- The second step is refused, and it has two faults. Two more are refused after it, and the host
that is set last holds a line feed. -/
def faultySteps : List Step :=
  [.configure (.header (Utf8.encode "X-A") (Utf8.encode "1")),
    .configure (.header (Utf8.encode "X B") (Utf8.encode "\n")),
    .configure (.timeout 5), .direct (.scalar .timeout none), .configure (.mountpoint "a b"),
    .configure (.userAgent [127]), .direct (.scalar .host "a\nb")]

/-- The name of the second step is reported, and the first field and the last idle limit are set. -/
theorem obeys_ofSteps_faultySteps :
    (ofSteps "h" 80 faultySteps).build = .error (.invalidRequest .fieldName) ∧
      (ofSteps "h" 80 faultySteps).config.headers.map (fun field => field.1.bytes)
        = [Utf8.encode "x-a"] ∧
      Scalar.timeout.get (ofSteps "h" 80 faultySteps) = none := by
  have hobeys := obeys_ofSteps "h" 80 faultySteps
  refine ⟨?_, ?_, ?_⟩
  · refine hobeys.first [.configure (.header (Utf8.encode "X-A") (Utf8.encode "1"))]
      (.configure (.header (Utf8.encode "X B") (Utf8.encode "\n"))) _ _ rfl ?_ (.name ?_)
    · exact List.forall_mem_singleton.2 (Step.fault?_eq_none_iff.1 (by decide +kernel))
    · rfl
  · rw [hobeys.added (by decide +kernel)]
    decide +kernel
  · rw [hobeys.values]
    rfl

end Builder

end NtripClient
