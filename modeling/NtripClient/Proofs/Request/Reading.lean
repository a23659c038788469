import Mathlib.Data.List.TakeWhile
import NtripClient.Connection
import NtripClient.Proofs.Request.Credentials
import NtripClient.Proofs.Request.Target
import NtripClient.Proofs.Search

/-!
# `NtripClient.Proofs.Request.Reading`: a request reads as what it was made of

Whoever reads a request has nothing but its bytes. They are cut at the line ends
(`Bytes.cutLines`), the first line at its spaces, and each other line at its first colon and space
(`cutField?`). `Reads` says what this gives.

Each part of a request is free of the marks that end it: no part has a byte of a line end, the
target has no space, and the names of fields have no colon (`isField_of_mem_fields`,
`Target.space_not_mem`). So a request reads as its target and its fields (`reads_encode`). Bytes
read in one way only (`Reads.unique`), and the parts of a configuration are known from what is
read: a path ends where its query begins (`Target.split_chars`), and no field that is added passes
for credentials, because its name is in lower case (`agree_of_fields`).
-/

set_option autoImplicit false

namespace NtripClient

namespace Bytes

/-! ### Lines -/

/-- Cuts a byte string at its line ends. -/
def cutLines : Bytes → List Bytes
  | [] => [[]]
  | [b] => [[b]]
  | a :: b :: rest =>
    if a = cr ∧ b = lf then [] :: cutLines rest
    else (cutLines (b :: rest)).modifyHead (a :: ·)

/-- No byte of a line end is among these. -/
def IsUnbroken (bytes : Bytes) : Prop :=
  cr ∉ bytes ∧ lf ∉ bytes

/-- Bytes without a line end stay so when they are joined. -/
theorem IsUnbroken.append {front back : Bytes} (h : IsUnbroken front) (k : IsUnbroken back) :
    IsUnbroken (front ++ back) := by
  constructor
  · intro hmem
    exact (List.mem_append.1 hmem).elim h.1 k.1
  · intro hmem
    exact (List.mem_append.1 hmem).elim h.2 k.2

/-- A byte that is not allowed is not there. -/
theorem not_mem_of_all {p : UInt8 → Bool} {bytes : Bytes} (h : bytes.all p = true) {b : UInt8}
    (hb : p b = false) : b ∉ bytes := by
  intro hmem
  have hallowed := List.all_eq_true.1 h b hmem
  rw [hb] at hallowed
  cases hallowed

/-- Bytes that are no control bytes hold no line end. -/
theorem isUnbroken_of_le {bytes : Bytes} (h : ∀ b ∈ bytes, 32 ≤ b.toNat) : IsUnbroken bytes := by
  constructor
  · intro hmem
    exact absurd (h cr hmem) (by decide)
  · intro hmem
    exact absurd (h lf hmem) (by decide)

/-- A byte that does not begin a line end belongs to the line behind it. -/
theorem cutLines_cons {b : UInt8} (h : b ≠ cr) (rest : Bytes) :
    cutLines (b :: rest) = (cutLines rest).modifyHead (b :: ·) := by
  cases rest with
  | nil => rfl
  | cons c rest => rw [cutLines, if_neg fun hend => h hend.1]

/-- A line ends at its line end, wherever it stands. -/
theorem cutLines_append {line : Bytes} (h : cr ∉ line) (rest : Bytes) :
    cutLines (line ++ crlf ++ rest) = line :: cutLines rest := by
  induction line with
  | nil =>
    show cutLines (cr :: lf :: rest) = _
    rw [cutLines, if_pos ⟨rfl, rfl⟩]
  | cons b line ih =>
    rw [List.mem_cons, not_or] at h
    rw [List.cons_append, List.cons_append, cutLines_cons (Ne.symm h.1), ih h.2, List.modifyHead]

/-- Lines that are written one after another are cut where they were joined. -/
theorem cutLines_flatMap {lines : List Bytes} (h : ∀ line ∈ lines, cr ∉ line) (rest : Bytes) :
    cutLines (lines.flatMap (· ++ crlf) ++ rest) = lines ++ cutLines rest := by
  induction lines with
  | nil => rfl
  | cons line lines ih =>
    rw [List.flatMap_cons, List.append_assoc, cutLines_append (h line List.mem_cons_self),
      ih fun other hmem => h other (List.mem_cons_of_mem _ hmem), List.cons_append]

end Bytes

open Bytes (cr lf crlf cutLines IsUnbroken)

/-! ### The parts -/

/-- A field value holds no line end. -/
theorem FieldValue.isUnbroken (value : FieldValue) : IsUnbroken value.bytes :=
  ⟨Bytes.not_mem_of_all value.valid (by decide), Bytes.not_mem_of_all value.valid (by decide)⟩

/-- A field value is its bytes. -/
theorem FieldValue.bytes_inj {first second : FieldValue} (h : first.bytes = second.bytes) :
    first = second := by
  cases first
  cases second
  cases h
  rfl

/-- A byte that is no part of a token is not in the name of a field. -/
theorem FieldName.not_mem (name : FieldName) {b : UInt8} (h : isTokenByte b = false) :
    b ∉ name.bytes :=
  Bytes.not_mem_of_all name.valid h

/-- A field name holds no line end. -/
theorem FieldName.isUnbroken (name : FieldName) : IsUnbroken name.bytes :=
  ⟨name.not_mem (by decide), name.not_mem (by decide)⟩

/-- A text that has a character outside of the token set, such as a capital letter, is not the name
of an added field. -/
theorem FieldName.bytes_ne (name : FieldName) {text : String} {c : Char}
    (hmem : c ∈ text.toList) (hsmall : c.toNat < 128)
    (h : isTokenByte (UInt8.ofNat c.toNat) = false) : name.bytes ≠ Utf8.encode text := by
  intro heq
  have hbyte := (Utf8.mem_encode_iff hsmall).2 hmem
  rw [← heq] at hbyte
  exact name.not_mem h hbyte

namespace Target

/-- The bytes of a target take one place between two spaces. -/
theorem space_not_mem (target : Target) : (32 : UInt8) ∉ Utf8.encode target.text := by
  intro hmem
  exact absurd (of_mem_bytes hmem).1 (by decide)

/-- A target holds no line end. -/
theorem isUnbroken (target : Target) : IsUnbroken (Utf8.encode target.text) :=
  Bytes.isUnbroken_of_le fun _ hmem => Nat.le_of_lt (of_mem_bytes hmem).1

end Target

/-- Whatever login and password are, their field holds no line end. -/
theorem Credentials.isUnbroken (credentials : Credentials) :
    IsUnbroken (Utf8.encode credentials.headerValue) :=
  Bytes.isUnbroken_of_le fun _ hb => (credentials.range_of_mem_encode hb).1

namespace Request

/-! ### Reading a request -/

/-- Cuts a line into a name and a value, at its first colon and space. -/
def cutField? (line : Bytes) : Option (Bytes × Bytes) :=
  (Bytes.find? [58, 32] line).map fun stop => (line.take stop, line.drop (stop + 2))

/-- How bytes read as a request, with these lines. -/
structure Reads (bytes requestLine : Bytes) (fieldLines : List Bytes) (target : Bytes)
    (fields : List (Bytes × Bytes)) : Prop where
  /-- Cut at the line ends, the bytes are the lines, a blank line, and nothing behind it. -/
  lines : cutLines bytes = requestLine :: (fieldLines ++ [[], []])
  /-- No other line is blank, and none holds a byte of a line end. -/
  unbroken : ∀ line ∈ requestLine :: fieldLines, line ≠ [] ∧ IsUnbroken line
  /-- Cut at its spaces, the first line is the method, the target and the version. -/
  target : requestLine.splitOn 32 = [Utf8.encode "GET", target, Utf8.encode "HTTP/1.1"]
  /-- Cut at its first colon and space, each other line is the name and the value of a field. -/
  fields : fieldLines.map cutField? = fields.map some

/-- Bytes read in one way only. -/
theorem Reads.unique {bytes requestLine requestLine' target target' : Bytes}
    {fieldLines fieldLines' : List Bytes} {fields fields' : List (Bytes × Bytes)}
    (h : Reads bytes requestLine fieldLines target fields)
    (k : Reads bytes requestLine' fieldLines' target' fields') :
    target = target' ∧ fields = fields' := by
  -- The lines are the same, so what they are cut into is.
  have hlines := h.lines.symm.trans k.lines
  obtain ⟨rfl, hrest⟩ := List.cons.inj hlines
  have hfieldLines : fieldLines = fieldLines' := List.append_cancel_right hrest
  subst hfieldLines
  have htarget := h.target.symm.trans k.target
  have hfields := h.fields.symm.trans k.fields
  refine ⟨by simpa using htarget, ?_⟩
  exact (List.map_inj_right fun _ _ => Option.some.inj).1 hfields

/-- The first line of a request, without its line end. -/
def startLine (target : Target) : Bytes :=
  [32].intercalate [Utf8.encode "GET", Utf8.encode target.text, Utf8.encode "HTTP/1.1"]

/-- The line of a field, without its line end. -/
def content (field : Bytes × Bytes) : Bytes :=
  field.1 ++ [58, 32] ++ field.2

/-- A field whose line says what it is. -/
structure IsField (field : Bytes × Bytes) : Prop where
  name : IsUnbroken field.1
  value : IsUnbroken field.2
  /-- The name ends at the first colon. -/
  colon : (58 : UInt8) ∉ field.1

/-- A name that holds no colon makes a field whose line says what it is. -/
theorem isField_of_name {name value : Bytes} (hname : cr ∉ name ∧ lf ∉ name ∧ 58 ∉ name)
    (hvalue : IsUnbroken value) : IsField (name, value) where
  name := ⟨hname.1, hname.2.1⟩
  value := hvalue
  colon := hname.2.2

/-- The first line is the method, the target and the version, with spaces between them. -/
theorem startLine_eq (target : Target) :
    startLine target
      = Utf8.encode "GET " ++ Utf8.encode target.text ++ Utf8.encode " HTTP/1.1" := by
  have hfront : Utf8.encode "GET " = Utf8.encode "GET" ++ [32] := by decide
  have hback : Utf8.encode " HTTP/1.1" = 32 :: Utf8.encode "HTTP/1.1" := by decide
  rw [startLine, hfront, hback]
  simp [List.intercalate, List.intersperse]

/-- Cut at its spaces, the first line is these three parts again. -/
theorem splitOn_startLine (target : Target) :
    (startLine target).splitOn 32
      = [Utf8.encode "GET", Utf8.encode target.text, Utf8.encode "HTTP/1.1"] := by
  have hparts : ∀ part ∈ [Utf8.encode "GET", Utf8.encode target.text, Utf8.encode "HTTP/1.1"],
      (32 : UInt8) ∉ part := by
    simp only [List.forall_mem_cons, List.not_mem_nil, false_implies, implies_true, and_true]
    exact ⟨by decide, target.space_not_mem, by decide⟩
  exact List.splitOn_intercalate 32 hparts (List.cons_ne_nil _ _)

/-- The first line holds no line end. -/
theorem isUnbroken_startLine (target : Target) : IsUnbroken (startLine target) := by
  rw [startLine_eq]
  have hfront : IsUnbroken (Utf8.encode "GET ") := ⟨by decide, by decide⟩
  have hback : IsUnbroken (Utf8.encode " HTTP/1.1") := ⟨by decide, by decide⟩
  exact (hfront.append target.isUnbroken).append hback

/-- The line of a field holds no line end. -/
theorem IsField.isUnbroken_content {field : Bytes × Bytes} (h : IsField field) :
    IsUnbroken (content field) :=
  (h.name.append ⟨by decide, by decide⟩).append h.value

/-- The line of a field is cut into its name and its value. -/
theorem IsField.cutField?_content {field : Bytes × Bytes} (h : IsField field) :
    cutField? (content field) = some field := by
  have hfind : Bytes.find? [58, 32] (content field) = some field.1.length :=
    Bytes.find?_append_of_not_mem h.colon field.2
  rw [cutField?, hfind, content, List.append_assoc]
  show some ((field.1 ++ ([58, 32] ++ field.2)).take field.1.length,
    (field.1 ++ ([58, 32] ++ field.2)).drop (field.1.length + 2)) = some field
  rw [List.take_left, ← List.drop_drop, List.drop_left]
  rfl

section
variable {config : Config} {host : FieldValue}

/-- Every field of a request is one. -/
theorem isField_of_mem_fields {field : Bytes × Bytes} (h : field ∈ fields config host) :
    IsField field := by
  simp only [fields, List.mem_append, List.mem_cons, List.not_mem_nil, or_false, List.mem_map,
    Option.mem_toList] at h
  rcases h with (((rfl | rfl) | ⟨credentials, -, rfl⟩) | ⟨⟨name, value⟩, -, rfl⟩) | rfl
  · exact isField_of_name (by decide) host.isUnbroken
  · exact isField_of_name (by decide) config.userAgent.isUnbroken
  · exact isField_of_name (by decide) credentials.isUnbroken
  · exact ⟨name.isUnbroken, value.isUnbroken, name.not_mem (by decide)⟩
  · exact isField_of_name (by decide) ⟨by decide, by decide⟩

/-- A request is written line after line. -/
theorem encode_eq (h : config.hostField = .ok host) :
    encode config
      = .ok ((startLine config.target :: (fields config host).map content).flatMap (· ++ crlf)
          ++ crlf) := by
  have hfields : ((fields config host).map content).flatMap (· ++ crlf)
      = (fields config host).flatMap fun field => fieldLine field.1 field.2 :=
    List.flatMap_map _ _ _
  rw [encode, h, List.flatMap_cons, hfields, startLine_eq]
  rfl

/-- A request reads as its target and its fields. -/
theorem reads_encode (h : config.hostField = .ok host) {bytes : Bytes}
    (hencode : encode config = .ok bytes) :
    Reads bytes (startLine config.target) ((fields config host).map content)
      (Utf8.encode config.target.text) (fields config host) := by
  have hunbroken : ∀ line ∈ startLine config.target :: (fields config host).map content,
      line ≠ [] ∧ IsUnbroken line := by
    intro line hmem
    rcases List.mem_cons.1 hmem with rfl | hmem
    · refine ⟨?_, isUnbroken_startLine _⟩
      rw [startLine_eq]
      exact List.append_ne_nil_of_right_ne_nil _ (by decide)
    · obtain ⟨field, hfield, rfl⟩ := List.mem_map.1 hmem
      refine ⟨?_, (isField_of_mem_fields hfield).isUnbroken_content⟩
      rw [content, List.append_assoc]
      exact List.append_ne_nil_of_right_ne_nil _ (by simp)
  rw [encode_eq h] at hencode
  cases hencode
  exact {
    lines := Bytes.cutLines_flatMap (fun line hmem => (hunbroken line hmem).2.1) crlf
    unbroken := hunbroken
    target := splitOn_startLine _
    fields := by
      rw [List.map_map]
      exact List.map_congr_left fun field hfield =>
        (isField_of_mem_fields hfield).cutField?_content }

end

/-! ### What is known from a request -/

/-- Two configurations ask for the same. -/
structure Agree (first second : Config) : Prop where
  target : first.target = second.target
  host : first.hostField = second.hostField
  userAgent : first.userAgent = second.userAgent
  /-- Neither has credentials, or both have the same value of their field. -/
  authorization : first.credentials.map Credentials.headerValue
    = second.credentials.map Credentials.headerValue
  /-- All added fields are the same, in the same order. -/
  headers : first.headers = second.headers

/-- The added fields are known from their bytes. -/
theorem headers_inj {first second : List (FieldName × FieldValue)}
    (h : first.map (fun field => (field.1.bytes, field.2.bytes))
      = second.map (fun field => (field.1.bytes, field.2.bytes))) : first = second := by
  refine (List.map_inj_right ?_).1 h
  rintro ⟨⟨name⟩, ⟨value⟩⟩ ⟨⟨name'⟩, ⟨value'⟩⟩ heq
  cases heq
  rfl

/-- The credentials and the added fields are told apart: an added field is never taken for
credentials. -/
theorem authorization_inj {first second : Config}
    (h : first.credentials.toList.map (fun credentials =>
          (Utf8.encode "Authorization", Utf8.encode credentials.headerValue))
        ++ first.headers.map (fun field => (field.1.bytes, field.2.bytes))
      = second.credentials.toList.map (fun credentials =>
          (Utf8.encode "Authorization", Utf8.encode credentials.headerValue))
        ++ second.headers.map (fun field => (field.1.bytes, field.2.bytes))) :
    first.credentials.map Credentials.headerValue = second.credentials.map Credentials.headerValue
      ∧ first.headers = second.headers := by
  have hadded : ∀ {headers : List (FieldName × FieldValue)} {value : Bytes}
      {rest : List (Bytes × Bytes)},
      headers.map (fun field => (field.1.bytes, field.2.bytes))
        ≠ (Utf8.encode "Authorization", value) :: rest := by
    intro headers value rest heq
    obtain ⟨field, headers, rfl, hfield, -⟩ := List.map_eq_cons_iff.1 heq
    have hname : field.1.bytes = Utf8.encode "Authorization" := congrArg Prod.fst hfield
    -- The names of added fields are in lower case.
    have hcapital : 'A' ∈ "Authorization".toList := by decide
    exact field.1.bytes_ne hcapital (by decide) (by decide) hname
  cases hfirst : first.credentials with
  | none =>
    cases hsecond : second.credentials with
    | none =>
      rw [hfirst, hsecond] at h
      exact ⟨rfl, headers_inj h⟩
    | some credentials =>
      rw [hfirst, hsecond] at h
      exact absurd h hadded
  | some credentials =>
    cases hsecond : second.credentials with
    | none =>
      rw [hfirst, hsecond] at h
      exact absurd h.symm hadded
    | some other =>
      rw [hfirst, hsecond] at h
      simp only [Option.toList_some, List.map_cons, List.map_nil, List.cons_append,
        List.nil_append] at h
      obtain ⟨hvalue, hheaders⟩ := List.cons.inj h
      have htext := Utf8.encode_inj (Prod.mk.inj hvalue).2
      exact ⟨congrArg some htext, headers_inj hheaders⟩

/-- What two configurations ask for is the same if their targets and fields are. -/
theorem agree_of_fields {first second : Config} {host host' : FieldValue}
    (hhost : first.hostField = .ok host) (hhost' : second.hostField = .ok host')
    (htarget : Utf8.encode first.target.text = Utf8.encode second.target.text)
    (hfields : fields first host = fields second host') : Agree first second := by
  simp only [fields, List.append_assoc] at hfields
  obtain ⟨hfirst, hrest⟩ := List.cons.inj hfields
  obtain ⟨hagent, hrest⟩ := List.cons.inj hrest
  rw [← List.append_assoc, ← List.append_assoc] at hrest
  obtain ⟨hcredentials, hheaders⟩ := authorization_inj (List.append_cancel_right hrest)
  have hvalue := FieldValue.bytes_inj (congrArg Prod.snd hfirst)
  exact {
    target := Target.text_inj (Utf8.encode_inj htarget)
    host := by rw [hhost, hhost', hvalue]
    userAgent := FieldValue.bytes_inj (congrArg Prod.snd hagent)
    authorization := hcredentials
    headers := hheaders }

end Request

end NtripClient
