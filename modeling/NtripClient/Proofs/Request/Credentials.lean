import NtripClient.Config
import NtripClient.Proofs.Text.Utf8
import NtripClient.Proofs.Trim

/-!
# `NtripClient.Proofs.Request.Credentials`: a server gets login and password back

Credentials are sent as the word `Basic` and a code. `Credentials.ofHeaderValue?` is what a server
does with them: it takes the word off, decodes the code, reads the bytes as text and cuts the text
at its first colon. This gives back what was sent as long as there is no colon in the login, and
whatever there is in the password (`Credentials.ofHeaderValue?_headerValue`). So two credentials
with one value are the same. The alphabet of the code is such that the value needs no check before
it is written into a request.
-/

set_option autoImplicit false

namespace NtripClient

/-- Base64 is written in its digits and the padding. -/
theorem Base64.mem_encode {bytes : Bytes} {c : Char} (h : c ∈ encode bytes) :
    c = pad ∨ ∃ n < 64, c = digit n := by
  -- Each group of three bytes, and each of the two that are not full, writes its own digits.
  fun_induction encode bytes with
  | case1 => cases h
  | case2 a n =>
    have ha : a.toNat < 256 := a.toNat_lt
    simp only [List.mem_cons, List.not_mem_nil, or_false] at h
    rcases h with rfl | rfl | rfl | rfl
    · exact .inr ⟨_, by omega, rfl⟩
    · exact .inr ⟨_, by omega, rfl⟩
    · exact .inl rfl
    · exact .inl rfl
  | case3 a b n =>
    have ha : a.toNat < 256 := a.toNat_lt
    have hb : b.toNat < 256 := b.toNat_lt
    simp only [List.mem_cons, List.not_mem_nil, or_false] at h
    rcases h with rfl | rfl | rfl | rfl
    · exact .inr ⟨_, by omega, rfl⟩
    · exact .inr ⟨_, by omega, rfl⟩
    · exact .inr ⟨_, by omega, rfl⟩
    · exact .inl rfl
  | case4 a b c' rest n ih =>
    have ha : a.toNat < 256 := a.toNat_lt
    have hb : b.toNat < 256 := b.toNat_lt
    have hc : c'.toNat < 256 := c'.toNat_lt
    simp only [List.mem_cons] at h
    rcases h with rfl | rfl | rfl | rfl | hmem
    · exact .inr ⟨_, by omega, rfl⟩
    · exact .inr ⟨_, by omega, rfl⟩
    · exact .inr ⟨_, by omega, rfl⟩
    · exact .inr ⟨_, by omega, rfl⟩
    · exact ih hmem

/-- A code is made of letters, digits and three marks. -/
theorem Base64.isAlphanum_of_mem_encode {bytes : Bytes} {c : Char} (h : c ∈ encode bytes) :
    c.isAlphanum = true ∨ c = '+' ∨ c = '/' ∨ c = '=' := by
  have hdigit : ∀ i : Fin 64, (digit i.val).isAlphanum = true ∨ digit i.val = '+' ∨
      digit i.val = '/' ∨ digit i.val = '=' := by
    decide
  rcases mem_encode h with rfl | ⟨n, hn, rfl⟩
  · exact .inr (.inr (.inr rfl))
  · exact hdigit ⟨n, hn⟩

/-- Bytes that are all valid are read as themselves. -/
theorem FieldValue.parse_of_all {bytes : Bytes} (h : bytes.all isValueByte = true) :
    ∃ value, parse bytes = .ok value ∧ value.bytes = bytes :=
  ⟨⟨bytes, h⟩, dif_pos h, rfl⟩

namespace Credentials

/-- Reads the value of an `Authorization` field. The login ends at the first colon. -/
def ofHeaderValue? (value : String) : Option Credentials :=
  match value.toList with
  | 'B' :: 'a' :: 's' :: 'i' :: 'c' :: ' ' :: code => do
    let bytes ← Base64.decode? code
    let text ← Utf8.decode? bytes
    match text.toList.dropWhile (· != ':') with
    | [] => none
    | _ :: password =>
      some {
        login := String.ofList (text.toList.takeWhile (· != ':'))
        password := String.ofList password }
  | _ => none

/-- Login, colon and password. -/
def joined (credentials : Credentials) : String :=
  credentials.login ++ ":" ++ credentials.password

/-- The code behind the word. -/
def code (credentials : Credentials) : List Char :=
  Base64.encode (Utf8.encode credentials.joined)

variable {credentials : Credentials}

/-- The value of the field is the scheme, a space and the code. -/
theorem headerValue_eq (credentials : Credentials) :
    credentials.headerValue.toList = "Basic ".toList ++ credentials.code := by
  have hcolon : Utf8.encode ":" = [58] := by decide
  have hjoined : Utf8.encode credentials.joined
      = Utf8.encode credentials.login ++ 58 :: Utf8.encode credentials.password := by
    rw [joined, Utf8.encode_append, Utf8.encode_append, hcolon, List.append_assoc]
    rfl
  rw [headerValue, String.toList_ofList, code, hjoined]
  rfl

/-- A text that starts with a login and a colon is cut there. -/
theorem cut_joined (h : ':' ∉ credentials.login.toList) :
    credentials.joined.toList.takeWhile (· != ':') = credentials.login.toList ∧
      credentials.joined.toList.dropWhile (· != ':') = ':' :: credentials.password.toList := by
  have hjoined : credentials.joined.toList
      = credentials.login.toList ++ ':' :: credentials.password.toList := by
    simp [joined]
  rw [hjoined]
  exact ⟨takeWhile_bne_append h _, dropWhile_bne_append h _⟩

/-- What is read is what was sent. -/
theorem ofHeaderValue?_headerValue (h : ':' ∉ credentials.login.toList) :
    ofHeaderValue? credentials.headerValue = some credentials := by
  obtain ⟨htake, hdrop⟩ := cut_joined h
  have hvalue : credentials.headerValue.toList
      = 'B' :: 'a' :: 's' :: 'i' :: 'c' :: ' ' :: credentials.code := by
    simpa using headerValue_eq credentials
  rw [ofHeaderValue?, hvalue]
  simp only [code, Base64.decode?_encode, Utf8.decode?_encode, Option.bind_eq_bind,
    Option.bind_some, htake, hdrop, String.ofList_toList]

/-- The value is printable ASCII, whatever login and password are. -/
theorem range_of_mem_encode (credentials : Credentials) {b : UInt8}
    (h : b ∈ Utf8.encode credentials.headerValue) : 32 ≤ b.toNat ∧ b.toNat < 127 := by
  have hword : ∀ c ∈ "Basic ".toList, 32 ≤ c.toNat ∧ c.toNat < 127 := by simp
  have hdigit : ∀ i : Fin 64,
      32 ≤ (Base64.digit i.val).toNat ∧ (Base64.digit i.val).toNat < 127 := by
    decide
  obtain ⟨c, hc, hb⟩ := List.mem_flatMap.1 h
  have hrange : 32 ≤ c.toNat ∧ c.toNat < 127 := by
    rw [headerValue_eq] at hc
    rcases List.mem_append.1 hc with hfront | hcode
    · exact hword c hfront
    · rcases Base64.mem_encode hcode with rfl | ⟨n, hn, rfl⟩
      · decide
      · exact hdigit ⟨n, hn⟩
  -- A character of this range is its own byte.
  rcases Utf8.encodeChar_cases c with ⟨hsmall, hself⟩ | ⟨hlarge, -⟩
  · rw [hself, List.mem_singleton] at hb
    rw [hb, Utf8.toNat_ofNat (by omega)]
    exact hrange
  · omega

/-- What a server gets from the value of credentials. -/
structure IsRecovered (credentials : Credentials) : Prop where
  /-- The value is the word and a code of letters, digits and three marks, from which the bytes of
  login, colon and password are decoded. -/
  code : ∃ code, credentials.headerValue.toList = "Basic ".toList ++ code ∧
    (∀ c ∈ code, c.isAlphanum = true ∨ c = '+' ∨ c = '/' ∨ c = '=') ∧
    Base64.decode? code
      = some (Utf8.encode (credentials.login ++ ":" ++ credentials.password))
  /-- Reading the value gives the credentials. -/
  read : ofHeaderValue? credentials.headerValue = some credentials
  /-- No other credentials have this value. -/
  unique : ∀ other : Credentials, ':' ∉ other.login.toList →
    other.headerValue = credentials.headerValue →
    other.login = credentials.login ∧ other.password = credentials.password
  /-- The bytes of the value make a field value. -/
  valid : ∃ value, FieldValue.parse (Utf8.encode credentials.headerValue) = .ok value ∧
    value.bytes = Utf8.encode credentials.headerValue
  /-- None of them is a control byte, and none lies outside ASCII. -/
  range : ∀ b ∈ Utf8.encode credentials.headerValue, 32 ≤ b.toNat ∧ b.toNat < 127

/-- **Credentials can be recovered from their value.** For every login without a colon and every
password, a server that decodes the code gets login, colon and password, and knows both from them.
The value may stand in a request as it is. -/
theorem isRecovered_of_not_mem (h : ':' ∉ credentials.login.toList) : IsRecovered credentials := by
  have hread := ofHeaderValue?_headerValue h
  constructor
  case code =>
    have hdecode : Base64.decode? credentials.code = some (Utf8.encode credentials.joined) :=
      Base64.decode?_encode _
    exact ⟨credentials.code, headerValue_eq credentials,
      fun c hc => Base64.isAlphanum_of_mem_encode hc, hdecode⟩
  case read => exact hread
  case unique =>
    intro other hother hvalue
    -- One value is read in one way.
    have hsame := ofHeaderValue?_headerValue hother
    rw [hvalue, hread] at hsame
    cases hsame
    exact ⟨rfl, rfl⟩
  case valid =>
    have hall : (Utf8.encode credentials.headerValue).all isValueByte = true := by
      rw [List.all_eq_true]
      intro b hb
      obtain ⟨hleast, hmost⟩ := credentials.range_of_mem_encode hb
      have hdelete : b ≠ 127 := by
        rintro rfl
        exact absurd hmost (by decide)
      have hle : 32 ≤ b := UInt8.le_iff_toNat_le.2 hleast
      simp [isValueByte, hle, hdelete]
    exact FieldValue.parse_of_all hall
  case range => exact fun b => credentials.range_of_mem_encode

/-- A login and a password that are not ASCII, with colons in the password. -/
def colonPassword : Credentials where
  login := "mart\u00EFn"
  password := "s:e:\u20ACcret"

/-- They are recovered, and the colons of the password belong to it. -/
theorem isRecovered_of_not_mem_colonPassword :
    ':' ∉ colonPassword.login.toList ∧
      colonPassword.headerValue = "Basic bWFydMOvbjpzOmU64oKsY3JldA==" ∧
      ofHeaderValue? "Basic bWFydMOvbjpzOmU64oKsY3JldA==" = some colonPassword := by
  have hlogin : ':' ∉ colonPassword.login.toList := by decide
  have hvalue : colonPassword.headerValue = "Basic bWFydMOvbjpzOmU64oKsY3JldA==" := by
    decide +kernel
  have hread := (isRecovered_of_not_mem hlogin).read
  rw [hvalue] at hread
  exact ⟨hlogin, hvalue, hread⟩

end Credentials

end NtripClient
