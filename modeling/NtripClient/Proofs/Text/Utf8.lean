import NtripClient.Text.Utf8

/-!
# `NtripClient.Proofs.Text.Utf8`: the small bytes of a text

A byte below 128 stands for itself in UTF-8 and is never part of a longer sequence. So what has a
meaning on the wire, a colon or a line feed, is found among the bytes of a text exactly if the text
has this character (`mem_encode_iff`), and a text may be cut there before it is encoded or after
(`takeWhile_flatMap`, `dropWhile_flatMap`). It is read as this character wherever it stands, also
behind bytes that are no text: whatever is unfinished there ends in front of it
(`decodeChars_append`).
-/

set_option autoImplicit false

namespace NtripClient.Utf8

/-- A character is its own byte, or all of its bytes are at least 128. -/
theorem encodeChar_cases (c : Char) :
    (c.toNat < 128 ∧ String.utf8EncodeChar c = [UInt8.ofNat c.toNat]) ∨
      (128 ≤ c.toNat ∧ ∀ b ∈ String.utf8EncodeChar c, 128 ≤ b.toNat) := by
  have hvalid : c.toNat < 0xD800 ∨ (0xDFFF < c.toNat ∧ c.toNat < 0x110000) := c.valid
  have hlarge : ∀ n, 128 ≤ n → n < 256 → 128 ≤ (UInt8.ofNat n).toNat := by
    intro n hle hlt
    rw [toNat_ofNat hlt]
    exact hle
  unfold String.utf8EncodeChar
  simp only [show c.val.toNat = c.toNat from rfl]
  split
  · exact .inl ⟨by omega, rfl⟩
  · refine .inr ⟨by omega, ?_⟩
    -- The leads are at least 192, and the bytes that continue at least 128.
    split
    · simp only [List.forall_mem_cons, List.not_mem_nil, false_implies, implies_true, and_true]
      exact ⟨hlarge _ (by omega) (by omega), hlarge _ (by omega) (by omega)⟩
    · split
      · simp only [List.forall_mem_cons, List.not_mem_nil, false_implies, implies_true, and_true]
        exact ⟨hlarge _ (by omega) (by omega), hlarge _ (by omega) (by omega),
          hlarge _ (by omega) (by omega)⟩
      · simp only [List.forall_mem_cons, List.not_mem_nil, false_implies, implies_true, and_true]
        exact ⟨hlarge _ (by omega) (by omega), hlarge _ (by omega) (by omega),
          hlarge _ (by omega) (by omega), hlarge _ (by omega) (by omega)⟩

/-- Every byte of a text is a character of it, or at least 128. -/
theorem mem_encode {text : String} {b : UInt8} (h : b ∈ encode text) :
    Char.ofNat b.toNat ∈ text.toList ∨ 128 ≤ b.toNat := by
  obtain ⟨c, hc, hb⟩ := List.mem_flatMap.1 h
  rcases encodeChar_cases c with ⟨hsmall, hself⟩ | ⟨-, hlarge⟩
  · rw [hself, List.mem_singleton] at hb
    rw [hb, toNat_ofNat (by omega), Char.ofNat_toNat]
    exact .inl hc
  · exact .inr (hlarge b hb)

/-- Small bytes stand for themselves. -/
theorem mem_encode_iff {text : String} {c : Char} (hc : c.toNat < 128) :
    UInt8.ofNat c.toNat ∈ encode text ↔ c ∈ text.toList := by
  have hbyte : (UInt8.ofNat c.toNat).toNat = c.toNat := toNat_ofNat (by omega)
  constructor
  · intro h
    rcases mem_encode h with hmem | hlarge
    · rwa [hbyte, Char.ofNat_toNat] at hmem
    · omega
  · intro h
    refine List.mem_flatMap.2 ⟨c, h, ?_⟩
    rcases encodeChar_cases c with ⟨-, hself⟩ | ⟨hlarge, -⟩
    · rw [hself]
      exact List.mem_cons_self
    · omega

/-- What holds of all large numbers holds of the bytes of a text if it does of its characters. -/
theorem forall_mem_flatMap_iff {P : Nat → Prop} (hlarge : ∀ n, 128 ≤ n → P n) {text : List Char} :
    (∀ b ∈ text.flatMap String.utf8EncodeChar, P b.toNat) ↔ ∀ c ∈ text, P c.toNat := by
  rw [List.forall_mem_flatMap]
  refine forall₂_congr fun c _ => ?_
  rcases encodeChar_cases c with ⟨hsmall, hself⟩ | ⟨hc, hbytes⟩
  · rw [hself, List.forall_mem_singleton, toNat_ofNat (by omega)]
  · exact iff_of_true (fun b hb => hlarge _ (hbytes b hb)) (hlarge _ hc)

/-- Texts with the same bytes are the same. -/
theorem encode_inj {first second : String} (h : encode first = encode second) : first = second := by
  rw [← decode_encode first, h, decode_encode]

/-- A text is written one character after another. -/
theorem encode_append (front back : String) :
    encode (front ++ back) = encode front ++ encode back := by
  rw [encode, String.toList_append, List.flatMap_append]
  rfl

/-- The size of a text is the number of its bytes. -/
theorem utf8ByteSize_eq (text : String) : text.utf8ByteSize = (encode text).length := by
  conv => lhs; rw [← String.ofList_toList (s := text)]
  rw [← String.size_toByteArray, String.toByteArray_ofList, List.utf8Encode,
    List.size_toByteArray]
  rfl

/-! ### Cutting at a small byte -/

section
variable {c : Char}

/-- The byte of a small character begins that character and occurs in no other one. -/
theorem encodeChar_eq_or_ne (hc : c.toNat < 128) (d : Char) :
    (d = c ∧ String.utf8EncodeChar d = [UInt8.ofNat c.toNat]) ∨
      (d ≠ c ∧ ∀ b ∈ String.utf8EncodeChar d, (b != UInt8.ofNat c.toNat) = true) := by
  have hbyte : (UInt8.ofNat c.toNat).toNat = c.toNat := toNat_ofNat (by omega)
  by_cases hd : d = c
  · subst hd
    rcases encodeChar_cases d with ⟨-, hself⟩ | ⟨hlarge, -⟩
    · exact .inl ⟨rfl, hself⟩
    · omega
  · refine .inr ⟨hd, ?_⟩
    intro b hb
    rw [bne_iff_ne]
    rintro rfl
    rcases encodeChar_cases d with ⟨hsmall, hself⟩ | ⟨-, hlarge⟩
    · rw [hself, List.mem_singleton] at hb
      have hsame := congrArg UInt8.toNat hb
      rw [hbyte, toNat_ofNat (by omega)] at hsame
      exact hd (Char.toNat_inj.1 hsame.symm)
    · have := hlarge _ hb
      omega

/-- What stands in front of a small byte is what stands in front of its character. -/
theorem takeWhile_flatMap (hc : c.toNat < 128) (text : List Char) :
    (text.flatMap String.utf8EncodeChar).takeWhile (· != UInt8.ofNat c.toNat)
      = (text.takeWhile (· != c)).flatMap String.utf8EncodeChar := by
  induction text with
  | nil => rfl
  | cons d text ih =>
    rw [List.flatMap_cons]
    rcases encodeChar_eq_or_ne hc d with ⟨rfl, hself⟩ | ⟨hne, hother⟩
    · simp [hself]
    · rw [List.takeWhile_append_of_pos hother, ih, List.takeWhile_cons_of_pos (by simpa using hne),
        List.flatMap_cons]

/-- What stands behind it is what stands behind the character. -/
theorem dropWhile_flatMap (hc : c.toNat < 128) (text : List Char) :
    (text.flatMap String.utf8EncodeChar).dropWhile (· != UInt8.ofNat c.toNat)
      = (text.dropWhile (· != c)).flatMap String.utf8EncodeChar := by
  induction text with
  | nil => rfl
  | cons d text ih =>
    rw [List.flatMap_cons]
    rcases encodeChar_eq_or_ne hc d with ⟨rfl, hself⟩ | ⟨hne, hother⟩
    · simp [hself]
    · rw [List.dropWhile_append_of_pos hother, ih, List.dropWhile_cons_of_pos (by simpa using hne)]

end

/-! ### Small bytes behind any others -/

/-- The second byte of a sequence is never small. -/
theorem le_low_of_lead? {b : UInt8} {lead : Lead} (h : lead? b = some lead) : 0x80 ≤ lead.low := by
  unfold lead? at h
  repeat' split at h
  all_goals cases h <;> dsimp only <;> decide

/-- Bytes that are taken as long as they continue end in front of one that does not. -/
theorem takeWhile_take_append {α : Type} {p : α → Bool} {x : α} (h : p x = false)
    (front rest : List α) (count : Nat) :
    ((front ++ x :: rest).take count).takeWhile p = (front.take count).takeWhile p := by
  induction front generalizing count with
  | nil =>
    cases count with
    | zero => rfl
    | succ count =>
      rw [List.nil_append, List.take_succ_cons, List.takeWhile_cons_of_neg (by simp [h])]
      rfl
  | cons y front ih =>
    cases count with
    | zero => rfl
    | succ count => simp only [List.cons_append, List.take_succ_cons, List.takeWhile_cons, ih]

section
variable {b : UInt8}

/-- A sequence ends in front of a small byte. -/
theorem Lead.tail_append {lead : Lead} (hlead : 0x80 ≤ lead.low) (hb : b < 0x80)
    (front rest : Bytes) : lead.tail (front ++ b :: rest) = lead.tail front := by
  cases front with
  | nil =>
    have hlow : ¬ lead.low ≤ b := fun hle =>
      absurd (UInt8.lt_of_lt_of_le hb hlead) (UInt8.not_lt.2 hle)
    simp [Lead.tail, hlow]
  | cons c front =>
    have hstops : isContinuation b = false := by
      simp [isContinuation, UInt8.not_le.2 hb]
    simp only [List.cons_append, Lead.tail, takeWhile_take_append hstops]

/-- What a byte starts with is not changed by a small byte behind it. -/
theorem next_append (hb : b < 0x80) (first : UInt8) (front rest : Bytes) :
    next first (front ++ b :: rest) = next first front := by
  unfold next
  split
  · rfl
  · cases hlead : lead? first with
    | none => rfl
    | some lead => simp only [Lead.tail_append (le_low_of_lead? hlead) hb]

/-- Only bytes that are there belong to a sequence. -/
theorem next_snd_le (first : UInt8) (rest : Bytes) : (next first rest).2 ≤ rest.length := by
  have htail : ∀ lead : Lead, (lead.tail rest).length ≤ rest.length := by
    intro lead
    cases rest with
    | nil => exact Nat.le_refl 0
    | cons c rest =>
      rw [Lead.tail]
      split
      · refine Nat.succ_le_succ ?_
        exact Nat.le_trans (List.takeWhile_prefix _).length_le (List.length_take_le' _ _)
      · exact Nat.zero_le _
  unfold next
  split
  · exact Nat.zero_le _
  · cases lead? first with
    | none => exact Nat.zero_le _
    | some lead =>
      simp only
      split
      · exact htail lead
      · exact htail lead

/-- Bytes are decoded up to an ASCII byte and from it on, so no character reaches across it. -/
theorem decodeInto_append_small (hb : b < 0x80) (front rest : Bytes) {skip : Nat}
    (hskip : skip ≤ front.length) :
    decodeInto [] skip (front ++ b :: rest)
      = decodeInto [] skip front ++ decodeChars (b :: rest) := by
  induction front generalizing skip with
  | nil =>
    cases Nat.le_zero.1 hskip
    rfl
  | cons first front ih =>
    cases skip with
    | succ skip => exact ih (Nat.le_of_succ_le_succ hskip)
    | zero =>
      simp only [List.cons_append, decodeInto, next_append hb]
      rw [decodeInto_eq, decodeInto_eq [(next first front).1] _ front, ih (next_snd_le first front),
        List.append_assoc]

end

/-- Bytes below 128 are read apart from those in front of them. -/
theorem decodeChars_append (front : Bytes) {tail : Bytes} (h : ∀ b ∈ tail, b < 0x80) :
    decodeChars (front ++ tail) = decodeChars front ++ decodeChars tail := by
  cases tail with
  | nil => simp [decodeChars, decodeInto]
  | cons b tail =>
    exact decodeInto_append_small (h b List.mem_cons_self) front tail (Nat.zero_le _)

/-- Bytes below 128 are read as what they stand for, whatever follows. -/
theorem decodeChars_append_of_small {front : Bytes} (h : ∀ b ∈ front, b < 0x80) (rest : Bytes) :
    decodeChars (front ++ rest) = front.map (fun b => Char.ofNat b.toNat) ++ decodeChars rest := by
  induction front with
  | nil => rfl
  | cons b front ih =>
    obtain ⟨hb, hfront⟩ := List.forall_mem_cons.1 h
    have hnext : next b ([] ++ (front ++ rest)) = (Char.ofNat b.toNat, ([] : Bytes).length) := by
      simp only [next, hb, if_true, List.length_nil]
    rw [List.map_cons, List.cons_append, List.cons_append, ← ih hfront]
    exact decodeChars_of_next [] hnext

end NtripClient.Utf8
