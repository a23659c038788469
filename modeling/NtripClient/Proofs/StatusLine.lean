import NtripClient.Proofs.Text.Utf8
import NtripClient.Proofs.Trim
import NtripClient.StatusLine

/-!
# `NtripClient.Proofs.StatusLine`: a status line that is written is read back

Much of a line is lost when it is read: bytes that are no text, the blanks between its parts, the
spelling of its code. What is left is tidy (`IsTidy`): the protocol is a token, and the message has
no blank in front of it and no line end behind it. That is enough to find the parts again in the
text of the line (`IsTidy.ofChars_text`), although the protocol and the message may have other
blanks and line ends inside of them.

Only a line of blanks has no protocol, and its text is read as something else. The line ends behind
a line and the blanks in front of it are trimmed, even if the line stops in the middle of a
character (`read_back`).
-/

set_option autoImplicit false

namespace NtripClient

/-- A digit is no blank. -/
theorem isBlank_of_isDigit {c : Char} (h : c.isDigit = true) : isBlank c = false := by
  have hrange := Char.isDigit_iff_toNat.1 h
  simp only [Char.reduceToNat] at hrange
  unfold isBlank
  simp only [Bool.or_eq_false_iff, Bool.and_eq_false_iff, decide_eq_false_iff_not,
    beq_eq_false_iff_ne]
  omega

namespace StatusLine

variable {line : StatusLine} {token gap word rest chars : List Char}

/-! ### Tokens -/

/-- The characters that end a token. -/
def IsBreak (c : Char) : Prop :=
  c = ' ' ∨ c = '\t'

/-- A token as it stands in a line: it does not begin with a blank, and it ends before the first
space or tab. There may be other blanks in it. -/
structure IsToken (token : List Char) : Prop where
  front : ∃ c rest, token = c :: rest ∧ isBlank c = false
  inline : ∀ c ∈ token, ¬ IsBreak c

/-- What may stand between two tokens: blanks, and first of all a space or tab. -/
structure IsGap (gap : List Char) : Prop where
  front : ∃ c rest, gap = c :: rest ∧ IsBreak c
  blank : ∀ c ∈ gap, isBlank c = true

/-- A token without any blanks, as all codes are. -/
structure IsWord (word : List Char) : Prop where
  nonempty : word ≠ []
  solid : ∀ c ∈ word, isBlank c = false

/-- What is no blank does not end a token. -/
theorem not_isBreak_of_isBlank {c : Char} (h : isBlank c = false) : ¬ IsBreak c := by
  rintro (rfl | rfl) <;> exact absurd h (by decide)

/-- A word is a token. -/
theorem IsWord.isToken (h : IsWord word) : IsToken word := by
  obtain ⟨c, rest, rfl⟩ := List.exists_cons_of_ne_nil h.nonempty
  exact ⟨⟨c, rest, rfl, h.solid c List.mem_cons_self⟩,
    fun d hd => not_isBreak_of_isBlank (h.solid d hd)⟩

/-- Nothing is trimmed in front of a token. -/
theorem IsToken.dropWhile_append (h : IsToken token) (rest : List Char) :
    (token ++ rest).dropWhile isBlank = token ++ rest := by
  obtain ⟨c, tail, rfl, hc⟩ := h.front
  rw [List.cons_append, List.dropWhile_cons_of_neg (by simp [hc])]

/-- A token ends in front of a space or tab, and the blanks behind it are passed over. -/
theorem IsToken.splitToken_append (h : IsToken token) (hrest : ∀ c ∈ rest.head?, IsBreak c) :
    splitToken (token ++ rest) = (token, rest.dropWhile isBlank) := by
  have hinline : ∀ c ∈ token, (!(c == ' ' || c == '\t')) = true := by
    intro c hc
    simpa [IsBreak] using h.inline c hc
  simp only [splitToken]
  rw [List.takeWhile_append_of_pos hinline, List.dropWhile_append_of_pos hinline]
  cases rest with
  | nil => simp
  | cons c rest =>
    have hbreak : (c == ' ' || c == '\t') = true := by
      rcases hrest c rfl with rfl | rfl <;> rfl
    simp only [List.takeWhile_cons, List.dropWhile_cons, hbreak, Bool.not_true, Bool.false_eq_true,
      if_false, List.append_nil]

/-- What a text is split into. -/
theorem splitToken_spec (text : List Char) :
    (∀ c ∈ (splitToken text).1, ¬ IsBreak c) ∧ (splitToken text).2 <:+ text ∧
      ∀ c ∈ (splitToken text).2.head?, isBlank c = false := by
  refine ⟨?_, ?_, fun c hc => of_mem_head?_dropWhile hc⟩
  · intro c hc
    have hnot := List.mem_takeWhile_imp hc
    simpa [IsBreak] using hnot
  · exact (List.dropWhile_suffix _).trans (List.dropWhile_suffix _)

/-- A text that does not begin with a blank begins with a token. -/
theorem isToken_splitToken {c : Char} (hc : isBlank c = false) (rest : List Char) :
    IsToken (splitToken (c :: rest)).1 := by
  refine ⟨⟨c, rest.takeWhile fun d => !(d == ' ' || d == '\t'), ?_, hc⟩, (splitToken_spec _).1⟩
  have hbreak : (!(c == ' ' || c == '\t')) = true := by
    simpa [IsBreak] using not_isBreak_of_isBlank hc
  simp only [splitToken, List.takeWhile_cons, hbreak, if_true]

/-! ### The code -/

/-- Digits are read as a code, whether or not a plus sign stands in front of them. -/
theorem code?_of_digits {sign digits : List Char} (hsign : sign = [] ∨ sign = ['+'])
    (h : ∀ c ∈ digits, c.isDigit = true) :
    code? (sign ++ digits) = (Numeral.below? 10 65536 digits).map UInt16.ofNat := by
  rcases hsign with rfl | rfl
  · rw [List.nil_append]
    unfold code?
    split
    · exact absurd (h '+' List.mem_cons_self) (by decide)
    · rfl
  · rfl

/-- A code is read as its value, however many zeros stand in front of it. -/
theorem code?_decimal {sign : List Char} (hsign : sign = [] ∨ sign = ['+']) (count : Nat) {n : Nat}
    (hn : n < 65536) :
    code? (sign ++ (List.replicate count '0' ++ Numeral.decimal n)) = some (UInt16.ofNat n) := by
  rw [code?_of_digits hsign fun c hc => Numeral.isDigit_of_mem_zeros hc,
    Numeral.below?_ten (by decide), Numeral.decimal?_zeros]
  simp [Option.filter, hn]

/-- A code with a sign and zeros has no blanks. -/
theorem isWord_decimal {sign : List Char} (hsign : sign = [] ∨ sign = ['+']) (count n : Nat) :
    IsWord (sign ++ (List.replicate count '0' ++ Numeral.decimal n)) := by
  constructor
  case nonempty => simp [Numeral.decimal, Nat.toDigits_ne_nil]
  case solid =>
    intro c hc
    rcases List.mem_append.1 hc with hplus | hdigit
    · rcases hsign with rfl | rfl
      · cases hplus
      · rw [List.mem_singleton.1 hplus]
        rfl
    · exact isBlank_of_isDigit (Numeral.isDigit_of_mem_zeros hdigit)

/-- The code of a line is found in its text. -/
theorem code?_codeText (line : StatusLine) : code? line.codeText = line.code := by
  unfold codeText
  cases line.code with
  | none => rfl
  | some code =>
    have hread := code?_decimal (.inl rfl) 0 code.toNat_lt
    rw [UInt16.ofNat_toNat] at hread
    exact hread

/-- A code is written as a word, also if there is none. -/
theorem isWord_codeText (line : StatusLine) : IsWord line.codeText := by
  unfold codeText
  split
  · exact isWord_decimal (.inl rfl) 0 _
  · refine ⟨List.cons_ne_nil _ _, fun c hc => ?_⟩
    rw [List.eq_of_mem_replicate (show c ∈ List.replicate 3 '?' from hc)]
    rfl

/-! ### Both ends of a line -/

/-- The characters that are trimmed from the end of a line. -/
def isLineEnd (c : Char) : Bool :=
  c == '\r' || c == '\n'

/-- What is left of the characters of a line when both ends are trimmed. -/
def trimmed (chars : List Char) : List Char :=
  (dropTrailing isLineEnd chars).dropWhile isBlank

/-- A line is read from the characters that are left when both ends are trimmed. -/
theorem ofChars_eq (chars : List Char) :
    ofChars chars =
      { protocol := String.ofList (splitToken (trimmed chars)).1
        code := code? (splitToken (splitToken (trimmed chars)).2).1
        message := String.ofList (splitToken (splitToken (trimmed chars)).2).2 } := rfl

/-- The characters of a line end are blanks. -/
theorem isBlank_of_isLineEnd {c : Char} (h : isLineEnd c = true) : isBlank c = true := by
  rcases Bool.or_eq_true_iff.1 h with h | h <;> rw [beq_iff_eq.1 h] <;> rfl

/-- The blanks in front of a line and the line ends behind it are trimmed. -/
theorem trimmed_append {blanks ends : List Char} (hblanks : ∀ c ∈ blanks, isBlank c = true)
    (hends : ∀ c ∈ ends, isLineEnd c = true) :
    trimmed (blanks ++ chars ++ ends) = trimmed chars := by
  unfold trimmed
  rw [dropTrailing_append_of_pos hends]
  by_cases hnil : dropTrailing isLineEnd chars = []
  · -- Only line ends follow the blanks.
    have hall : ∀ c ∈ chars, isLineEnd c = true := List.rdropWhile_eq_nil_iff.1 hnil
    rw [dropTrailing_append_of_pos hall, hnil, List.dropWhile_nil, List.dropWhile_eq_nil_iff]
    exact fun c hc => hblanks c ((isPrefix_dropTrailing _ _).subset hc)
  · rw [dropTrailing_append_of_ne_nil hnil, List.dropWhile_append_of_pos hblanks]

/-- Only blanks leave nothing. -/
theorem trimmed_eq_nil_iff : trimmed chars = [] ↔ ∀ c ∈ chars, isBlank c = true := by
  unfold trimmed
  rw [List.dropWhile_eq_nil_iff]
  constructor
  · intro h c hc
    rcases mem_dropTrailing_or hc with hleft | hend
    · exact h c hleft
    · exact isBlank_of_isLineEnd hend
  · exact fun h c hc => h c ((isPrefix_dropTrailing _ _).subset hc)

/-- What is left does not begin with a blank. -/
theorem trimmed_front (chars : List Char) : ∀ c ∈ (trimmed chars).head?, isBlank c = false :=
  fun _ hc => of_mem_head?_dropWhile hc

/-- It does not end with a line end. -/
theorem trimmed_back (chars : List Char) :
    ∀ c ∈ (trimmed chars).getLast?, isLineEnd c = false := by
  intro c hc
  obtain ⟨front, hfront⟩ := List.dropWhile_suffix isBlank (l := dropTrailing isLineEnd chars)
  refine of_mem_getLast?_dropTrailing (l := chars) (p := isLineEnd) ?_
  rw [← hfront, List.getLast?_append, ← trimmed, hc]
  rfl

/-! ### The parts of a line -/

/-- Line ends are trimmed only behind the last word. -/
theorem IsWord.dropTrailing_append (h : IsWord word) (front rest : List Char) :
    dropTrailing isLineEnd (front ++ word ++ rest)
      = front ++ word ++ dropTrailing isLineEnd rest := by
  refine dropTrailing_append_of_getLast? fun c hc => ?_
  rw [List.getLast?_append_of_ne_nil _ h.nonempty] at hc
  cases hend : isLineEnd c with
  | false => rfl
  | true =>
    have hsolid := h.solid c (List.mem_of_getLast? hc)
    rw [isBlank_of_isLineEnd hend] at hsolid
    cases hsolid

/-- A line is read part by part: a token, a gap, a code, and a message behind another gap. -/
theorem ofChars_append (htoken : IsToken token) (hgap : IsGap gap) (hword : IsWord word)
    (hrest : ∀ c ∈ rest.head?, IsBreak c) :
    ofChars (token ++ gap ++ word ++ rest) =
      { protocol := String.ofList token
        code := code? word
        message := String.ofList ((dropTrailing isLineEnd rest).dropWhile isBlank) } := by
  have htrimmed : trimmed (token ++ gap ++ word ++ rest)
      = token ++ (gap ++ (word ++ dropTrailing isLineEnd rest)) := by
    rw [trimmed, hword.dropTrailing_append]
    simp only [List.append_assoc, htoken.dropWhile_append]
  have hfirst : splitToken (trimmed (token ++ gap ++ word ++ rest))
      = (token, word ++ dropTrailing isLineEnd rest) := by
    obtain ⟨c, blanks, rfl, hc⟩ := hgap.front
    rw [htrimmed, htoken.splitToken_append (by rintro d ⟨⟩; exact hc),
      List.dropWhile_append_of_pos hgap.blank, hword.isToken.dropWhile_append]
  -- What is left of the rest still begins with a space or tab, or it is empty.
  have hsecond : splitToken (word ++ dropTrailing isLineEnd rest)
      = (word, (dropTrailing isLineEnd rest).dropWhile isBlank) := by
    refine hword.isToken.splitToken_append fun c hc => hrest c ?_
    obtain ⟨dropped, hdropped⟩ := isPrefix_dropTrailing isLineEnd rest
    rw [← hdropped, List.head?_append, hc]
    rfl
  rw [ofChars_eq, hfirst, hsecond]

/-! ### Tidy lines -/

/-- What is left of a line when it is read. -/
structure IsTidy (line : StatusLine) : Prop where
  protocol : IsToken line.protocol.toList
  /-- No blank stands in front of the message. -/
  front : ∀ c ∈ line.message.toList.head?, isBlank c = false
  /-- No line end stands behind it. -/
  back : ∀ c ∈ line.message.toList.getLast?, isLineEnd c = false

/-- The text of a line behind its code. -/
def messageText (line : StatusLine) : List Char :=
  if line.message.toList.isEmpty then [] else ' ' :: line.message.toList

/-- A line is written with its parts in a row. -/
theorem toList_text (line : StatusLine) :
    line.text.toList = line.protocol.toList ++ [' '] ++ line.codeText ++ line.messageText := by
  simp [text, messageText]

/-- The message is set off by a space. -/
theorem messageText_front (line : StatusLine) : ∀ c ∈ line.messageText.head?, IsBreak c := by
  unfold messageText
  split
  · rintro c ⟨⟩
  · rintro c ⟨⟩
    exact .inl rfl

/-- The message of a tidy line is what is left behind the code. -/
theorem IsTidy.trim_messageText (h : line.IsTidy) :
    (dropTrailing isLineEnd line.messageText).dropWhile isBlank = line.message.toList := by
  unfold messageText
  cases hmessage : line.message.toList with
  | nil => rfl
  | cons c message =>
    have hc : isBlank c = false := h.front c (by rw [hmessage]; rfl)
    have hback : dropTrailing isLineEnd (c :: message) = c :: message :=
      dropTrailing_eq_self (hmessage ▸ h.back)
    have hspace : dropTrailing isLineEnd ([' '] ++ c :: message) = [' '] ++ c :: message := by
      rw [dropTrailing_append_of_getLast? (by rintro d ⟨⟩; rfl), hback]
    simp only [List.isEmpty_cons, Bool.false_eq_true, if_false]
    rw [← List.singleton_append, hspace,
      List.dropWhile_append_of_pos (List.forall_mem_singleton.2 rfl),
      List.dropWhile_cons_of_neg (by simp [hc])]

/-- The text of a tidy line is read as the line. -/
theorem IsTidy.ofChars_text (h : line.IsTidy) : ofChars line.text.toList = line := by
  have hspace : IsGap [' '] := ⟨⟨' ', [], rfl, .inl rfl⟩, List.forall_mem_singleton.2 rfl⟩
  rw [toList_text, ofChars_append h.protocol hspace line.isWord_codeText line.messageText_front,
    code?_codeText, h.trim_messageText, String.ofList_toList, String.ofList_toList]

/-! ### What is read is tidy -/

/-- A line that is more than blanks is tidy once it is read. -/
theorem isTidy_ofChars (h : ∃ c ∈ chars, isBlank c = false) : (ofChars chars).IsTidy := by
  have hne : trimmed chars ≠ [] := by
    intro hnil
    obtain ⟨c, hc, hfalse⟩ := h
    rw [trimmed_eq_nil_iff.1 hnil c hc] at hfalse
    cases hfalse
  obtain ⟨first, rest, htrimmed⟩ := List.exists_cons_of_ne_nil hne
  have hfirst : isBlank first = false :=
    trimmed_front chars first (by rw [htrimmed]; rfl)
  obtain ⟨-, hsuffix, -⟩ := splitToken_spec (trimmed chars)
  obtain ⟨-, hsuffix', hmessage⟩ := splitToken_spec (splitToken (trimmed chars)).2
  rw [ofChars_eq]
  constructor
  case protocol =>
    rw [String.toList_ofList, htrimmed]
    exact isToken_splitToken hfirst rest
  case front =>
    rw [String.toList_ofList]
    exact hmessage
  case back =>
    rw [String.toList_ofList]
    intro c hc
    -- The message is the end of what is left of the line.
    obtain ⟨front, hfront⟩ := hsuffix'.trans hsuffix
    refine trimmed_back chars c ?_
    rw [← hfront, List.getLast?_append, hc]
    rfl

/-- A line of blanks has no protocol, no code and no message. -/
theorem ofChars_of_blank (h : ∀ c ∈ chars, isBlank c = true) :
    ofChars chars = { protocol := "", code := none, message := "" } := by
  rw [ofChars_eq, trimmed_eq_nil_iff.2 h]
  rfl

/-- The text of a line is read as the line exactly if the line is more than blanks. -/
theorem ofChars_text_eq_iff :
    ofChars (ofChars chars).text.toList = ofChars chars ↔ ∃ c ∈ chars, isBlank c = false := by
  constructor
  · intro hback
    by_contra hnone
    have hblank : ∀ c ∈ chars, isBlank c = true := by
      intro c hc
      by_contra hnot
      exact hnone ⟨c, hc, Bool.eq_false_iff.2 hnot⟩
    -- The question marks of the missing code would be the protocol.
    rw [ofChars_of_blank hblank] at hback
    exact absurd (congrArg StatusLine.protocol hback) (by decide)
  · exact fun hmore => (isTidy_ofChars hmore).ofChars_text

/-! ### The main result -/

/-- The ASCII bytes that are blanks: tab to carriage return, and space. -/
def asciiBlanks : Bytes :=
  [0x09, 0x0A, 0x0B, 0x0C, 0x0D, 0x20]

/-- Blanks in front of the bytes of a line and line ends behind them change nothing. -/
theorem parse_append {blanks ends : Bytes} (hblanks : ∀ b ∈ blanks, b ∈ asciiBlanks)
    (hends : ∀ b ∈ ends, b = Bytes.cr ∨ b = Bytes.lf) (bytes : Bytes) :
    parse (blanks ++ bytes ++ ends) = parse bytes := by
  have hsmall : ∀ b ∈ asciiBlanks, b < 0x80 ∧ isBlank (Char.ofNat b.toNat) = true := by
    simp only [asciiBlanks, List.forall_mem_cons, List.not_mem_nil, false_implies, implies_true,
      and_true]
    decide
  have hend : ∀ b ∈ ends, b < 0x80 ∧ isLineEnd (Char.ofNat b.toNat) = true := by
    intro b hb
    rcases hends b hb with rfl | rfl <;> decide
  -- The ends are read on their own, even behind a character that is cut short.
  have hlast : Utf8.decodeChars ends = ends.map fun b => Char.ofNat b.toNat := by
    have hread := Utf8.decodeChars_append_of_small (fun b hb => (hend b hb).1) []
    rwa [List.append_nil, show Utf8.decodeChars [] = [] from rfl, List.append_nil] at hread
  rw [parse, List.append_assoc,
    Utf8.decodeChars_append_of_small (fun b hb => (hsmall b (hblanks b hb)).1),
    Utf8.decodeChars_append bytes (fun b hb => (hend b hb).1), hlast, ← List.append_assoc,
    ofChars_eq, trimmed_append, ← ofChars_eq, ← parse]
  · exact List.forall_mem_map.2 fun b hb => (hsmall b (hblanks b hb)).2
  · exact List.forall_mem_map.2 fun b hb => (hend b hb).2

/-- What is kept when the line that is read from some bytes is written. -/
structure Keeps (bytes : Bytes) : Prop where
  /-- The text of the line is read as the line, exactly if the bytes are more than blanks. -/
  back : parse (Utf8.encode (parse bytes).text) = parse bytes ↔
    ∃ c ∈ Utf8.decodeChars bytes, isBlank c = false
  /-- Blanks in front and line ends behind change nothing. -/
  framed : ∀ blanks ends : Bytes, (∀ b ∈ blanks, b ∈ asciiBlanks) →
    (∀ b ∈ ends, b = Bytes.cr ∨ b = Bytes.lf) → parse (blanks ++ bytes ++ ends) = parse bytes
  /-- A code is read as its value and is written without a sign and without zeros in front. -/
  value : ∀ token gap sign rest count n, IsToken token → IsGap gap → sign = [] ∨ sign = ['+'] →
    n < 65536 → (∀ c ∈ rest.head?, IsBreak c) →
    Utf8.decodeChars bytes =
      token ++ gap ++ (sign ++ (List.replicate count '0' ++ Numeral.decimal n)) ++ rest →
    (parse bytes).code = some (UInt16.ofNat n) ∧ (parse bytes).codeText = Numeral.decimal n

/-- **A status line that is written is read back.** For all bytes, the text of the line that is read
from them is read as the same line unless they are blanks only, and neither the blanks in front, nor
the line ends behind, nor the spelling of the code make a difference. -/
theorem read_back (bytes : Bytes) : Keeps bytes := by
  constructor
  case back =>
    have hchars : parse (Utf8.encode (parse bytes).text) = ofChars (parse bytes).text.toList := by
      rw [parse, Utf8.encode, Utf8.decodeChars_flatMap]
    rw [hchars]
    exact ofChars_text_eq_iff
  case framed =>
    intro blanks ends hblanks hends
    exact parse_append hblanks hends bytes
  case value =>
    intro token gap sign rest count n htoken hgap hsign hn hrest hbytes
    have hcode : (parse bytes).code = some (UInt16.ofNat n) := by
      rw [parse, hbytes, ofChars_append htoken hgap (isWord_decimal hsign count n) hrest,
        code?_decimal hsign count hn]
    refine ⟨hcode, ?_⟩
    unfold codeText
    rw [hcode]
    simp only [UInt16.toNat_ofNat', Nat.mod_eq_of_lt hn]

/-- A line with a no-break space in its first token, a wide gap, a code with a sign and zeros, a
line end in its message, and an unfinished character at its end. -/
def looseLine : Bytes :=
  Utf8.encode "HTTP\u00A01.1\t\u2003+00200 O\rK " ++ [0xE2, 0x82]

/-- It is read back, and neither the line end nor the blank around it is seen. -/
theorem read_back_looseLine :
    parse (Utf8.encode (parse looseLine).text) = parse looseLine ∧
      parse (Utf8.encode " " ++ looseLine ++ Utf8.encode "\r\n") = parse looseLine ∧
      (parse looseLine).code = some 200 ∧
      (parse looseLine).text = "HTTP\u00A01.1 200 O\rK \uFFFD" := by
  refine ⟨(read_back looseLine).back.2 ⟨'H', by decide +kernel, by decide⟩,
    (read_back looseLine).framed _ _ (by decide +kernel) (by decide +kernel), ?_⟩
  decide +kernel

end StatusLine

end NtripClient
