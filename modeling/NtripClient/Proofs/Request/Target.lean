import NtripClient.Connection
import NtripClient.Proofs.Text.Utf8
import NtripClient.Proofs.Trim

/-!
# `NtripClient.Proofs.Request.Target`: which mountpoints are targets, and which target they are

`Target.ofMountpoint` works on characters. Servers look at bytes, and `Target.IsAllowed` says in
their words what a target may be: up to the first `#`, each byte has to be allowed where it stands,
and paths and queries have sets of their own. Nothing is asked of the bytes behind the `#`, but they
count for the length, like the slash that is put in front.

* `Target.isAllowed_flatMap_iff`: a text is allowed by its bytes exactly if its path and its query
  hold valid characters only.
* `Target.split_chars`: the text of a target is split into the parts that it was put together from.
  So no two targets have one text (`Target.text_inj`).
* `Target.ofMountpoint_cases`: a mountpoint is a target, or it is not for one of two reasons. The
  text of a target is read as this target again (`Target.ofMountpoint_text`).
* `Target.normalizes_ofMountpoint` is the main statement, and `Target.Normalizes` says what it comes
  to.
-/

set_option autoImplicit false

namespace NtripClient

namespace Target

/-! ### What a target is made of -/

/-- A character of a path lies above the space, is not DEL, and does not end the path. -/
theorem of_isPathChar {c : Char} (h : isPathChar c = true) :
    32 < c.toNat ∧ c.toNat ≠ 127 ∧ c ≠ '#' ∧ c ≠ '?' := by
  have hrange : 32 < c.toNat ∧ c.toNat ≠ 127 := by
    simp only [isPathChar, Bool.or_eq_true, Bool.and_eq_true, beq_iff_eq, decide_eq_true_eq] at h
    omega
  refine ⟨hrange.1, hrange.2, ?_, ?_⟩
  · rintro rfl
    exact absurd h (by decide)
  · rintro rfl
    exact absurd h (by decide)

/-- A character of a query lies above the space, is not DEL, and does not end the query. -/
theorem of_isQueryChar {c : Char} (h : isQueryChar c = true) :
    32 < c.toNat ∧ c.toNat ≠ 127 ∧ c ≠ '#' := by
  have hrange : 32 < c.toNat ∧ c.toNat ≠ 127 := by
    simp only [isQueryChar, Bool.or_eq_true, Bool.and_eq_true, beq_iff_eq, decide_eq_true_eq] at h
    omega
  refine ⟨hrange.1, hrange.2, ?_⟩
  rintro rfl
  exact absurd h (by decide)

section
variable {target : Target} {c : Char}

/-- The text of a target is made of its characters. -/
@[simp] theorem toList_text (target : Target) : target.text.toList = target.chars :=
  String.toList_ofList

/-- So it is with the path of a target. -/
theorem of_mem_path (h : c ∈ target.path) :
    32 < c.toNat ∧ c.toNat ≠ 127 ∧ c ≠ '#' ∧ c ≠ '?' :=
  of_isPathChar (List.all_eq_true.1 target.path_valid c h)

/-- A target holds no space, no control character and no `#`. -/
theorem of_mem_chars (h : c ∈ target.chars) : 32 < c.toNat ∧ c.toNat ≠ 127 ∧ c ≠ '#' := by
  have hpath : ∀ {c}, c ∈ target.path → 32 < c.toNat ∧ c.toNat ≠ 127 ∧ c ≠ '#' := by
    intro c hc
    obtain ⟨hlt, hdelete, hhash, -⟩ := of_mem_path hc
    exact ⟨hlt, hdelete, hhash⟩
  unfold chars at h
  split at h
  · exact hpath h
  · rename_i query hquery
    rcases List.mem_append.1 h with hc | hrest
    · exact hpath hc
    · rcases List.mem_cons.1 hrest with rfl | hmem
      · decide
      · have hvalid := target.query_valid query hquery
        exact of_isQueryChar (List.all_eq_true.1 hvalid c hmem)

/-- The bytes of a target lie above the space, and neither DEL nor the number sign is among them. -/
theorem of_mem_bytes {b : UInt8} (h : b ∈ Utf8.encode target.text) :
    32 < b.toNat ∧ b ≠ 127 ∧ b ≠ 35 := by
  have hchars : ∀ c ∈ target.chars, 32 < c.toNat ∧ c.toNat ≠ 127 ∧ c.toNat ≠ 35 := by
    intro c hc
    obtain ⟨hlt, hdelete, hhash⟩ := of_mem_chars hc
    exact ⟨hlt, hdelete, fun h => hhash (Char.toNat_inj.1 h)⟩
  have hbytes := (Utf8.forall_mem_flatMap_iff (P := fun n => 32 < n ∧ n ≠ 127 ∧ n ≠ 35)
    (fun n hn => by omega)).2 hchars
  rw [Utf8.encode, toList_text] at h
  obtain ⟨hlt, hdelete, hhash⟩ := hbytes b h
  refine ⟨hlt, ?_, ?_⟩
  · rintro rfl
    exact hdelete rfl
  · rintro rfl
    exact hhash rfl

/-- The first character of a target is a slash. -/
theorem head?_chars (target : Target) : target.chars.head? = some '/' := by
  unfold chars
  split
  · exact target.path_head
  · rw [List.head?_append, target.path_head]
    rfl

/-- The text of a target is its path, or its path and its query with a question mark between. -/
theorem text_cases (target : Target) :
    (target.query = none ∧ target.text.toList = target.path) ∨
      ∃ query, target.query = some query ∧ target.text.toList = target.path ++ '?' :: query := by
  rw [toList_text]
  unfold chars
  cases target.query with
  | none => exact .inl ⟨rfl, rfl⟩
  | some query => exact .inr ⟨query, rfl, rfl⟩

/-- There is no question mark in the path, so the first one in a text is the one behind it. -/
theorem mark_not_mem_path (target : Target) : '?' ∉ target.path := by
  intro hmem
  exact (of_mem_path hmem).2.2.2 rfl

/-- The characters of a target are split into its path and its query. -/
theorem split_chars (target : Target) : split target.chars = (target.path, target.query) := by
  have hkept : target.chars.takeWhile (· != '#') = target.chars := by
    rw [List.takeWhile_eq_self_iff]
    intro c hc
    simpa using (of_mem_chars hc).2.2
  have hpath := target.mark_not_mem_path
  -- Nothing is dropped behind a `#`, and the first question mark is the one behind the path.
  rw [split, hkept]
  unfold chars
  cases target.query with
  | none =>
    show (target.path.takeWhile _, (target.path.dropWhile _).tail?) = _
    rw [List.takeWhile_eq_self_iff.2 (bne_of_not_mem hpath),
      List.dropWhile_eq_nil_iff.2 (bne_of_not_mem hpath)]
    rfl
  | some query =>
    show ((target.path ++ '?' :: query).takeWhile _,
      ((target.path ++ '?' :: query).dropWhile _).tail?) = _
    rw [takeWhile_bne_append hpath, dropWhile_bne_append hpath]
    rfl

/-- What is split into a target is its characters, up to the first `#`. -/
theorem chars_of_split {characters : List Char}
    (h : split characters = (target.path, target.query)) :
    target.chars = characters.takeWhile (· != '#') := by
  obtain ⟨hpath, hquery⟩ := Prod.mk.inj h
  have hjoined := List.takeWhile_append_dropWhile (p := (· != '?'))
    (l := characters.takeWhile (· != '#'))
  unfold chars
  rw [← hpath, ← hquery]
  rcases dropWhile_bne_cases '?' (characters.takeWhile (· != '#')) with hnone | ⟨query, hsome⟩
  · rw [hnone, List.append_nil] at hjoined
    rw [hnone]
    exact hjoined
  · rw [hsome] at hjoined
    rw [hsome]
    exact hjoined

/-- A target has no other parts. -/
theorem eq_of_parts {first second : Target} (hpath : first.path = second.path)
    (hquery : first.query = second.query) : first = second := by
  cases first
  cases second
  cases hpath
  cases hquery
  rfl

/-- Targets with the same text are the same. -/
theorem text_inj {first second : Target} (h : first.text = second.text) : first = second := by
  have hchars : first.chars = second.chars := String.ofList_inj.1 h
  have hsplit := congrArg split hchars
  rw [split_chars, split_chars] at hsplit
  obtain ⟨hpath, hquery⟩ := Prod.mk.inj hsplit
  exact eq_of_parts hpath hquery

end

/-! ### What the bytes of a target may be -/

/-- The value of a byte that may stand in a path. -/
def IsPathValue (n : Nat) : Prop :=
  n = 0x21 ∨ n = 0x22 ∨ (0x24 ≤ n ∧ n ≤ 0x3B) ∨ n = 0x3D ∨ (0x40 ≤ n ∧ n ≤ 0x5F) ∨
    (0x61 ≤ n ∧ n ≤ 0x7E) ∨ 0x80 ≤ n

/-- The value of a byte that may stand in a query. -/
def IsQueryValue (n : Nat) : Prop :=
  n = 0x21 ∨ (0x24 ≤ n ∧ n ≤ 0x3B) ∨ n = 0x3D ∨ (0x3F ≤ n ∧ n ≤ 0x7E) ∨ 0x80 ≤ n

/-- Every byte in front of the first `#` may stand where it does. The first `?` ends the path, and
all that follows it is the query. -/
def IsAllowed (bytes : Bytes) : Prop :=
  ∀ front b rest, bytes = front ++ b :: rest → 35 ∉ front → b ≠ 35 →
    (63 ∉ front → b = 63 ∨ IsPathValue b.toNat) ∧ (63 ∈ front → IsQueryValue b.toNat)

/-- Only the bytes in front of the first `#` count. -/
theorem isAllowed_iff_kept {bytes : Bytes} : IsAllowed bytes ↔
    ∀ front b rest, bytes.takeWhile (· != 35) = front ++ b :: rest →
      (63 ∉ front → b = 63 ∨ IsPathValue b.toNat) ∧ (63 ∈ front → IsQueryValue b.toNat) := by
  constructor
  · intro h front b rest hkept
    have hother : ∀ c ∈ front ++ b :: rest, c ≠ 35 := by
      intro c hc
      rw [← hkept] at hc
      simpa using List.mem_takeWhile_imp hc
    have hbytes : bytes = front ++ b :: (rest ++ bytes.dropWhile (· != 35)) := by
      rw [← List.cons_append, ← List.append_assoc, ← hkept, List.takeWhile_append_dropWhile]
    refine h front b _ hbytes ?_ (hother b (by simp))
    intro hmem
    exact hother 35 (List.mem_append_left _ hmem) rfl
  · rintro h front b rest rfl hfront hb
    refine h front b (rest.takeWhile (· != 35)) ?_
    rw [List.takeWhile_append_of_pos (bne_of_not_mem hfront),
      List.takeWhile_cons_of_pos (by simpa using hb)]

/-- Bytes are allowed if those in front of the first `?` may stand in a path and those behind it in
a query. -/
theorem isAllowed_iff {bytes : Bytes} : IsAllowed bytes ↔
    (∀ b ∈ (bytes.takeWhile (· != 35)).takeWhile (· != 63), IsPathValue b.toNat) ∧
      ∀ query ∈ ((bytes.takeWhile (· != 35)).dropWhile (· != 63)).tail?,
        ∀ b ∈ query, IsQueryValue b.toNat := by
  rw [isAllowed_iff_kept]
  generalize bytes.takeWhile (· != 35) = kept
  have hparts := List.takeWhile_append_dropWhile (p := (· != 63)) (l := kept)
  have hpath : ∀ b ∈ kept.takeWhile (· != 63), b ≠ 63 := by
    intro b hb
    simpa using List.mem_takeWhile_imp hb
  constructor
  · intro h
    constructor
    · intro b hb
      obtain ⟨front, rest, hfront⟩ := List.append_of_mem hb
      have hnot : 63 ∉ front := by
        intro hmem
        exact hpath 63 (by rw [hfront]; exact List.mem_append_left _ hmem) rfl
      rw [hfront, List.append_assoc, List.cons_append] at hparts
      exact ((h front b _ hparts.symm).1 hnot).resolve_left (hpath b hb)
    · intro query hquery b hb
      obtain ⟨front, rest, rfl⟩ := List.append_of_mem hb
      -- Behind a `?` there is one, so this byte has to suit a query.
      rcases dropWhile_bne_cases 63 kept with hnone | ⟨other, hsome⟩
      · rw [hnone] at hquery
        cases hquery
      · rw [hsome] at hquery hparts
        cases hquery
        refine (h (kept.takeWhile (· != 63) ++ 63 :: front) b rest ?_).2 (by simp)
        rw [List.append_assoc, List.cons_append, hparts]
  · rintro ⟨hvalid, hquery⟩ front b rest rfl
    constructor
    · intro hnot
      by_cases hb : b = 63
      · exact .inl hb
      · refine .inr (hvalid b ?_)
        rw [List.takeWhile_append_of_pos (bne_of_not_mem hnot),
          List.takeWhile_cons_of_pos (by simpa using hb)]
        simp
    · intro hmem
      obtain ⟨path, front, rfl, hnot⟩ := List.eq_append_cons_of_mem hmem
      rw [List.append_assoc, List.cons_append, dropWhile_bne_append hnot] at hquery
      exact hquery _ rfl b (by simp)

/-- A text is allowed by its bytes exactly if its path and its query hold valid characters only. -/
theorem isAllowed_flatMap_iff {characters : List Char} :
    IsAllowed (characters.flatMap String.utf8EncodeChar) ↔
      (split characters).1.all isPathChar = true ∧
        ∀ query ∈ (split characters).2, query.all isQueryChar = true := by
  have hpath : ∀ text : List Char, text.all isPathChar = true ↔
      ∀ b ∈ text.flatMap String.utf8EncodeChar, IsPathValue b.toNat := by
    intro text
    rw [Utf8.forall_mem_flatMap_iff (fun n hn => by unfold IsPathValue; omega), List.all_eq_true]
    simp [isPathChar, IsPathValue, or_assoc]
  have hquery : ∀ text : List Char, text.all isQueryChar = true ↔
      ∀ b ∈ text.flatMap String.utf8EncodeChar, IsQueryValue b.toNat := by
    intro text
    rw [Utf8.forall_mem_flatMap_iff (fun n hn => by unfold IsQueryValue; omega), List.all_eq_true]
    simp [isQueryChar, IsQueryValue, or_assoc]
  have hkept := Utf8.takeWhile_flatMap (c := '#') (by decide) characters
  have hfront := Utf8.takeWhile_flatMap (c := '?') (by decide) (characters.takeWhile (· != '#'))
  have hback := Utf8.dropWhile_flatMap (c := '?') (by decide) (characters.takeWhile (· != '#'))
  -- The two marks are cut at alike, as bytes and as characters.
  change List.takeWhile (· != 35) _ = _ at hkept
  change List.takeWhile (· != 63) _ = _ at hfront
  change List.dropWhile (· != 63) _ = _ at hback
  rw [isAllowed_iff, hkept, hfront, hback, split, hpath]
  refine and_congr_right fun _ => ?_
  rcases dropWhile_bne_cases '?' (characters.takeWhile (· != '#')) with hnone | ⟨query, hsome⟩
  · rw [hnone]
    simp
  · have hmark : String.utf8EncodeChar '?' = [63] := by decide
    rw [hsome, List.flatMap_cons, hmark]
    simp [hquery]

/-! ### Reading a mountpoint -/

/-- A mountpoint with a slash in front, unless it has one. -/
def slashed (mountpoint : String) : String :=
  if mountpoint.toList.head? = some '/' then mountpoint else "/" ++ mountpoint

/-- The slash is put in front of the characters. -/
theorem toList_slashed (mountpoint : String) :
    (slashed mountpoint).toList = rooted mountpoint.toList := by
  unfold slashed rooted
  split
  · rfl
  · simp

/-- With the slash every mountpoint begins with one. -/
theorem head?_slashed (mountpoint : String) : (slashed mountpoint).toList.head? = some '/' := by
  rw [toList_slashed, rooted]
  split
  · assumption
  · rfl

/-- A text that starts with a slash is taken as it is. -/
theorem slashed_of_head? {text : String} (h : text.toList.head? = some '/') :
    slashed text = text :=
  if_pos h

/-- Neither mark is a slash, so the path begins where the text does. -/
theorem head?_split {characters : List Char} (h : characters.head? = some '/') :
    (split characters).1.head? = some '/' := by
  obtain ⟨rest, rfl⟩ := List.head?_eq_some_iff.1 h
  simp [split]

/-- The three ways in which reading a mountpoint can end. -/
theorem ofMountpoint_cases (mountpoint : String) :
    (65534 < (Utf8.encode (slashed mountpoint)).length ∧
        ofMountpoint mountpoint = .error .targetTooLong) ∨
      ((Utf8.encode (slashed mountpoint)).length ≤ 65534 ∧
        ¬ IsAllowed (Utf8.encode (slashed mountpoint)) ∧
        ofMountpoint mountpoint = .error .targetCharacter) ∨
      ((Utf8.encode (slashed mountpoint)).length ≤ 65534 ∧
        IsAllowed (Utf8.encode (slashed mountpoint)) ∧
        ∃ target, ofMountpoint mountpoint = .ok target ∧
          split (slashed mountpoint).toList = (target.path, target.query)) := by
  have hallowed : IsAllowed (Utf8.encode (slashed mountpoint)) ↔ _ := isAllowed_flatMap_iff
  have hhead := head?_split (head?_slashed mountpoint)
  simp only [ofMountpoint, ← toList_slashed, String.ofList_toList, Utf8.utf8ByteSize_eq, maxLength]
  by_cases hlong : 65534 < (Utf8.encode (slashed mountpoint)).length
  · exact .inl ⟨hlong, if_pos hlong⟩
  · rw [if_neg hlong, ofParts?]
    by_cases hvalid : IsAllowed (Utf8.encode (slashed mountpoint))
    · have hparts := hallowed.1 hvalid
      rw [dif_pos ⟨hhead, hparts⟩]
      exact .inr (.inr ⟨by omega, hvalid, _, rfl, rfl⟩)
    · have hparts := mt hallowed.2 hvalid
      rw [dif_neg fun h => hparts h.2]
      exact .inr (.inl ⟨by omega, hvalid, rfl⟩)

section
variable {mountpoint : String} {target : Target} {fault : RequestFault}

/-- A mountpoint is a target if it is not too long and allowed by its bytes. -/
theorem exists_ofMountpoint_eq_ok_iff : (∃ target, ofMountpoint mountpoint = .ok target) ↔
    (Utf8.encode (slashed mountpoint)).length ≤ 65534 ∧
      IsAllowed (Utf8.encode (slashed mountpoint)) := by
  rcases ofMountpoint_cases mountpoint with ⟨hlong, hread⟩ | ⟨-, hnot, hread⟩ |
    ⟨hlength, hallowed, target, hread, -⟩
  · simp [hread, Nat.not_le.2 hlong]
  · simp [hread, hnot]
  · exact iff_of_true ⟨target, hread⟩ ⟨hlength, hallowed⟩

/-- The length is looked at first, so a mountpoint may be too long and hold what it likes. -/
theorem ofMountpoint_eq_error_iff : ofMountpoint mountpoint = .error fault ↔
    (fault = .targetTooLong ∧ 65534 < (Utf8.encode (slashed mountpoint)).length) ∨
      (fault = .targetCharacter ∧ (Utf8.encode (slashed mountpoint)).length ≤ 65534 ∧
        ¬ IsAllowed (Utf8.encode (slashed mountpoint))) := by
  rcases ofMountpoint_cases mountpoint with ⟨hlong, hread⟩ | ⟨hlength, hnot, hread⟩ |
    ⟨hlength, hallowed, target, hread, -⟩
  · simp [hread, hlong, Nat.not_le.2 hlong, eq_comm]
  · simp [hread, hlength, hnot, Nat.not_lt.2 hlength, eq_comm]
  · simp [hread, hallowed, Nat.not_lt.2 hlength]

/-- A slash that is left out is put in front. -/
theorem ofMountpoint_slash (h : mountpoint.toList.head? ≠ some '/') :
    ofMountpoint ("/" ++ mountpoint) = ofMountpoint mountpoint := by
  have hrooted : rooted ("/" ++ mountpoint).toList = rooted mountpoint.toList := by
    simp [rooted, h]
  rw [ofMountpoint, hrooted, ofMountpoint]

/-- Reading the text of a target gives the target, unless the text is too long. -/
theorem ofMountpoint_text (h : (Utf8.encode target.text).length ≤ 65534) :
    ofMountpoint target.text = .ok target := by
  have hslashed : slashed target.text = target.text :=
    slashed_of_head? (by rw [toList_text, head?_chars])
  have hallowed : IsAllowed (Utf8.encode target.text) := by
    rw [Utf8.encode, toList_text, isAllowed_flatMap_iff, split_chars]
    exact ⟨target.path_valid, target.query_valid⟩
  have hcases := ofMountpoint_cases target.text
  rw [hslashed, toList_text, split_chars] at hcases
  rcases hcases with ⟨hlong, -⟩ | ⟨-, hnot, -⟩ | ⟨-, -, other, hread, hparts⟩
  · omega
  · exact absurd hallowed hnot
  · obtain ⟨hpath, hquery⟩ := Prod.mk.inj hparts
    rw [hread, eq_of_parts hpath hquery]

/-- What is known of a mountpoint that is a target. -/
theorem of_ofMountpoint_eq_ok (h : ofMountpoint mountpoint = .ok target) :
    (Utf8.encode (slashed mountpoint)).length ≤ 65534 ∧
      IsAllowed (Utf8.encode (slashed mountpoint)) ∧
      target.text.toList = (slashed mountpoint).toList.takeWhile (· != '#') := by
  rcases ofMountpoint_cases mountpoint with ⟨-, hread⟩ | ⟨-, -, hread⟩ |
    ⟨hlength, hallowed, other, hread, hparts⟩
  · rw [hread] at h
    cases h
  · rw [hread] at h
    cases h
  · rw [hread] at h
    cases h
    rw [toList_text]
    exact ⟨hlength, hallowed, chars_of_split hparts⟩

/-- The text is the mountpoint up to the first `#`, and all of it if there is none. -/
theorem exists_fragment (h : ofMountpoint mountpoint = .ok target) : ∃ fragment,
    (slashed mountpoint).toList = target.text.toList ++ fragment ∧ '#' ∉ target.text.toList ∧
      ∀ c ∈ fragment.head?, c = '#' := by
  obtain ⟨-, -, htext⟩ := of_ofMountpoint_eq_ok h
  refine ⟨(slashed mountpoint).toList.dropWhile (· != '#'), ?_, ?_, ?_⟩
  · rw [htext, List.takeWhile_append_dropWhile]
  · intro hmem
    rw [htext] at hmem
    simpa using List.mem_takeWhile_imp hmem
  · intro c hc
    simpa using of_mem_head?_dropWhile hc

/-- What is cut off does not make a text longer. -/
theorem length_encode_text_le (h : ofMountpoint mountpoint = .ok target) :
    (Utf8.encode target.text).length ≤ (Utf8.encode (slashed mountpoint)).length := by
  obtain ⟨fragment, hfragment, -⟩ := exists_fragment h
  rw [Utf8.encode, Utf8.encode, hfragment, List.flatMap_append, List.length_append]
  omega

end

end Target

namespace Config

/-- Sets what is asked for in place. The mountpoint is read before anything is set. -/
def assignMountpoint (mountpoint : String) : ExceptT RequestFault (StateM Config) Unit := do
  let target ← MonadExcept.ofExcept (Target.ofMountpoint mountpoint)
  modify fun config => { config with target }

/-- In place, a configuration becomes the one with the new target, or stays what it is. -/
theorem run_assignMountpoint (config : Config) (mountpoint : String) :
    (assignMountpoint mountpoint).run.run config =
      match config.setMountpoint mountpoint with
      | .ok changed => (.ok (), changed)
      | .error fault => (.error fault, config) := by
  unfold assignMountpoint setMountpoint
  cases Target.ofMountpoint mountpoint <;> rfl

end Config

namespace Target

/-- What comes of a mountpoint. Its bytes are those of the text with a slash in front. -/
structure Normalizes (mountpoint : String) : Prop where
  /-- It is a target exactly if it is not too long and every byte may stand where it does. -/
  accepts : (∃ target, ofMountpoint mountpoint = .ok target) ↔
    (Utf8.encode (slashed mountpoint)).length ≤ 65534 ∧ IsAllowed (Utf8.encode (slashed mountpoint))
  /-- If it is too long, that is its fault, whatever else is wrong with it. -/
  refuses : ∀ fault, ofMountpoint mountpoint = .error fault ↔
    (fault = .targetTooLong ∧ 65534 < (Utf8.encode (slashed mountpoint)).length) ∨
      (fault = .targetCharacter ∧ (Utf8.encode (slashed mountpoint)).length ≤ 65534 ∧
        ¬ IsAllowed (Utf8.encode (slashed mountpoint)))
  /-- The text of the target is the mountpoint, cut at the first `#`. -/
  cut : ∀ target, ofMountpoint mountpoint = .ok target → ∃ fragment,
    (slashed mountpoint).toList = target.text.toList ++ fragment ∧ '#' ∉ target.text.toList ∧
      ∀ c ∈ fragment.head?, c = '#'
  /-- It starts with a slash and holds no space, no control byte and no `#`. -/
  clean : ∀ target, ofMountpoint mountpoint = .ok target → target.text.toList.head? = some '/' ∧
    ∀ b ∈ Utf8.encode target.text, 32 < b.toNat ∧ b ≠ 127 ∧ b ≠ 35
  /-- It is the path, or the path and the query with the first question mark between them. -/
  parts : ∀ target, ofMountpoint mountpoint = .ok target → '?' ∉ target.path ∧
    ((target.query = none ∧ target.text.toList = target.path) ∨
      ∃ query, target.query = some query ∧ target.text.toList = target.path ++ '?' :: query)
  /-- Reading it again changes nothing. -/
  again : ∀ target, ofMountpoint mountpoint = .ok target → ofMountpoint target.text = .ok target
  /-- A slash may be left out. -/
  slash : mountpoint.toList.head? ≠ some '/' →
    ofMountpoint ("/" ++ mountpoint) = ofMountpoint mountpoint
  /-- A configuration that is given the target has it, and nothing else in it is changed. -/
  sets : ∀ target, ofMountpoint mountpoint = .ok target → ∀ config : Config,
    (Config.assignMountpoint mountpoint).run.run config = (.ok (), { config with target })
  /-- A mountpoint that is refused leaves a configuration, and that of a builder, as it was. -/
  keeps : ∀ fault, ofMountpoint mountpoint = .error fault →
    (∀ config : Config,
      (Config.assignMountpoint mountpoint).run.run config = (.error fault, config)) ∧
    ∀ builder : Builder, (builder.set (.mountpoint mountpoint)).config = builder.config

/-- **A mountpoint is read as one target or refused.** For every text: it is a target exactly if its
bytes are such as a target may have, the target is what stands in front of the first `#`, and its
own text is read as the same target. -/
theorem normalizes_ofMountpoint (mountpoint : String) : Normalizes mountpoint := by
  constructor
  case accepts => exact exists_ofMountpoint_eq_ok_iff
  case refuses => exact fun fault => ofMountpoint_eq_error_iff
  case cut =>
    intro target hread
    exact exists_fragment hread
  case clean =>
    intro target hread
    rw [toList_text]
    exact ⟨head?_chars target, fun b hb => of_mem_bytes hb⟩
  case parts =>
    intro target hread
    exact ⟨target.mark_not_mem_path, target.text_cases⟩
  case again =>
    intro target hread
    -- Cutting the fragment only shortens a text, so what is left keeps within the limit.
    have hle := length_encode_text_le hread
    have hlength := (of_ofMountpoint_eq_ok hread).1
    exact ofMountpoint_text (by omega)
  case slash => exact ofMountpoint_slash
  case sets =>
    intro target hread config
    rw [Config.run_assignMountpoint, Config.setMountpoint, hread]
    rfl
  case keeps =>
    intro fault hread
    constructor
    · intro config
      rw [Config.run_assignMountpoint, Config.setMountpoint, hread]
      rfl
    · intro builder
      simp only [Builder.set, Config.apply, Config.setMountpoint, hread]
      rfl

/-- The first question mark ends the path, the second one is part of the query, and the space
behind the `#` is not looked at. -/
example : (ofMountpoint "M\u00E9?a?b#c d").toOption.map text = some "/M\u00E9?a?b" := by
  decide +kernel

end Target

end NtripClient
