import SelectorTree.Text.Name

/-!
# Spellings of names

The writer spells every character of a name in one of three ways: as it is, behind a
backslash, or as a hexadecimal escape that a space closes.  A reader takes a name that
is spelled in this way for what it is, whatever stands behind it, as long as it
swallows the space.
-/

namespace SelectorTree.Text

variable {c : Char} {part text name rest : List Char} {blank : Char → Bool}

/-! ## Classes of characters by their codes -/

theorem isDigit_iff : c.isDigit = true ↔ 48 ≤ c.toNat ∧ c.toNat ≤ 57 :=
  Bool.and_eq_true_iff.trans (and_congr decide_eq_true_iff decide_eq_true_iff)

theorem isUpper_iff : c.isUpper = true ↔ 65 ≤ c.toNat ∧ c.toNat ≤ 90 := decide_eq_true_iff

theorem isLower_iff : c.isLower = true ↔ 97 ≤ c.toNat ∧ c.toNat ≤ 122 :=
  Bool.and_eq_true_iff.trans (and_congr decide_eq_true_iff decide_eq_true_iff)

theorem isAlpha_iff :
    c.isAlpha = true ↔ (65 ≤ c.toNat ∧ c.toNat ≤ 90) ∨ (97 ≤ c.toNat ∧ c.toNat ≤ 122) :=
  Bool.or_eq_true_iff.trans (or_congr isUpper_iff isLower_iff)

theorem isNameStart_iff : isNameStart c = true ↔
    (65 ≤ c.toNat ∧ c.toNat ≤ 90) ∨ (97 ≤ c.toNat ∧ c.toNat ≤ 122) ∨ c.toNat = 95 ∨
      128 ≤ c.toNat := by
  simp [isNameStart, isAlpha_iff, ← Char.toNat_inj, or_assoc]

theorem isNameChar_iff : isNameChar c = true ↔
    isNameStart c = true ∨ (48 ≤ c.toNat ∧ c.toNat ≤ 57) ∨ c.toNat = 45 := by
  simp [isNameChar, isDigit_iff, ← Char.toNat_inj, or_assoc]

theorem isHexDigit_iff : isHexDigit c = true ↔
    (48 ≤ c.toNat ∧ c.toNat ≤ 57) ∨ (97 ≤ c.toNat ∧ c.toNat ≤ 102) ∨
      (65 ≤ c.toNat ∧ c.toNat ≤ 70) := by
  simp [isHexDigit, isDigit_iff, Char.le_def, UInt32.le_iff_toNat_le, or_assoc]

theorem isControl_iff : isControl c = true ↔
    (1 ≤ c.toNat ∧ c.toNat ≤ 31) ∨ c.toNat = 127 := by
  simp [isControl]

theorem isNameChar_of_isHexDigit (digit : isHexDigit c = true) : isNameChar c = true := by
  rw [isHexDigit_iff] at digit
  rw [isNameChar_iff, isNameStart_iff]
  omega

theorem toNat_toLower (c : Char) :
    c.toLower.toNat = if 65 ≤ c.toNat ∧ c.toNat ≤ 90 then c.toNat + 32 else c.toNat := by
  have codes : (c.val ≥ 'A'.val ∧ c.val ≤ 'Z'.val) ↔ 65 ≤ c.toNat ∧ c.toNat ≤ 90 := by
    simp [UInt32.le_iff_toNat_le]
  unfold Char.toLower
  split
  · next upper =>
      rw [codes] at upper
      have small : c.val.toNat ≤ 90 := upper.2
      rw [if_pos upper]
      change (c.val + 32).toNat = c.val.toNat + 32
      rw [UInt32.toNat_add]
      exact Nat.mod_eq_of_lt (show c.val.toNat + 32 < 2 ^ 32 by omega)
  · next other => rw [if_neg fun inside => other (codes.mpr inside)]

theorem toLower_toLower (c : Char) : c.toLower.toLower = c.toLower := by
  rw [← Char.toNat_inj, toNat_toLower c.toLower, toNat_toLower c]
  by_cases upper : 65 ≤ c.toNat ∧ c.toNat ≤ 90
  · rw [if_pos upper, if_neg (by omega)]
  · rw [if_neg upper, if_neg upper]

/-- A text in lower case stays as it is. -/
theorem lower_lower (text : String) : lower (lower text) = lower text := by
  have twice : Char.toLower ∘ Char.toLower = Char.toLower := funext toLower_toLower
  rw [lower, toList_lower, List.map_map, twice]
  rfl

theorem isNameStart_toLower (c : Char) : isNameStart c.toLower = isNameStart c := by
  rw [Bool.eq_iff_iff, isNameStart_iff, isNameStart_iff, toNat_toLower]
  split <;> omega

theorem isDigit_toLower (c : Char) : c.toLower.isDigit = c.isDigit := by
  rw [Bool.eq_iff_iff, isDigit_iff, isDigit_iff, toNat_toLower]
  split <;> omega

theorem isAlpha_toLower (c : Char) : c.toLower.isAlpha = c.isAlpha := by
  rw [Bool.eq_iff_iff, isAlpha_iff, isAlpha_iff, toNat_toLower]
  split <;> omega

/-- Only letters have a case. -/
theorem beq_toLower {fixed : Char} (noLetter : fixed.isAlpha = false) (c : Char) :
    (c.toLower == fixed) = (c == fixed) := by
  rw [← Bool.not_eq_true, isAlpha_iff] at noLetter
  rw [Bool.eq_iff_iff, beq_iff_eq, beq_iff_eq, ← Char.toNat_inj, ← Char.toNat_inj, toNat_toLower]
  split <;> omega

theorem isNameChar_toLower (c : Char) : isNameChar c.toLower = isNameChar c := by
  rw [isNameChar, isNameChar, isNameStart_toLower, isDigit_toLower, beq_toLower rfl]

theorem not_isControl_of_isNameChar (named : isNameChar c = true) : isControl c = false := by
  rw [isNameChar_iff, isNameStart_iff] at named
  rw [← Bool.not_eq_true, isControl_iff]
  omega

/-! ## Hexadecimal escapes -/

theorem isHexDigit_of_mem_shortHex {code : Nat} (small : code < 256) :
    ∀ digit ∈ shortHex code, isHexDigit digit = true := by
  have all : ∀ code < 256, (shortHex code).all isHexDigit = true := by decide +kernel
  exact List.all_eq_true.mp (all code small)

theorem hexValue_shortHex {code : Nat} (small : code < 256) : hexValue (shortHex code) = code := by
  have all : ∀ code < 256, hexValue (shortHex code) = code := by decide +kernel
  exact all code small

theorem length_shortHex_le (code : Nat) : (shortHex code).length ≤ 2 := by
  rw [shortHex]
  split <;> simp

theorem ne_lineFeed_of_isHexDigit (digit : isHexDigit c = true) : c ≠ '\n' := by
  rintro rfl
  cases digit

/-- A short number begins with a digit, and so in the line in which it stands. -/
theorem exists_shortHex_eq_cons {code : Nat} (small : code < 256) :
    ∃ digit digits, shortHex code = digit :: digits ∧ isHexDigit digit = true ∧ digit ≠ '\n' := by
  have all := isHexDigit_of_mem_shortHex small
  cases written : shortHex code with
  | nil =>
      rw [shortHex] at written
      split at written <;> cases written
  | cons digit digits =>
      have first := all digit (by simp [written])
      exact ⟨digit, digits, rfl, first, ne_lineFeed_of_isHexDigit first⟩

/-- A row of digits that is not too long is split off up to the first other character. -/
theorem splitHex_of_digits {limit : Nat} {digits : List Char} (short : digits.length ≤ limit)
    (all : ∀ digit ∈ digits, isHexDigit digit = true)
    (ends : ∀ next ∈ rest.head?, isHexDigit next = false) :
    splitHex limit (digits ++ rest) = (digits, rest) := by
  induction digits generalizing limit with
  | nil =>
      cases limit with
      | zero => rfl
      | succ limit =>
          cases rest with
          | nil => rfl
          | cons next rest => simp [splitHex, ends next rfl]
  | cons digit digits ih =>
      obtain ⟨first, others⟩ := List.forall_mem_cons.mp all
      cases limit with
      | zero => cases short
      | succ limit =>
          have tail := ih (Nat.le_of_succ_le_succ short) others
          simp only [List.cons_append, splitHex, if_pos first, tail]

theorem not_isHexDigit_head_space (rest : List Char) :
    ∀ next ∈ (' ' :: rest).head?, isHexDigit next = false := by
  intro next member
  cases member
  rfl

theorem charOfCode_toNat (notNul : c.toNat ≠ 0) : charOfCode c.toNat = c := by
  rw [charOfCode, if_pos ⟨c.valid, notNul⟩, Char.ofNat_toNat]

/-- The digits of a short number spell its character, and the blank behind them is
swallowed. -/
theorem readEscape_shortHex (blank : Char → Bool) (small : c.toNat < 256) (notNul : c.toNat ≠ 0)
    (ends : ∀ next ∈ rest.head?, isHexDigit next = false) :
    readEscape blank (shortHex c.toNat ++ rest) = (c, dropOne blank rest) := by
  have digits := isHexDigit_of_mem_shortHex small
  have value := hexValue_shortHex small
  have short := length_shortHex_le c.toNat
  obtain ⟨digit, others, written, first, -⟩ := exists_shortHex_eq_cons small
  rw [written] at digits value short ⊢
  have few : others.length ≤ 5 := Nat.le_trans (Nat.le_of_succ_le_succ short) (by decide)
  have split := splitHex_of_digits few (List.forall_mem_cons.mp digits).2 ends
  simp only [List.cons_append, readEscape, if_pos first, split, value, charOfCode_toNat notNul]

/-! ## One character -/

/-- How a character of a name may be written. -/
inductive Spelling (c : Char) : List Char → Prop where
  | plain (named : isNameChar c = true) : Spelling c [c]
  | escaped (notHex : isHexDigit c = false) (ordinary : isControl c = false) :
      Spelling c ['\\', c]
  | coded (special : isControl c = true ∨ c.isDigit = true) : Spelling c (hexEscape c)

theorem code_of_special (special : isControl c = true ∨ c.isDigit = true) :
    c.toNat < 256 ∧ c.toNat ≠ 0 := by
  rw [isControl_iff, isDigit_iff] at special
  omega

theorem readName_cons (named : isNameChar c = true) :
    readName blank (c :: rest) = (c :: (readName blank rest).1, (readName blank rest).2) := by
  rw [readName, if_pos named]

theorem readName_escape {next : Char} (inLine : next ≠ '\n') :
    readName blank ('\\' :: next :: rest) =
      ((readEscape blank (next :: rest)).1 ::
          (readName blank (readEscape blank (next :: rest)).2).1,
        (readName blank (readEscape blank (next :: rest)).2).2) := by
  have starts : startsEscape ('\\' :: next :: rest) = true := bne_iff_ne.mpr inLine
  rw [readName, if_neg (by decide), if_pos starts]

theorem readName_ne_nil (blank : Char → Bool) {chars : List Char}
    (starts : startsName chars = true) : (readName blank chars).1 ≠ [] := by
  cases chars with
  | nil => simp [startsName] at starts
  | cons c rest =>
      rw [startsName, Bool.or_eq_true] at starts
      rw [readName]
      split
      · exact List.cons_ne_nil _ _
      · next notName =>
          rw [if_pos (starts.resolve_left notName)]
          exact List.cons_ne_nil _ _

theorem ne_lineFeed_of_not_isControl (ordinary : isControl c = false) : c ≠ '\n' := by
  rintro rfl
  cases ordinary

/-- A hexadecimal escape is read up to whatever follows its digits. -/
theorem readName_coded (blank : Char → Bool) (special : isControl c = true ∨ c.isDigit = true)
    (ends : ∀ next ∈ rest.head?, isHexDigit next = false) :
    readName blank ('\\' :: shortHex c.toNat ++ rest) =
      (c :: (readName blank (dropOne blank rest)).1, (readName blank (dropOne blank rest)).2) := by
  obtain ⟨small, notNul⟩ := code_of_special special
  have escape := readEscape_shortHex blank small notNul ends
  obtain ⟨digit, others, written, -, inLine⟩ := exists_shortHex_eq_cons small
  rw [written, List.cons_append] at escape
  rw [written, List.cons_append, List.cons_append, readName_escape inLine, escape]

theorem not_isControl_of_mem_hexEscape (small : c.toNat < 256) :
    ∀ other ∈ hexEscape c, isControl other = false := by
  intro other member
  rw [hexEscape, List.cons_append, List.mem_cons, List.mem_append, List.mem_singleton] at member
  rcases member with rfl | digit | rfl
  · rfl
  · exact not_isControl_of_isNameChar
      (isNameChar_of_isHexDigit (isHexDigit_of_mem_shortHex small other digit))
  · rfl

theorem Spelling.not_isControl (spelling : Spelling c part) :
    ∀ other ∈ part, isControl other = false := by
  cases spelling with
  | plain named => simpa using not_isControl_of_isNameChar named
  | escaped notHex ordinary =>
      rw [List.forall_mem_cons, List.forall_mem_singleton]
      exact ⟨rfl, ordinary⟩
  | coded special => exact not_isControl_of_mem_hexEscape (code_of_special special).1

/-- A character that is spelled properly is read as itself. -/
theorem Spelling.readName_append (spelling : Spelling c part) (swallows : blank ' ' = true) :
    readName blank (part ++ rest) = (c :: (readName blank rest).1, (readName blank rest).2) := by
  cases spelling with
  | plain named => exact readName_cons named
  | escaped notHex ordinary =>
      have inLine := ne_lineFeed_of_not_isControl ordinary
      have escape : readEscape blank (c :: rest) = (c, rest) := by simp [readEscape, notHex]
      rw [List.cons_append, List.singleton_append, readName_escape inLine, escape]
  | coded special =>
      have read := readName_coded blank special (not_isHexDigit_head_space rest)
      rw [dropOne, if_pos swallows] at read
      rw [hexEscape, List.append_assoc, List.singleton_append]
      exact read

/-! ## Names -/

/-- A text that spells a name character by character. -/
inductive Spells : List Char → List Char → Prop where
  | nil : Spells [] []
  | cons {c : Char} {name part text : List Char} (first : Spelling c part)
      (others : Spells name text) : Spells (c :: name) (part ++ text)

namespace Spells

theorem readName_append (spells : Spells name text) (swallows : blank ' ' = true) :
    readName blank (text ++ rest) =
      (name ++ (readName blank rest).1, (readName blank rest).2) := by
  induction spells with
  | nil => rfl
  | cons first _ ih =>
      rw [List.append_assoc, first.readName_append swallows, ih]
      rfl

theorem not_isControl (spells : Spells name text) : ∀ other ∈ text, isControl other = false := by
  induction spells with
  | nil => simp
  | cons first _ ih => exact List.forall_mem_append.mpr ⟨first.not_isControl, ih⟩

theorem single (spelling : Spelling c part) : Spells [c] part := by
  have single := Spells.cons spelling .nil
  rwa [List.append_nil] at single

/-- The last character of a name is spelled at the end. -/
theorem exists_last (spells : Spells (name ++ [c]) text) :
    ∃ front part, Spells name front ∧ Spelling c part ∧ text = front ++ part := by
  induction name generalizing text with
  | nil =>
      cases spells with
      | cons first others =>
          cases others
          exact ⟨[], _, .nil, first, List.append_nil _⟩
  | cons start name ih =>
      cases spells with
      | @cons _ _ part _ first others =>
          obtain ⟨front, last, spellsFront, spelling, rfl⟩ := ih others
          exact ⟨part ++ front, last, .cons first spellsFront, spelling,
            (List.append_assoc _ _ _).symm⟩

end Spells

/-! ## What the writer spells -/

theorem spelling_writeNameChar (notNul : c.toNat ≠ 0) : Spelling c (writeNameChar c) := by
  rw [writeNameChar, if_neg notNul]
  split
  · next control => exact .coded (Or.inl control)
  · next ordinary =>
      split
      · next named => exact .plain named
      · next unnamed =>
          refine .escaped (Bool.eq_false_iff.mpr fun digit => unnamed ?_)
            (Bool.eq_false_iff.mpr ordinary)
          exact isNameChar_of_isHexDigit digit

theorem spelling_writeLeadingChar (notNul : c.toNat ≠ 0) : Spelling c (writeLeadingChar c) := by
  rw [writeLeadingChar]
  split
  · next digit => exact .coded (Or.inr digit)
  · exact spelling_writeNameChar notNul

theorem spells_writeName (noNul : ∀ c ∈ name, c.toNat ≠ 0) : Spells name (writeName name) := by
  induction name with
  | nil => exact .nil
  | cons first name ih =>
      obtain ⟨notNul, others⟩ := List.forall_mem_cons.mp noNul
      exact .cons (spelling_writeNameChar notNul) (ih others)

theorem startsEscape_hexEscape (special : isControl c = true ∨ c.isDigit = true) :
    startsEscape (hexEscape c ++ rest) = true := by
  obtain ⟨digit, others, written, -, inLine⟩ :=
    exists_shortHex_eq_cons (code_of_special special).1
  rw [hexEscape, written]
  exact bne_iff_ne.mpr inLine

/-- A leading character stays as it is only where it may begin an identifier, be it behind a
hyphen. -/
theorem leads_writeLeadingChar (notNul : c.toNat ≠ 0) :
    (writeLeadingChar c = [c] ∧ (isNameStart c = true ∨ c = '-')) ∨
      ∀ rest, startsEscape (writeLeadingChar c ++ rest) = true := by
  rw [writeLeadingChar]
  split
  · next digit => exact Or.inr fun rest => startsEscape_hexEscape (Or.inr digit)
  · next notDigit =>
      rw [writeNameChar, if_neg notNul]
      split
      · next control => exact Or.inr fun rest => startsEscape_hexEscape (Or.inl control)
      · next ordinary =>
          split
          · next named =>
              refine Or.inl ⟨rfl, ?_⟩
              simpa [isNameChar, notDigit] using named
          · have inLine := ne_lineFeed_of_not_isControl (Bool.eq_false_iff.mpr ordinary)
            exact Or.inr fun rest => bne_iff_ne.mpr inLine

theorem spelling_hyphen : Spelling '-' ['-'] := .plain rfl

theorem spells_writeIdentifier (noNul : ∀ c ∈ name, c.toNat ≠ 0) :
    Spells name (writeIdentifier name) := by
  unfold writeIdentifier
  split
  · exact .nil
  · exact .single (.escaped rfl rfl)
  · obtain ⟨-, behind⟩ := List.forall_mem_cons.mp noNul
    obtain ⟨notNul, noNulBehind⟩ := List.forall_mem_cons.mp behind
    have others := Spells.cons (spelling_writeLeadingChar notNul) (spells_writeName noNulBehind)
    have spelled := Spells.cons spelling_hyphen others
    exact spelled
  · obtain ⟨notNul, noNulBehind⟩ := List.forall_mem_cons.mp noNul
    exact .cons (spelling_writeLeadingChar notNul) (spells_writeName noNulBehind)

theorem startsIdentifier_of_startsEscape (escape : startsEscape text = true) :
    startsIdentifier text = true := by
  cases text with
  | nil => cases escape
  | cons c rest =>
      by_cases hyphen : c = '-'
      · subst hyphen
        cases escape
      · simp [startsIdentifier, hyphen, escape]

theorem startsIdentifier_writeIdentifier (named : name ≠ []) (noNul : ∀ c ∈ name, c.toNat ≠ 0)
    (rest : List Char) : startsIdentifier (writeIdentifier name ++ rest) = true := by
  unfold writeIdentifier
  split
  · exact absurd rfl named
  · rfl
  · obtain ⟨-, behind⟩ := List.forall_mem_cons.mp noNul
    obtain ⟨notNul, -⟩ := List.forall_mem_cons.mp behind
    simp only [List.cons_append, List.append_assoc, startsIdentifier, beq_self_eq_true, if_true,
      Bool.or_eq_true]
    rcases leads_writeLeadingChar notNul with ⟨written, start⟩ | escape
    · left
      simpa [written] using start
    · exact Or.inr (escape _)
  · next first others notLone notHyphen =>
      obtain ⟨notNul, -⟩ := List.forall_mem_cons.mp noNul
      rw [List.append_assoc]
      rcases leads_writeLeadingChar notNul with ⟨written, start⟩ | escape
      · rw [written]
        rcases start with start | rfl
        · by_cases hyphen : first = '-'
          · subst hyphen
            cases start
          · simp [startsIdentifier, hyphen, start]
        · cases others with
          | nil => exact (notLone rfl rfl).elim
          | cons second others => exact (notHyphen second others rfl rfl).elim
      · exact startsIdentifier_of_startsEscape (escape _)

/-! ## Names that are written as they are -/

theorem isNameStart_of_isAlpha (letter : c.isAlpha = true) : isNameStart c = true := by
  simp [isNameStart, letter]

theorem toNat_ne_zero_of_isNameChar (named : isNameChar c = true) : c.toNat ≠ 0 := by
  rw [isNameChar_iff, isNameStart_iff] at named
  omega

theorem toNat_ne_zero_of_not_mem {chars : List Char} (noNul : '\x00' ∉ chars) :
    ∀ c ∈ chars, c.toNat ≠ 0 :=
  fun c member zero => noNul ((Char.toNat_inj.mp zero : c = '\x00') ▸ member)

theorem writeNameChar_of_isNameChar (named : isNameChar c = true) : writeNameChar c = [c] := by
  rw [writeNameChar, if_neg (toNat_ne_zero_of_isNameChar named),
    not_isControl_of_isNameChar named, if_neg Bool.false_ne_true, if_pos named]

theorem writeName_of_named (named : ∀ c ∈ name, isNameChar c = true) : writeName name = name := by
  induction name with
  | nil => rfl
  | cons first others ih =>
      obtain ⟨here, behind⟩ := List.forall_mem_cons.mp named
      have tail := ih behind
      rw [writeName] at tail
      rw [writeName, List.flatMap_cons, writeNameChar_of_isNameChar here, tail]
      rfl

/-- A leading character that is no digit is written like any other. -/
theorem writeLeadingChar_of_start (start : isNameStart c = true ∨ c = '-') :
    writeLeadingChar c = [c] := by
  have notDigit : c.isDigit = false := by
    rw [← Bool.not_eq_true, isDigit_iff]
    rcases start with letter | rfl
    · rw [isNameStart_iff] at letter
      omega
    · decide
  have named : isNameChar c = true := by
    rcases start with letter | rfl
    · rw [isNameChar, letter]
      rfl
    · rfl
  rw [writeLeadingChar, notDigit, if_neg Bool.false_ne_true, writeNameChar_of_isNameChar named]

theorem not_startsEscape_of_named (named : ∀ c ∈ name, isNameChar c = true) :
    startsEscape name = false := by
  unfold startsEscape
  split
  · exact absurd (named '\\' List.mem_cons_self) (by decide)
  · rfl

/-- A name of name characters that begins like an identifier is written as it is. -/
theorem writeIdentifier_of_named (named : ∀ c ∈ name, isNameChar c = true)
    (starts : startsIdentifier name = true) : writeIdentifier name = name := by
  rw [writeIdentifier.eq_def]
  split
  · rfl
  · cases starts
  · next second rest =>
      obtain ⟨-, behind⟩ := List.forall_mem_cons.mp named
      have start : isNameStart second = true ∨ second = '-' := by
        simpa [startsIdentifier, not_startsEscape_of_named behind] using starts
      rw [writeLeadingChar_of_start start,
        writeName_of_named (List.forall_mem_cons.mp behind).2]
      rfl
  · next first rest notLone notHyphen =>
      have start : isNameStart first = true ∨ first = '-' := by
        by_cases hyphen : first = '-'
        · exact Or.inr hyphen
        · simpa [startsIdentifier, not_startsEscape_of_named named, hyphen] using starts
      rw [writeLeadingChar_of_start start,
        writeName_of_named (List.forall_mem_cons.mp named).2]
      rfl

/-- A name of letters is written as it is. -/
theorem writeIdentifier_of_letters (letters : ∀ c ∈ name, c.isAlpha = true) :
    writeIdentifier name = name := by
  cases name with
  | nil => rfl
  | cons first others =>
      have named : ∀ c ∈ first :: others, isNameChar c = true := fun c member => by
        simp [isNameChar, isNameStart_of_isAlpha (letters c member)]
      have letter := letters first List.mem_cons_self
      have notHyphen : first ≠ '-' := by
        rintro rfl
        cases letter
      refine writeIdentifier_of_named named ?_
      simp [startsIdentifier, notHyphen, isNameStart_of_isAlpha letter]

end SelectorTree.Text
