import Mathlib.Data.List.DropRight
import SelectorTree.Proofs.Text.Spelling

/-!
# Spellings without the blanks at their end

Trimming a text can cut into the spelling of its last character: an escaped blank
loses the blank, a hexadecimal escape loses the space that closes it, and a blank
that is spelled as itself disappears.  Only the second is still read as before, and
only if no other blank follows later on.
-/

namespace SelectorTree.Text

theorem dropTrailing_eq_rdropWhile {item : Type} (dropped : item → Bool) (items : List item) :
    dropTrailing dropped items = items.rdropWhile dropped := rfl

variable {c last : Char} {chars part text name front rest : List Char}

theorem dropTrailing_concat_of_blank (blank : isBlank last = true) :
    dropTrailing isBlank (chars ++ [last]) = dropTrailing isBlank chars :=
  List.rdropWhile_concat_pos isBlank chars last blank

theorem dropTrailing_concat_of_not_blank (visible : isBlank last = false) :
    dropTrailing isBlank (chars ++ [last]) = chars ++ [last] :=
  List.rdropWhile_concat_neg isBlank chars last (Bool.eq_false_iff.mp visible)

theorem dropTrailing_cons_of_not_blank (visible : isBlank c = false) :
    dropTrailing isBlank (c :: chars) = c :: dropTrailing isBlank chars := by
  induction chars using List.reverseRecOn with
  | nil => exact @dropTrailing_concat_of_not_blank c [] visible
  | append_singleton chars last ih =>
      rw [← List.cons_append]
      cases blank : isBlank last with
      | true => rw [dropTrailing_concat_of_blank blank, dropTrailing_concat_of_blank blank, ih]
      | false =>
          rw [dropTrailing_concat_of_not_blank blank, dropTrailing_concat_of_not_blank blank]
          rfl

theorem dropTrailing_eq_self_iff : dropTrailing isBlank chars = chars ↔
    ∀ last ∈ chars.getLast?, isBlank last = false := by
  rw [dropTrailing_eq_rdropWhile, List.rdropWhile_eq_self_iff]
  cases chars using List.reverseRecOn <;> simp

theorem dropTrailing_prefix (chars : List Char) : dropTrailing isBlank chars <+: chars :=
  List.rdropWhile_prefix isBlank chars

theorem trimChars_cons_of_not_blank (visible : isBlank c = false) :
    trimChars (c :: chars) = c :: dropTrailing isBlank chars := by
  rw [trimChars, List.dropWhile_cons, if_neg (Bool.eq_false_iff.mp visible),
    dropTrailing_cons_of_not_blank visible]

theorem trimChars_of_visible (visible : ∀ c ∈ chars, isBlank c = false) :
    trimChars chars = chars := by
  cases chars with
  | nil => rfl
  | cons c chars =>
      obtain ⟨first, others⟩ := List.forall_mem_cons.mp visible
      have kept : dropTrailing isBlank chars = chars :=
        dropTrailing_eq_self_iff.mpr fun last ends => others last (List.mem_of_getLast? ends)
      rw [trimChars_cons_of_not_blank first, kept]

theorem trimChars_concat_space (visible : ∀ c ∈ chars, isBlank c = false) :
    trimChars (chars ++ [' ']) = chars := by
  cases chars with
  | nil => rfl
  | cons c chars =>
      have first := visible c List.mem_cons_self
      rw [List.cons_append, trimChars_cons_of_not_blank first, dropTrailing_concat_of_blank rfl,
        ← trimChars_cons_of_not_blank first, trimChars_of_visible visible]

theorem not_isBlank_of_isAlpha (letter : c.isAlpha = true) : isBlank c = false := by
  rw [isAlpha_iff] at letter
  rw [← Bool.not_eq_true]
  simp only [isBlank, Bool.or_eq_true, Bool.and_eq_true, decide_eq_true_eq, beq_iff_eq]
  omega

/-! ## The end of a spelling -/

theorem not_isBlank_of_isHexDigit (digit : isHexDigit c = true) : isBlank c = false := by
  rw [isHexDigit_iff] at digit
  rw [← Bool.not_eq_true]
  simp only [isBlank, Bool.or_eq_true, Bool.and_eq_true, decide_eq_true_eq, beq_iff_eq]
  omega

theorem dropTrailing_shortHex (code : Nat) (small : code < 256) :
    dropTrailing isBlank (chars ++ '\\' :: shortHex code) = chars ++ '\\' :: shortHex code := by
  have digits := isHexDigit_of_mem_shortHex small
  obtain ⟨digit, others, nonempty, -⟩ := exists_shortHex_eq_cons small
  obtain ⟨init, last, written⟩ :=
    (List.eq_nil_or_concat (shortHex code)).resolve_left (by simp [nonempty])
  rw [written] at digits ⊢
  have visible := not_isBlank_of_isHexDigit (digits last (by simp))
  simpa using @dropTrailing_concat_of_not_blank last (chars ++ '\\' :: init) visible

/-- What trimming leaves of a spelling depends on the last character. -/
inductive TrimmedSpelling (name : List Char) (c : Char) (text : List Char) : Prop where
  | whole (visible : isBlank c = false) (kept : dropTrailing isBlank text = text)
  | coded {front : List Char} (special : isControl c = true ∨ c.isDigit = true)
      (spells : Spells name front) (written : text = front ++ hexEscape c)
      (kept : dropTrailing isBlank text = front ++ '\\' :: shortHex c.toNat)
  | spoilt {front : List Char} (blank : isBlank c = true) (ordinary : isControl c = false)
      (spells : Spells name front)
      (kept : dropTrailing isBlank text = dropTrailing isBlank front ∨
        dropTrailing isBlank text = front ++ ['\\'])

theorem Spells.trimmed (spells : Spells (name ++ [c]) text) : TrimmedSpelling name c text := by
  obtain ⟨front, part, spellsFront, spelling, rfl⟩ := spells.exists_last
  cases spelling with
  | plain named =>
      cases blank : isBlank c with
      | false => exact .whole blank (dropTrailing_concat_of_not_blank blank)
      | true =>
          have ordinary := not_isControl_of_isNameChar named
          exact .spoilt blank ordinary spellsFront (Or.inl (dropTrailing_concat_of_blank blank))
  | escaped notHex ordinary =>
      have split : front ++ ['\\', c] = (front ++ ['\\']) ++ [c] := by simp
      rw [split]
      cases blank : isBlank c with
      | false => exact .whole blank (dropTrailing_concat_of_not_blank blank)
      | true =>
          refine .spoilt blank ordinary spellsFront (Or.inr ?_)
          rw [dropTrailing_concat_of_blank blank, dropTrailing_concat_of_not_blank rfl]
  | coded special =>
      refine .coded special spellsFront rfl ?_
      have split : front ++ hexEscape c = (front ++ '\\' :: shortHex c.toNat) ++ [' '] := by
        simp [hexEscape]
      rw [split, dropTrailing_concat_of_blank rfl,
        dropTrailing_shortHex _ (code_of_special special).1]

/-! ## Reading what is left -/

theorem Spells.readName_eq (spells : Spells name text) : readName isBlank text = (name, []) := by
  have read := @readName_append text name [] isBlank spells rfl
  simpa [readName] using read

/-- Without the blank that was escaped, the backslash is no part of a name. -/
theorem Spells.readName_backslash (spells : Spells name text) :
    readName isBlank (text ++ ['\\']) = (name, ['\\']) := by
  rw [spells.readName_append rfl]
  simp [readName, isNameChar, isNameStart, startsEscape]

/-- Without the space that closed it, an escape is read as before at the end of a text. -/
theorem Spells.readName_shortHex (spells : Spells name text)
    (special : isControl c = true ∨ c.isDigit = true) :
    readName isBlank (text ++ '\\' :: shortHex c.toNat) = (name ++ [c], []) := by
  have read := @readName_coded c [] isBlank special (by simp)
  rw [List.append_nil] at read
  rw [spells.readName_append rfl, read]
  simp [dropOne, readName]

/-- A trimmed name is no longer than before, by induction on the name from its end. -/
theorem Spells.length_readName_trimmed_le (spells : Spells name text) :
    (readName isBlank (dropTrailing isBlank text)).1.length ≤ name.length := by
  induction name using List.reverseRecOn generalizing text with
  | nil =>
      cases spells
      simp [dropTrailing, readName]
  | append_singleton name c ih =>
      cases spells.trimmed with
      | whole visible kept => rw [kept, spells.readName_eq]
      | coded special spellsFront written kept =>
          rw [kept, spellsFront.readName_shortHex special]
      | spoilt blank ordinary spellsFront kept =>
          rw [List.length_append]
          rcases kept with kept | kept
          · rw [kept]
            exact Nat.le_succ_of_le (ih spellsFront)
          · rw [kept, spellsFront.readName_backslash]
            exact Nat.le_succ _

/-- Of a spoilt last character nothing is read. -/
theorem Spells.length_readName_spoilt (spells : Spells name front)
    (kept : text = dropTrailing isBlank front ∨ text = front ++ ['\\']) :
    (readName isBlank text).1.length ≤ name.length := by
  rcases kept with rfl | rfl
  · exact spells.length_readName_trimmed_le
  · rw [spells.readName_backslash]

theorem startsEscape_cons_cons (first second : Char) :
    startsEscape (first :: second :: rest) = (first == '\\' && second != '\n') := by
  by_cases backslash : first = '\\'
  · subst backslash
    rfl
  · unfold startsEscape
    split
    · next same =>
        cases same
        exact absurd rfl backslash
    · simp [backslash]

/-- Three characters decide whether an identifier begins. -/
theorem startsIdentifier_append_of_length {following : List Char} (enough : 3 ≤ text.length) :
    startsIdentifier (text ++ following) = startsIdentifier text := by
  match text, enough with
  | first :: second :: third :: others, _ =>
      simp only [List.cons_append, startsIdentifier, startsEscape_cons_cons, List.head?_cons]

/-- The space that closes an escape does not decide where an identifier begins. -/
theorem startsIdentifier_of_coded (special : isControl c = true ∨ c.isDigit = true)
    (starts : startsIdentifier (front ++ hexEscape c) = true) :
    startsIdentifier (front ++ '\\' :: shortHex c.toNat) = true := by
  obtain ⟨digit, digits, written, -⟩ := exists_shortHex_eq_cons (code_of_special special).1
  have split : front ++ hexEscape c = (front ++ '\\' :: digit :: digits) ++ [' '] := by
    simp [hexEscape, written]
  rw [split] at starts
  rw [written]
  cases front with
  | cons first others =>
      have enough : 3 ≤ (first :: others ++ '\\' :: digit :: digits).length := by
        simp only [List.length_append, List.length_cons]
        omega
      rwa [startsIdentifier_append_of_length enough] at starts
  | nil => simpa [startsIdentifier, startsEscape_cons_cons] using starts

/-! ## Which names survive -/

/-- A name that is read from its trimmed spelling ends with no blank but a control
character. -/
theorem Spells.isControl_of_readName_trimmed (spells : Spells (name ++ [c]) text)
    (read : (readName isBlank (dropTrailing isBlank text)).1 = name ++ [c])
    (blank : isBlank c = true) : isControl c = true := by
  cases spells.trimmed with
  | whole visible kept =>
      rw [blank] at visible
      cases visible
  | coded special =>
      rcases special with control | digit
      · exact control
      · have hex : isHexDigit c = true := isHexDigit_iff.mpr (Or.inl (isDigit_iff.mp digit))
        rw [not_isBlank_of_isHexDigit hex] at blank
        cases blank
  | spoilt blank ordinary spellsFront kept =>
      have shorter := spellsFront.length_readName_spoilt kept
      rw [read, List.length_append] at shorter
      exact absurd shorter (Nat.not_succ_le_self _)

/-- Such a name is read from its trimmed spelling, and an identifier begins there if one did
before. -/
theorem Spells.readName_trimmed (spells : Spells (name ++ [c]) text)
    (survives : isBlank c = true → isControl c = true) (starts : startsIdentifier text = true) :
    readName isBlank (dropTrailing isBlank text) = (name ++ [c], []) ∧
      startsIdentifier (dropTrailing isBlank text) = true := by
  cases spells.trimmed with
  | whole visible kept =>
      rw [kept]
      exact ⟨spells.readName_eq, starts⟩
  | coded special spellsFront written kept =>
      rw [written] at starts
      rw [kept]
      exact ⟨spellsFront.readName_shortHex special, startsIdentifier_of_coded special starts⟩
  | spoilt blank ordinary =>
      rw [survives blank] at ordinary
      cases ordinary

end SelectorTree.Text
