import SelectorTree.Proofs.Token.Numerals

/-!
# Names that could go on with a number

A name may be written behind a number or where no identifier is asked for, and is then written
with as few escapes as possible.  Whether what is written begins an identifier, or an exponent,
is told by the first characters of the name alone.
-/

namespace SelectorTree

open Text

variable {c : Char} {name chars rest : List Char}

/-! ## Names that begin like a number -/

namespace Text

/-- A name that begins like a number: with a digit, or with a hyphen before a digit or the end. -/
def leadsLikeNumber : List Char → Bool
  | [] => true
  | ['-'] => true
  | '-' :: second :: _ => second.isDigit
  | first :: _ => first.isDigit

theorem writeNameChar_of_isDigit (digit : c.isDigit = true) : writeNameChar c = [c] :=
  writeNameChar_of_isNameChar (by simp [isNameChar, digit])

theorem writeLeadingChar_of_not_isDigit (notDigit : c.isDigit = false) :
    writeLeadingChar c = writeNameChar c := by
  rw [writeLeadingChar, if_neg (Bool.eq_false_iff.mp notDigit)]

theorem writeName_cons (c : Char) (name : List Char) :
    writeName (c :: name) = writeNameChar c ++ writeName name := List.flatMap_cons

/-- Only a name that begins like a number needs more escapes as an identifier. -/
theorem writeIdentifier_eq_writeName (leads : leadsLikeNumber name = false) :
    writeIdentifier name = writeName name := by
  unfold leadsLikeNumber at leads
  split at leads
  · cases leads
  · cases leads
  · next second rest =>
      have hyphen : writeNameChar '-' = ['-'] := rfl
      rw [writeIdentifier, writeLeadingChar_of_not_isDigit leads, writeName_cons, writeName_cons,
        hyphen]
      rfl
  · next first rest notLone notHyphen =>
      rw [writeIdentifier, writeLeadingChar_of_not_isDigit leads, writeName_cons]
      · rintro rfl rfl
        exact notLone rfl rfl
      · rintro second behind rfl rfl
        exact notHyphen second behind rfl rfl

theorem leadsLikeNumber_of_isDigit (digit : c.isDigit = true) (rest : List Char) :
    leadsLikeNumber (c :: rest) = true := by
  unfold leadsLikeNumber
  split
  · rfl
  · rfl
  · next same =>
      rw [(List.cons.inj same).1] at digit
      cases digit
  · next same => rwa [← (List.cons.inj same).1]

theorem not_startsIdentifier_of_isDigit (digit : c.isDigit = true) :
    startsIdentifier (c :: rest) = false := by
  rw [← Bool.not_eq_true]
  intro starts
  rw [Token.not_isDigit_of_leads (Token.leads_of_startsIdentifier starts)] at digit
  cases digit

theorem not_isNameStart_of_isDigit (digit : c.isDigit = true) : isNameStart c = false := by
  rw [← Bool.not_eq_true, isNameStart_iff]
  rw [isDigit_iff] at digit
  omega

/-- A written name begins an identifier unless it begins like a number. -/
theorem startsIdentifier_writeName (noNul : ∀ c ∈ name, c.toNat ≠ 0) :
    startsIdentifier (writeName name) = !leadsLikeNumber name := by
  cases leads : leadsLikeNumber name with
  | false =>
      have named : name ≠ [] := by
        rintro rfl
        cases leads
      have starts := startsIdentifier_writeIdentifier named noNul []
      rwa [List.append_nil, writeIdentifier_eq_writeName leads] at starts
  | true =>
      unfold leadsLikeNumber at leads
      split at leads
      · rfl
      · rfl
      · next second rest =>
          have hyphen : writeNameChar '-' = ['-'] := rfl
          have notHyphen : second ≠ '-' := by
            rintro rfl
            cases leads
          have noEscape : startsEscape (second :: writeName rest) ≠ true := by
            intro escape
            rw [Token.eq_backslash_of_startsEscape escape] at leads
            cases leads
          rw [writeName_cons, writeName_cons, hyphen, writeNameChar_of_isDigit leads]
          simp [startsIdentifier, not_isNameStart_of_isDigit leads, notHyphen, noEscape]
      · next first rest _ _ =>
          rw [writeName_cons, writeNameChar_of_isDigit leads]
          exact not_startsIdentifier_of_isDigit leads

/-- What is read as a name where no identifier begins begins like a number. -/
theorem leadsLikeNumber_readName {blank : Char → Bool} (named : startsName chars = true)
    (starts : startsIdentifier chars = false) :
    leadsLikeNumber (readName blank chars).1 = true := by
  cases chars with
  | nil => cases named
  | cons c chars =>
      by_cases hyphen : c = '-'
      · subst hyphen
        simp only [startsIdentifier, beq_self_eq_true, if_true, Bool.or_eq_false_iff] at starts
        obtain ⟨noStart, noEscape⟩ := starts
        rw [readName_cons rfl]
        cases chars with
        | nil => rw [readName]; rfl
        | cons second chars =>
            rw [List.head?_cons, Option.any_some, Bool.or_eq_false_iff] at noStart
            cases digit : second.isDigit with
            | true =>
                have secondNamed : isNameChar second = true := by simp [isNameChar, digit]
                rw [readName_cons secondNamed]
                exact digit
            | false =>
                have unnamed : isNameChar second ≠ true := by
                  simp [isNameChar, noStart.1, noStart.2, digit]
                rw [readName, if_neg unnamed, if_neg (Bool.eq_false_iff.mp noEscape)]
                rfl
      · simp only [startsIdentifier, beq_iff_eq, hyphen, if_false, Bool.or_eq_false_iff] at starts
        obtain ⟨noStart, noEscape⟩ := starts
        have digit : c.isDigit = true := by
          simpa [startsName, noEscape, isNameChar, noStart, hyphen] using named
        have first : isNameChar c = true := by simp [isNameChar, digit]
        rw [readName_cons first]
        exact leadsLikeNumber_of_isDigit digit _

end Text

/-! ## Names that begin like an exponent -/

namespace Token

open NumberParts (startsDigit splitSign)

/-- A name without the hyphen that it begins with. -/
def dropHyphen : List Char → List Char
  | '-' :: rest => rest
  | name => name

/-- A name that begins like the exponent of a number, its letter included. -/
def leadsLikeExponent : List Char → Bool
  | c :: rest => isExponentLetter c && startsDigit (dropHyphen rest)
  | [] => false

/-- A character of a name is written as itself, or begins with a backslash. -/
theorem exists_writeNameChar (notNul : c.toNat ≠ 0) :
    writeNameChar c = [c] ∧ isNameChar c = true ∨
      ∃ others, writeNameChar c = '\\' :: others ∧ isNameChar c = false := by
  rw [writeNameChar, if_neg notNul]
  cases named : isNameChar c with
  | true => simp [not_isControl_of_isNameChar named]
  | false =>
      split
      · exact Or.inr ⟨_, rfl, rfl⟩
      · exact Or.inr ⟨_, rfl, rfl⟩

theorem startsDigit_writeName (noNul : ∀ c ∈ name, c.toNat ≠ 0) :
    startsDigit (writeName name) = startsDigit name := by
  cases name with
  | nil => rfl
  | cons c name =>
      rw [writeName_cons]
      rcases exists_writeNameChar (noNul c List.mem_cons_self) with
        ⟨written, -⟩ | ⟨others, written, unnamed⟩
      · rw [written]
        rfl
      · have notDigit : c.isDigit = false := by
          rw [isNameChar, Bool.or_eq_false_iff, Bool.or_eq_false_iff] at unnamed
          exact unnamed.1.2
        rw [written]
        exact notDigit.symm

theorem not_startsFraction_writeName (noNul : ∀ c ∈ name, c.toNat ≠ 0) :
    startsFraction (writeName name) = false := by
  cases name with
  | nil => rfl
  | cons c name =>
      rw [writeName_cons]
      rcases exists_writeNameChar (noNul c List.mem_cons_self) with
        ⟨written, named⟩ | ⟨others, written, -⟩
      · rw [written]
        unfold startsFraction
        split
        · next same =>
            obtain ⟨rfl, -⟩ := List.cons.inj same
            cases named
        · rfl
      · rw [written]
        rfl

theorem isNameChar_of_isExponentLetter (letter : isExponentLetter c = true) :
    isNameChar c = true := by
  have letters : c = 'e' ∨ c = 'E' := by simpa [isExponentLetter] using letter
  rcases letters with rfl | rfl <;> rfl

/-- The only sign that is written of a name as itself is a hyphen. -/
theorem startsDigit_splitSign_writeName (noNul : ∀ c ∈ name, c.toNat ≠ 0) :
    startsDigit (splitSign (writeName name)).2 = startsDigit (dropHyphen name) := by
  unfold dropHyphen
  split
  · next rest => exact startsDigit_writeName (List.forall_mem_cons.mp noNul).2
  · next notHyphen =>
      rw [← startsDigit_writeName noNul, splitSign_of_unsigned]
      cases name with
      | nil => rfl
      | cons c name =>
          rw [writeName_cons]
          rcases exists_writeNameChar (noNul c List.mem_cons_self) with
            ⟨written, named⟩ | ⟨others, written, -⟩
          · rw [written, List.singleton_append, List.head?_cons, Option.any_some,
              ← Bool.not_eq_true]
            intro sign
            rcases eq_of_isSign sign with rfl | rfl
            · cases named
            · exact notHyphen name rfl
          · rw [written]
            rfl

theorem startsExponent_writeName (noNul : ∀ c ∈ name, c.toNat ≠ 0) :
    startsExponent (writeName name) = leadsLikeExponent name := by
  cases name with
  | nil => rfl
  | cons c name =>
      obtain ⟨notNul, others⟩ := List.forall_mem_cons.mp noNul
      rw [leadsLikeExponent, ← startsDigit_splitSign_writeName others, writeName_cons]
      rcases exists_writeNameChar notNul with ⟨written, -⟩ | ⟨rest, written, unnamed⟩
      · rw [written]
        rfl
      · have noLetter : isExponentLetter c = false := by
          rw [← Bool.not_eq_true]
          intro letter
          rw [isNameChar_of_isExponentLetter letter] at unnamed
          cases unnamed
        rw [written, noLetter]
        rfl

end Token

end SelectorTree
