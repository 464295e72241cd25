import SelectorTree.Proofs.Text.Spelling
import SelectorTree.Selector.Formula

/-!
# Formulas that are written and read

A formula is written with its step and its offset in decimal digits, whatever their values.
Nothing in that text is a blank or an upper-case letter, and the `n` stands in one place only,
so it is read as the same formula, down to the least and the greatest word.
-/

namespace SelectorTree

open Text

variable {chars front behind : List Char} {value : Int}

/-! ## Decimal digits -/

theorem Text.decimalValue_toDigits (value : Nat) : decimalValue (Nat.toDigits 10 value) = value :=
  Nat.ofDigitChars_toDigits (by decide) (by decide)

theorem Int.toList_toString_of_neg (negative : value < 0) :
    (toString value).toList = '-' :: Nat.toDigits 10 value.natAbs := by
  cases value with
  | ofNat value => exact absurd negative (Int.not_lt.mpr (Int.natCast_nonneg value))
  | negSucc value => simp [Int.toString_eq_repr, Int.repr, Nat.toList_repr]

theorem Int.toList_toString_of_nonneg (positive : 0 ≤ value) :
    (toString value).toList = Nat.toDigits 10 value.natAbs := by
  cases value with
  | ofNat value => simp [Int.toString_eq_repr, Int.repr, Nat.toList_repr]
  | negSucc value => exact absurd positive (by simp)

namespace Formula

theorem magnitude?_toDigits (value : Nat) :
    magnitude? (Nat.toDigits 10 value) = some (value : Int) := by
  have all : (Nat.toDigits 10 value).all Char.isDigit = true :=
    List.all_eq_true.mpr fun digit member =>
      Nat.isDigit_of_mem_toDigits (by decide) (by decide) member
  rw [magnitude?, if_pos ⟨Nat.toDigits_ne_nil, all⟩, decimalValue_toDigits]

theorem word?_toInt (word : Int32) : word? word.toInt = some word :=
  word?_eq_some_iff.mpr ⟨⟨word.le_toInt, word.toInt_lt⟩, word.ofInt_toInt⟩

theorem signedWord?_plus (value : Nat) :
    signedWord? ('+' :: Nat.toDigits 10 value) = word? value := by
  rw [signedWord?, if_neg (by decide), if_pos rfl, magnitude?_toDigits, Option.bind_some]

theorem signedWord?_minus (value : Nat) :
    signedWord? ('-' :: Nat.toDigits 10 value) = word? (-value) := by
  rw [signedWord?, if_pos rfl, magnitude?_toDigits, Option.bind_some]

theorem signedWord?_unsigned (value : Nat) :
    signedWord? (Nat.toDigits 10 value) = word? value := by
  cases written : Nat.toDigits 10 value with
  | nil => exact absurd written Nat.toDigits_ne_nil
  | cons first others =>
      have digit : first.isDigit = true :=
        Nat.isDigit_of_mem_toDigits (by decide) (by decide) (written ▸ List.mem_cons_self)
      have notMinus : first ≠ '-' := by rintro rfl; cases digit
      have notPlus : first ≠ '+' := by rintro rfl; cases digit
      rw [signedWord?, if_neg notMinus, if_neg notPlus, ← written, magnitude?_toDigits,
        Option.bind_some]

theorem signedWord?_toString (word : Int32) :
    signedWord? (toString word.toInt).toList = some word := by
  rcases Int.lt_or_le word.toInt 0 with negative | positive
  · rw [Int.toList_toString_of_neg negative, signedWord?_minus,
      Int.ofNat_natAbs_of_nonpos (Int.le_of_lt negative), Int.neg_neg, word?_toInt]
  · rw [Int.toList_toString_of_nonneg positive, signedWord?_unsigned,
      Int.natAbs_of_nonneg positive, word?_toInt]

theorem signedWord?_signed (word : Int32) :
    signedWord? (signed word.toInt).toList = some word := by
  rw [signed]
  split
  · exact signedWord?_toString word
  · next notNegative =>
      have positive := Int.not_lt.mp notNegative
      rw [String.toList_append, Int.toList_toString_of_nonneg positive]
      exact (signedWord?_plus _).trans
        (by rw [Int.natAbs_of_nonneg positive, word?_toInt])

/-! ## The text of a formula -/

/-- A character of a number with a sign. -/
def isNumeral (c : Char) : Bool := c.isDigit || c == '-' || c == '+'

theorem isNumeral_of_mem_toString {c : Char} (member : c ∈ (toString value).toList) :
    isNumeral c = true := by
  have ofDigits : c ∈ Nat.toDigits 10 value.natAbs → isNumeral c = true := fun inside => by
    rw [isNumeral, Nat.isDigit_of_mem_toDigits (by decide) (by decide) inside]
    rfl
  rcases Int.lt_or_le value 0 with negative | positive
  · rw [Int.toList_toString_of_neg negative, List.mem_cons] at member
    rcases member with rfl | inside
    · rfl
    · exact ofDigits inside
  · rw [Int.toList_toString_of_nonneg positive] at member
    exact ofDigits member

theorem isNumeral_of_mem_signed {c : Char} (member : c ∈ (signed value).toList) :
    isNumeral c = true := by
  rw [signed] at member
  split at member
  · exact isNumeral_of_mem_toString member
  · rw [String.toList_append, List.mem_append] at member
    rcases member with plus | inside
    · rw [List.mem_singleton.mp plus]
      rfl
    · exact isNumeral_of_mem_toString inside

/-- The step begins with a digit or a hyphen and holds a digit. -/
theorem step?_toString (word : Int32) : step? (toString word.toInt).toList = some word := by
  have word? := signedWord?_toString word
  rw [step?, if_neg, if_neg]
  · exact word?
  · intro minus
    rw [minus] at word?
    cases word?
  · rintro (empty | plus)
    · rw [empty] at word?
      cases word?
    · rw [plus] at word?
      cases word?

theorem offset?_signed (word : Int32) : offset? (signed word.toInt).toList = some word := by
  have word? := signedWord?_signed word
  have sign : ∃ sign digits, (signed word.toInt).toList = sign :: digits ∧
      (sign = '+' ∨ sign = '-') := by
    rw [signed]
    split
    · next negative => exact ⟨_, _, Int.toList_toString_of_neg negative, Or.inr rfl⟩
    · exact ⟨'+', _, String.toList_append, Or.inl rfl⟩
  obtain ⟨sign, digits, written, isSign⟩ := sign
  rw [written] at word? ⊢
  rw [offset?, if_pos isSign, word?]

theorem toList_toText (formula : Formula) : formula.toText.toList =
    (toString formula.step.toInt).toList ++ 'n' :: (signed formula.offset.toInt).toList := by
  simp [toText]

theorem of_mem_toText {formula : Formula} {c : Char} (member : c ∈ formula.toText.toList) :
    isNumeral c = true ∨ c = 'n' := by
  rw [toList_toText, List.mem_append, List.mem_cons] at member
  rcases member with inStep | letter | inOffset
  · exact Or.inl (isNumeral_of_mem_toString inStep)
  · exact Or.inr letter
  · exact Or.inl (isNumeral_of_mem_signed inOffset)

theorem isNumeral_iff {c : Char} : isNumeral c = true ↔
    (48 ≤ c.toNat ∧ c.toNat ≤ 57) ∨ c.toNat = 45 ∨ c.toNat = 43 := by
  simp [isNumeral, isDigit_iff, ← Char.toNat_inj, or_assoc]

theorem not_isBlank_of_mem_toText {formula : Formula} {c : Char}
    (member : c ∈ formula.toText.toList) : isBlank c = false := by
  rcases of_mem_toText member with numeral | rfl
  · rw [isNumeral_iff] at numeral
    rw [← Bool.not_eq_true]
    simp only [isBlank, Bool.or_eq_true, Bool.and_eq_true, decide_eq_true_eq, beq_iff_eq]
    omega
  · rfl

theorem toLower_of_mem_toText {formula : Formula} {c : Char}
    (member : c ∈ formula.toText.toList) : c.toLower = c := by
  rcases of_mem_toText member with numeral | rfl
  · rw [isNumeral_iff] at numeral
    rw [← Char.toNat_inj, toNat_toLower, if_neg (by omega)]
  · rfl

theorem compact_toText (formula : Formula) : compact formula.toText = formula.toText.toList := by
  have visible : formula.toText.toList.filter (!isBlank ·) = formula.toText.toList :=
    List.filter_eq_self.mpr fun c member => by rw [not_isBlank_of_mem_toText member]; rfl
  rw [compact, visible, List.map_congr_left fun c member => toLower_of_mem_toText member,
    List.map_id']

/-! ## Texts with an `n` -/

/-- A text that begins with a number or an `n` is no keyword. -/
theorem ne_keyword (begins : ∀ first ∈ chars.head?, isNumeral first = true ∨ first = 'n') :
    chars ≠ "odd".toList ∧ chars ≠ "even".toList := by
  constructor
  · rintro rfl
    exact absurd (begins 'o' rfl) (by decide)
  · rintro rfl
    exact absurd (begins 'e' rfl) (by decide)

theorem ne_letter_of_isNumeral (numeral : ∀ c ∈ chars, isNumeral c = true) :
    ∀ c ∈ chars, (c != 'n') = true := by
  intro c member
  rw [bne_iff_ne]
  rintro rfl
  cases numeral _ member

theorem ofCompact?_of_front (numeral : ∀ c ∈ front, isNumeral c = true) :
    ofCompact? (front ++ 'n' :: behind) =
      (step? front).bind fun step => (offset? behind).map fun offset => ⟨step, offset⟩ := by
  have begins : ∀ first ∈ (front ++ 'n' :: behind).head?, isNumeral first = true ∨ first = 'n' := by
    intro first head
    cases front with
    | nil =>
        cases head
        exact Or.inr rfl
    | cons c front =>
        cases head
        exact Or.inl (numeral first List.mem_cons_self)
  obtain ⟨notOdd, notEven⟩ := ne_keyword begins
  have noLetter := ne_letter_of_isNumeral numeral
  rw [ofCompact?, if_neg notOdd, if_neg notEven, List.dropWhile_append_of_pos noLetter,
    List.takeWhile_append_of_pos noLetter]
  simp

/-- A formula is read back from its text. -/
theorem ofText?_toText (formula : Formula) : ofText? formula.toText = some formula := by
  rw [ofText?, compact_toText, toList_toText,
    ofCompact?_of_front fun _ => isNumeral_of_mem_toString, step?_toString, offset?_signed]
  rfl

end Formula

end SelectorTree
