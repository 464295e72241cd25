import Mathlib.Data.List.Induction
import Mathlib.Data.List.TakeWhile
import SelectorTree.Proofs.Selector.Formulas

/-!
# The texts that spell a formula

A grammar says which texts express which step and offset: `odd`, `even`, an integer, or an `n`
between a step and an offset that both may be left out.  The reader finds the formula of just
those texts whose step and offset fit in words of 32 bits, after it has dropped the blanks and
put the letters in lower case.
-/

namespace SelectorTree

open Text

variable {c : Char} {chars digits front behind : List Char} {number step offset : Int}
  {word : Int32} {formula : Formula}

/-! ## The grammar -/

/-- A row of decimal digits and the number that it writes. -/
inductive Text.Decimal : List Char → Nat → Prop where
  | single {c : Char} (digit : c.isDigit = true) : Decimal [c] (digitValue c)
  | snoc {c : Char} {digits : List Char} {value : Nat} (others : Decimal digits value)
      (digit : c.isDigit = true) : Decimal (digits ++ [c]) (10 * value + digitValue c)

namespace Formula

/-- A row of digits behind a sign. -/
inductive Signed : List Char → Int → Prop where
  | plus {digits : List Char} {value : Nat} (magnitude : Decimal digits value) :
      Signed ('+' :: digits) value
  | minus {digits : List Char} {value : Nat} (magnitude : Decimal digits value) :
      Signed ('-' :: digits) (-value)

/-- A row of digits, with a sign or without one. -/
inductive Numeral : List Char → Int → Prop where
  | unsigned {digits : List Char} {value : Nat} (magnitude : Decimal digits value) :
      Numeral digits value
  | signed {chars : List Char} {number : Int} (written : Signed chars number) :
      Numeral chars number

/-- What may stand in front of an `n`; a sign alone, or nothing, stands for a step of one. -/
inductive ExpressesStep : List Char → Int → Prop where
  | omitted : ExpressesStep [] 1
  | plus : ExpressesStep ['+'] 1
  | minus : ExpressesStep ['-'] (-1)
  | numeral {chars : List Char} {number : Int} (written : Numeral chars number) :
      ExpressesStep chars number

/-- What may stand behind an `n`. -/
inductive ExpressesOffset : List Char → Int → Prop where
  | omitted : ExpressesOffset [] 0
  | signed {chars : List Char} {number : Int} (written : Signed chars number) :
      ExpressesOffset chars number

/-- A text without blanks in lower case, the step and the offset that it expresses. -/
inductive Expresses : List Char → Int → Int → Prop where
  | odd : Expresses ['o', 'd', 'd'] 2 1
  | even : Expresses ['e', 'v', 'e', 'n'] 2 0
  | integer {chars : List Char} {offset : Int} (written : Numeral chars offset) :
      Expresses chars 0 offset
  | multiples {front behind : List Char} {step offset : Int}
      (before : ExpressesStep front step) (after : ExpressesOffset behind offset) :
      Expresses (front ++ 'n' :: behind) step offset

end Formula

/-! ## Rows of digits -/

theorem Text.decimal_iff {value : Nat} : Decimal digits value ↔
    (digits ≠ [] ∧ digits.all Char.isDigit = true) ∧ decimalValue digits = value := by
  constructor
  · intro decimal
    induction decimal with
    | single digit => simp [decimalValue, digit]
    | snoc others digit ih =>
        obtain ⟨⟨-, all⟩, rfl⟩ := ih
        simp [decimalValue, all, digit]
  · rintro ⟨⟨filled, all⟩, rfl⟩
    induction digits using List.reverseRecOn with
    | nil => exact absurd rfl filled
    | append_singleton digits c ih =>
        rw [List.all_append, Bool.and_eq_true, List.all_cons, Bool.and_eq_true] at all
        rw [decimalValue, List.foldl_append, ← decimalValue, List.foldl_cons, List.foldl_nil]
        by_cases lone : digits = []
        · subst lone
          have single := Decimal.single all.2.1
          rwa [← Nat.zero_add (digitValue c)] at single
        · exact .snoc (ih lone all.1) all.2.1

/-- A row of digits begins with one. -/
theorem Text.Decimal.head {value : Nat} (decimal : Decimal (c :: digits) value) :
    c.isDigit = true := by
  have all := (decimal_iff.mp decimal).1.2
  rw [List.all_cons, Bool.and_eq_true] at all
  exact all.1

namespace Formula

theorem magnitude?_eq_some_iff :
    magnitude? digits = some number ↔ ∃ value : Nat, Decimal digits value ∧ value = number := by
  simp only [magnitude?, decimal_iff, Option.ite_none_right_eq_some, Option.some_inj]
  constructor
  · rintro ⟨row, rfl⟩
    exact ⟨_, ⟨row, rfl⟩, rfl⟩
  · rintro ⟨_, ⟨row, rfl⟩, rfl⟩
    exact ⟨row, rfl⟩

/-- The numbers that fit in a word are those that words stand for. -/
theorem word?_eq_some_iff_eq_toInt : word? number = some word ↔ number = word.toInt := by
  constructor
  · intro fits
    obtain ⟨⟨low, high⟩, rfl⟩ := word?_eq_some_iff.mp fits
    exact (Int32.toInt_ofInt_of_le low high).symm
  · rintro rfl
    exact word?_toInt word

/-- A word is read from digits if it stands for what becomes of their value. -/
theorem bind_magnitude?_eq_some_iff {f : Int → Int} :
    ((magnitude? digits).bind fun number => word? (f number)) = some word ↔
      ∃ value : Nat, Decimal digits value ∧ f value = word.toInt := by
  simp only [Option.bind_eq_some_iff, magnitude?_eq_some_iff, word?_eq_some_iff_eq_toInt]
  constructor
  · rintro ⟨_, ⟨value, row, rfl⟩, same⟩
    exact ⟨value, row, same⟩
  · rintro ⟨value, row, same⟩
    exact ⟨value, ⟨value, row, rfl⟩, same⟩

/-! ## Integers -/

theorem numeral_minus : Numeral ('-' :: digits) number ↔
    ∃ value : Nat, Decimal digits value ∧ -(value : Int) = number := by
  constructor
  · intro numeral
    cases numeral with
    | unsigned magnitude => cases magnitude.head
    | signed written =>
        cases written with
        | minus magnitude => exact ⟨_, magnitude, rfl⟩
  · rintro ⟨_, magnitude, rfl⟩
    exact .signed (.minus magnitude)

theorem numeral_plus : Numeral ('+' :: digits) number ↔
    ∃ value : Nat, Decimal digits value ∧ value = number := by
  constructor
  · intro numeral
    cases numeral with
    | unsigned magnitude => cases magnitude.head
    | signed written =>
        cases written with
        | plus magnitude => exact ⟨_, magnitude, rfl⟩
  · rintro ⟨_, magnitude, rfl⟩
    exact .signed (.plus magnitude)

theorem numeral_unsigned (notMinus : c ≠ '-') (notPlus : c ≠ '+') :
    Numeral (c :: digits) number ↔
      ∃ value : Nat, Decimal (c :: digits) value ∧ value = number := by
  constructor
  · intro numeral
    cases numeral with
    | unsigned magnitude => exact ⟨_, magnitude, rfl⟩
    | signed written =>
        cases written with
        | plus => exact absurd rfl notPlus
        | minus => exact absurd rfl notMinus
  · rintro ⟨_, magnitude, rfl⟩
    exact .unsigned magnitude

theorem not_decimal_nil {value : Nat} : ¬Decimal [] value :=
  fun row => (decimal_iff.mp row).1.1 rfl

theorem not_numeral_nil : ¬Numeral [] number := by
  intro numeral
  cases numeral with
  | unsigned magnitude => exact not_decimal_nil magnitude
  | signed written => cases written

/-- An integer is read if and only if it fits in a word. -/
theorem signedWord?_eq_some_iff : signedWord? chars = some word ↔ Numeral chars word.toInt := by
  cases chars with
  | nil => simp [signedWord?, not_numeral_nil]
  | cons sign digits =>
      rw [signedWord?]
      split
      · next minus => rw [minus, numeral_minus, bind_magnitude?_eq_some_iff]
      · next notMinus =>
          split
          · next plus =>
              rw [plus, numeral_plus]
              exact bind_magnitude?_eq_some_iff (f := id)
          · next notPlus =>
              rw [numeral_unsigned notMinus notPlus]
              exact bind_magnitude?_eq_some_iff (f := id)

/-! ## Steps and offsets -/

theorem not_numeral_sign (sign : c = '+' ∨ c = '-') : ¬Numeral [c] number := by
  rcases sign with rfl | rfl
  · rw [numeral_plus]
    exact fun ⟨_, row, _⟩ => not_decimal_nil row
  · rw [numeral_minus]
    exact fun ⟨_, row, _⟩ => not_decimal_nil row

/-- What a step expresses can be told from whether it is missing or a sign alone. -/
theorem expressesStep_iff : ExpressesStep chars number ↔
    if chars = [] ∨ chars = ['+'] then number = 1
    else if chars = ['-'] then number = -1
    else Numeral chars number := by
  constructor
  · rintro (_ | _ | _ | written)
    · rfl
    · rfl
    · rfl
    · rw [if_neg, if_neg]
      · exact written
      · rintro rfl
        exact not_numeral_sign (Or.inr rfl) written
      · rintro (rfl | rfl)
        · exact not_numeral_nil written
        · exact not_numeral_sign (Or.inl rfl) written
  · split
    · next one =>
        rintro rfl
        rcases one with rfl | rfl
        · exact .omitted
        · exact .plus
    · split
      · next minus =>
          rintro rfl
          exact minus ▸ .minus
      · exact .numeral

theorem step?_eq_some_iff : step? chars = some word ↔ ExpressesStep chars word.toInt := by
  rw [expressesStep_iff, step?]
  split
  · rw [Option.some_inj, eq_comm, ← Int32.toInt_inj, show (1 : Int32).toInt = 1 from rfl]
  · split
    · rw [Option.some_inj, eq_comm, ← Int32.toInt_inj, show (-1 : Int32).toInt = -1 from rfl]
    · exact signedWord?_eq_some_iff

/-- Behind a sign there is nothing but a row of digits. -/
theorem signed_iff : Signed (c :: digits) number ↔
    (c = '+' ∨ c = '-') ∧ Numeral (c :: digits) number := by
  constructor
  · intro written
    refine ⟨?_, .signed written⟩
    cases written with
    | plus => exact Or.inl rfl
    | minus => exact Or.inr rfl
  · rintro ⟨sign, numeral⟩
    cases numeral with
    | unsigned magnitude =>
        have digit := magnitude.head
        rcases sign with rfl | rfl <;> cases digit
    | signed written => exact written

theorem expressesOffset_nil : ExpressesOffset [] number ↔ number = 0 := by
  constructor
  · rintro (_ | ⟨⟨⟩⟩)
    rfl
  · rintro rfl
    exact .omitted

theorem expressesOffset_cons :
    ExpressesOffset (c :: digits) number ↔ Signed (c :: digits) number :=
  ⟨fun expresses => by cases expresses; assumption, .signed⟩

theorem offset?_eq_some_iff : offset? chars = some word ↔ ExpressesOffset chars word.toInt := by
  cases chars with
  | nil =>
      rw [expressesOffset_nil, offset?, Option.some_inj, eq_comm, ← Int32.toInt_inj,
        show (0 : Int32).toInt = 0 from rfl]
  | cons sign digits =>
      rw [expressesOffset_cons, signed_iff, offset?, Option.ite_none_right_eq_some,
        signedWord?_eq_some_iff]

/-! ## Formulas -/

theorem isNumeral_of_numeral (written : Numeral chars number) :
    ∀ c ∈ chars, isNumeral c = true := by
  have ofDigits : ∀ {digits : List Char} {value : Nat}, Decimal digits value →
      ∀ c ∈ digits, isNumeral c = true := by
    intro digits value row c member
    have digit := List.all_eq_true.mp (decimal_iff.mp row).1.2 c member
    simp [isNumeral, digit]
  cases written with
  | unsigned magnitude => exact ofDigits magnitude
  | signed written =>
      cases written with
      | plus magnitude => exact List.forall_mem_cons.mpr ⟨rfl, ofDigits magnitude⟩
      | minus magnitude => exact List.forall_mem_cons.mpr ⟨rfl, ofDigits magnitude⟩

theorem isNumeral_of_expressesStep (before : ExpressesStep chars number) :
    ∀ c ∈ chars, isNumeral c = true := by
  cases before with
  | omitted => simp
  | plus => simp [isNumeral]
  | minus => simp [isNumeral]
  | numeral written => exact isNumeral_of_numeral written

theorem ofCompact?_of_numeral (numeral : ∀ c ∈ chars, isNumeral c = true) :
    ofCompact? chars = (signedWord? chars).map fun offset => ⟨0, offset⟩ := by
  obtain ⟨notOdd, notEven⟩ :=
    ne_keyword fun first head => Or.inl (numeral first (List.mem_of_mem_head? head))
  rw [ofCompact?, if_neg notOdd, if_neg notEven,
    List.dropWhile_eq_nil_iff.mpr (ne_letter_of_isNumeral numeral)]

theorem expresses_of_ofCompact? (found : ofCompact? chars = some formula) :
    Expresses chars formula.step.toInt formula.offset.toInt := by
  rw [ofCompact?] at found
  split at found
  · next odd =>
      cases found
      exact odd ▸ .odd
  split at found
  · next even =>
      cases found
      exact even ▸ .even
  split at found
  · obtain ⟨offset, written, rfl⟩ := Option.map_eq_some_iff.mp found
    exact .integer (signedWord?_eq_some_iff.mp written)
  · next letter behind split =>
      obtain ⟨step, before, found⟩ := Option.bind_eq_some_iff.mp found
      obtain ⟨offset, after, rfl⟩ := Option.map_eq_some_iff.mp found
      have isLetter : letter = 'n' := by
        have stop := List.head?_dropWhile_not (· != 'n') chars
        simpa [split] using stop
      subst isLetter
      rw [← List.takeWhile_append_dropWhile (p := (· != 'n')) (l := chars), split]
      exact .multiples (step?_eq_some_iff.mp before) (offset?_eq_some_iff.mp after)

theorem ofCompact?_of_expresses (expresses : Expresses chars step offset)
    (sameStep : formula.step.toInt = step) (sameOffset : formula.offset.toInt = offset) :
    ofCompact? chars = some formula := by
  obtain ⟨stepWord, offsetWord⟩ := formula
  cases expresses with
  | odd =>
      obtain rfl : stepWord = 2 := Int32.toInt_inj.mp sameStep
      obtain rfl : offsetWord = 1 := Int32.toInt_inj.mp sameOffset
      rfl
  | even =>
      obtain rfl : stepWord = 2 := Int32.toInt_inj.mp sameStep
      obtain rfl : offsetWord = 0 := Int32.toInt_inj.mp sameOffset
      rfl
  | integer written =>
      obtain rfl : stepWord = 0 := Int32.toInt_inj.mp sameStep
      subst sameOffset
      rw [ofCompact?_of_numeral (isNumeral_of_numeral written), signedWord?_eq_some_iff.mpr written,
        Option.map_some]
  | multiples before after =>
      subst sameStep sameOffset
      rw [ofCompact?_of_front (isNumeral_of_expressesStep before), step?_eq_some_iff.mpr before,
        offset?_eq_some_iff.mpr after, Option.bind_some, Option.map_some]

/-- The reader finds a formula if and only if the text without its blanks, in lower case, expresses
the step and the offset; and every formula is found again from the text that is written for it. -/
theorem ofText?_eq_some_iff_expresses :
    (∀ (text : String) (formula : Formula), ofText? text = some formula ↔
      Expresses ((text.toList.filter (!isBlank ·)).map Char.toLower)
        formula.step.toInt formula.offset.toInt) ∧
      ∀ formula : Formula, ofText? formula.toText = some formula :=
  ⟨fun _ _ => ⟨expresses_of_ofCompact?, fun expresses => ofCompact?_of_expresses expresses rfl rfl⟩,
    ofText?_toText⟩

end Formula

end SelectorTree
