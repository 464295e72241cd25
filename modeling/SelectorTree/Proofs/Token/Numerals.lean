import Mathlib.Data.List.TakeWhile
import SelectorTree.Proofs.Token.Reading

/-!
# How numbers are spelled

The parts of a number that was split off have the form that the grammar of numbers gives them.
Parts of that form are split off again wherever they are spelled, unless what stands behind them
goes on with the number: a digit, a point before a digit, or, if there is no exponent yet, the
start of one.
-/

namespace SelectorTree

namespace Token

open Text

variable {c : Char} {front : List Char}

theorem any_head?_dropWhile (test : Char → Bool) (chars : List Char) :
    (chars.dropWhile test).head?.any test = false := by
  have stop := List.head?_dropWhile_not test chars
  cases head : (chars.dropWhile test).head? with
  | none => rfl
  | some c =>
      rw [head] at stop
      exact stop

/-! ## How the parts of a number begin -/

theorem eq_of_isSign (sign : NumberParts.isSign c = true) : c = '+' ∨ c = '-' := by
  simpa [NumberParts.isSign] using sign

theorem splitSign_of_unsigned (unsigned : front.head?.any NumberParts.isSign = false) :
    NumberParts.splitSign front = ([], front) := by
  cases front with
  | nil => rfl
  | cons c front =>
      rw [List.head?_cons, Option.any_some] at unsigned
      rw [NumberParts.splitSign, unsigned, if_neg Bool.false_ne_true]

/-- Whether the input begins with a point and a digit. -/
def startsFraction : List Char → Bool
  | '.' :: rest => NumberParts.startsDigit rest
  | _ => false

theorem splitFraction_of_none (none : startsFraction front = false) :
    NumberParts.splitFraction front = ([], front) := by
  unfold NumberParts.splitFraction
  split
  · rw [startsFraction] at none
    rw [none, if_neg Bool.false_ne_true]
  · rfl

/-- A number begins with a digit or with a point before one, its sign apart. -/
theorem starts_eq_or (chars : List Char) : NumberParts.starts chars =
    (startsFraction (NumberParts.splitSign chars).2 ||
      NumberParts.startsDigit (NumberParts.splitSign chars).2) := by
  unfold NumberParts.starts
  split
  · next rest point =>
      rw [point]
      exact (Bool.or_false _).symm
  · next noPoint =>
      have none : startsFraction (NumberParts.splitSign chars).2 = false := by
        unfold startsFraction
        split
        · next rest point => exact absurd point (noPoint rest)
        · rfl
      rw [none, Bool.false_or]

def isExponentLetter (c : Char) : Bool := c == 'e' || c == 'E'

/-- Whether the input begins with the letter of an exponent and a number that may be signed. -/
def startsExponent : List Char → Bool
  | c :: rest => isExponentLetter c && NumberParts.startsDigit (NumberParts.splitSign rest).2
  | [] => false

theorem splitExponent_of_none (none : startsExponent front = false) :
    NumberParts.splitExponent front = ([], front) := by
  cases front with
  | nil => rfl
  | cons c front =>
      rw [startsExponent, isExponentLetter] at none
      simp only [NumberParts.splitExponent, none, Bool.false_eq_true, if_false]

theorem splitExponent_of_starts (here : startsExponent (c :: front) = true) :
    NumberParts.splitExponent (c :: front) =
      (c :: (NumberParts.splitSign front).1 ++
          (NumberParts.splitDigits (NumberParts.splitSign front).2).1,
        (NumberParts.splitDigits (NumberParts.splitSign front).2).2) := by
  rw [startsExponent, isExponentLetter] at here
  simp only [NumberParts.splitExponent, here, if_true]

theorem splitDigits_of_digits {digits next : List Char} (all : ∀ c ∈ digits, c.isDigit = true)
    (stops : NumberParts.startsDigit next = false) :
    NumberParts.splitDigits (digits ++ next) = (digits, next) := by
  have nothing : NumberParts.splitDigits next = ([], next) := by
    cases next with
    | nil => rfl
    | cons c next =>
        rw [NumberParts.startsDigit, List.head?_cons, Option.any_some] at stops
        simp [NumberParts.splitDigits, stops]
  have joined := Prod.mk.inj nothing
  rw [NumberParts.splitDigits, List.takeWhile_append_of_pos all,
    List.dropWhile_append_of_pos all, joined.1, joined.2, List.append_nil]

theorem startsDigit_append (digit : NumberParts.startsDigit front = true) (next : List Char) :
    NumberParts.startsDigit ((NumberParts.splitDigits front).1 ++ next) = true := by
  cases front with
  | nil => cases digit
  | cons c front =>
      rw [NumberParts.startsDigit, List.head?_cons, Option.any_some] at digit
      simp [NumberParts.splitDigits, NumberParts.startsDigit, digit]

end Token

namespace NumberParts

open Token

variable {c : Char} {chars digits sign next rest : List Char} {parts : NumberParts}

/-! ## The form of the parts -/

/-- A sign, or nothing. -/
def IsSigning (sign : List Char) : Prop := ∀ c ∈ sign.head?, isSign c = true ∧ sign = [c]

structure IsDigits (digits : List Char) : Prop where
  some : digits ≠ []
  all : ∀ c ∈ digits, c.isDigit = true

/-- The parts of a number: digits on one side of the point at least, and digits wherever a point
or the letter of an exponent asks for them. -/
structure IsNumber (parts : NumberParts) : Prop where
  sign : IsSigning parts.sign
  whole : ∀ c ∈ parts.whole, c.isDigit = true
  fraction : parts.fraction = [] ∨ ∃ digits, IsDigits digits ∧ parts.fraction = '.' :: digits
  exponent : parts.exponent = [] ∨ ∃ c sign digits, isExponentLetter c = true ∧ IsSigning sign ∧
    IsDigits digits ∧ parts.exponent = c :: sign ++ digits
  some : parts.whole ≠ [] ∨ parts.fraction ≠ []

theorem isSigning_splitSign (chars : List Char) : IsSigning (splitSign chars).1 := by
  cases chars with
  | nil => simp [IsSigning, splitSign]
  | cons c rest =>
      cases sign : isSign c <;> simp [IsSigning, splitSign, sign]

theorem isDigit_of_mem_splitDigits (member : c ∈ (splitDigits chars).1) : c.isDigit = true :=
  List.mem_takeWhile_imp member

theorem isDigits_splitDigits (digit : startsDigit chars = true) :
    IsDigits (splitDigits chars).1 where
  some empty := by
    have still := startsDigit_append digit []
    rw [empty] at still
    cases still
  all _ := isDigit_of_mem_splitDigits

theorem fraction_splitFraction (chars : List Char) : (splitFraction chars).1 = [] ∨
    ∃ digits, IsDigits digits ∧ (splitFraction chars).1 = '.' :: digits := by
  unfold splitFraction
  split
  · split
    · next digit => exact Or.inr ⟨_, isDigits_splitDigits digit, rfl⟩
    · exact Or.inl rfl
  · exact Or.inl rfl

theorem exponent_splitExponent (chars : List Char) : (splitExponent chars).1 = [] ∨
    ∃ c sign digits, isExponentLetter c = true ∧ IsSigning sign ∧ IsDigits digits ∧
      (splitExponent chars).1 = c :: sign ++ digits := by
  cases here : startsExponent chars with
  | false => exact Or.inl (congrArg Prod.fst (splitExponent_of_none here))
  | true =>
      cases chars with
      | nil => cases here
      | cons c rest =>
          obtain ⟨letter, digit⟩ := Bool.and_eq_true_iff.mp here
          exact Or.inr ⟨c, _, _, letter, isSigning_splitSign rest, isDigits_splitDigits digit,
            congrArg Prod.fst (splitExponent_of_starts here)⟩

/-- Where a number starts, the parts that are split off are those of a number. -/
theorem isNumber_split (number : starts chars = true) : IsNumber (split chars).1 where
  sign := isSigning_splitSign chars
  whole _ := isDigit_of_mem_splitDigits
  fraction := fraction_splitFraction _
  exponent := exponent_splitExponent _
  some := by
    rw [starts_eq_or, Bool.or_eq_true] at number
    rcases number with point | digit
    · right
      change (splitFraction (splitDigits (splitSign chars).2).2).1 ≠ []
      unfold startsFraction at point
      split at point
      · next rest unsigned =>
          have whole : (splitDigits (splitSign chars).2).2 = '.' :: rest := by
            rw [unsigned]
            rfl
          rw [whole, splitFraction, if_pos point]
          exact List.cons_ne_nil _ _
      · cases point
    · exact Or.inl (isDigits_splitDigits digit).some

/-! ## What stands behind a number -/

/-- What stands behind the parts of a number does not go on with them. -/
structure Ends (parts : NumberParts) (next : List Char) : Prop where
  noDigit : startsDigit next = false
  noPoint : parts.fraction = [] → parts.exponent = [] → startsFraction next = false
  noExponent : parts.exponent = [] → startsExponent next = false

theorem startsFraction_of_nil (none : (splitFraction chars).1 = []) :
    startsFraction chars = false := by
  unfold startsFraction
  split
  · rw [← Bool.not_eq_true]
    intro point
    rw [splitFraction, if_pos point] at none
    cases none
  · rfl

theorem startsExponent_of_nil (none : (splitExponent chars).1 = []) :
    startsExponent chars = false := by
  rw [← Bool.not_eq_true]
  intro here
  cases chars with
  | nil => cases here
  | cons c rest =>
      rw [splitExponent_of_starts here] at none
      cases none

theorem startsDigit_splitDigits (chars : List Char) :
    startsDigit (splitDigits chars).2 = false :=
  any_head?_dropWhile Char.isDigit chars

theorem startsDigit_splitFraction (noDigit : startsDigit chars = false) :
    startsDigit (splitFraction chars).2 = false := by
  unfold splitFraction
  split
  · split
    · exact startsDigit_splitDigits _
    · rfl
  · exact noDigit

theorem startsDigit_splitExponent (noDigit : startsDigit chars = false) :
    startsDigit (splitExponent chars).2 = false := by
  cases here : startsExponent chars with
  | false => rwa [splitExponent_of_none here]
  | true =>
      cases chars with
      | nil => cases here
      | cons c rest =>
          rw [splitExponent_of_starts here]
          exact startsDigit_splitDigits _

/-- Whatever can be read of a number is split off with it. -/
theorem ends_split (chars : List Char) : Ends (split chars).1 (split chars).2 where
  noDigit := startsDigit_splitExponent (startsDigit_splitFraction (startsDigit_splitDigits _))
  noPoint fraction exponent := by
    have noPoint := startsFraction_of_nil fraction
    have noExponent := startsExponent_of_nil exponent
    change startsFraction (splitExponent (splitFraction (splitDigits (splitSign chars).2).2).2).2 =
      false
    rw [splitExponent_of_none noExponent, splitFraction_of_none noPoint]
    exact noPoint
  noExponent exponent := by
    have noExponent := startsExponent_of_nil exponent
    simp only [split, splitExponent_of_none noExponent]
    exact noExponent

/-! ## Splitting what was spelled -/

theorem IsDigits.startsDigit_append (isDigits : IsDigits digits) (next : List Char) :
    startsDigit (digits ++ next) = true := by
  cases digits with
  | nil => exact absurd rfl isDigits.some
  | cons c digits => exact isDigits.all c List.mem_cons_self

theorem unsigned_of_startsDigit (digit : startsDigit next = true) :
    next.head?.any isSign = false := by
  obtain ⟨c, head, isDigit⟩ := (Option.any_eq_true _ _).mp digit
  rw [head, Option.any_some, ← Bool.not_eq_true]
  intro sign
  rcases eq_of_isSign sign with rfl | rfl <;> cases isDigit

theorem IsSigning.splitSign_append (isSigning : IsSigning sign)
    (unsigned : next.head?.any isSign = false) : splitSign (sign ++ next) = (sign, next) := by
  cases sign with
  | nil => exact splitSign_of_unsigned unsigned
  | cons c others =>
      obtain ⟨isSign, single⟩ := isSigning c rfl
      rw [single, List.singleton_append, splitSign, if_pos isSign]

theorem IsDigits.splitDigits_append (isDigits : IsDigits digits)
    (stops : startsDigit next = false) : splitDigits (digits ++ next) = (digits, next) :=
  splitDigits_of_digits isDigits.all stops

namespace IsNumber

variable (isNumber : parts.IsNumber)
include isNumber

/-- What stands behind the sign begins with a digit or with a point before one. -/
theorem starts_unsigned (next : List Char) :
    startsDigit (parts.whole ++ (parts.fraction ++ next)) = true ∨
      startsFraction (parts.whole ++ (parts.fraction ++ next)) = true := by
  cases wholeDigits : parts.whole with
  | cons c whole =>
      have all := isNumber.whole
      rw [wholeDigits] at all
      exact Or.inl (all c List.mem_cons_self)
  | nil =>
      obtain ⟨digits, isDigits, point⟩ := isNumber.fraction.resolve_left
        (isNumber.some.resolve_left fun some => some wholeDigits)
      rw [point]
      exact Or.inr (isDigits.startsDigit_append next)

theorem unsigned (next : List Char) :
    (parts.whole ++ (parts.fraction ++ next)).head?.any isSign = false := by
  rcases isNumber.starts_unsigned next with digit | point
  · exact unsigned_of_startsDigit digit
  · unfold startsFraction at point
    split at point
    · next behind => rw [behind]; rfl
    · cases point

theorem starts_spelling (next : List Char) : starts (parts.spelling ++ next) = true := by
  have signed := isNumber.sign.splitSign_append (isNumber.unsigned (parts.exponent ++ next))
  simp only [spelling, List.append_assoc]
  rw [starts_eq_or, signed, Bool.or_eq_true]
  exact (isNumber.starts_unsigned (parts.exponent ++ next)).symm

theorem splitExponent_append (noDigit : startsDigit next = false)
    (noExponent : parts.exponent = [] → startsExponent next = false) :
    splitExponent (parts.exponent ++ next) = (parts.exponent, next) := by
  rcases isNumber.exponent with none | ⟨c, sign, digits, letter, signing, isDigits, some⟩
  · rw [none]
    exact splitExponent_of_none (noExponent none)
  · have digit := isDigits.startsDigit_append next
    have signed := signing.splitSign_append (unsigned_of_startsDigit digit)
    have here : startsExponent (c :: (sign ++ (digits ++ next))) = true := by
      rw [startsExponent, letter, signed, digit]
      rfl
    rw [some, List.append_assoc, List.cons_append, splitExponent_of_starts here, signed,
      isDigits.splitDigits_append noDigit]

/-- The letter of an exponent is neither a digit nor a point. -/
theorem stops_exponent (ends : parts.Ends next) :
    startsDigit (parts.exponent ++ next) = false ∧
      (parts.fraction = [] → startsFraction (parts.exponent ++ next) = false) := by
  rcases isNumber.exponent with none | ⟨c, sign, digits, letter, -, -, some⟩
  · rw [none]
    exact ⟨ends.noDigit, fun whole => ends.noPoint whole none⟩
  · rw [some]
    have letters : c = 'e' ∨ c = 'E' := by simpa [isExponentLetter] using letter
    rcases letters with rfl | rfl <;> exact ⟨rfl, fun _ => rfl⟩

theorem splitFraction_append (noDigit : startsDigit next = false)
    (noPoint : parts.fraction = [] → startsFraction next = false) :
    splitFraction (parts.fraction ++ next) = (parts.fraction, next) := by
  rcases isNumber.fraction with none | ⟨digits, isDigits, some⟩
  · rw [none]
    exact splitFraction_of_none (noPoint none)
  · rw [some, List.cons_append, splitFraction, if_pos (isDigits.startsDigit_append next),
      isDigits.splitDigits_append noDigit]

theorem startsDigit_fraction (noDigit : startsDigit next = false) :
    startsDigit (parts.fraction ++ next) = false := by
  rcases isNumber.fraction with none | ⟨digits, -, some⟩
  · rwa [none]
  · rw [some]
    rfl

/-- A number is split off before whatever does not go on with it. -/
theorem split_spelling (ends : parts.Ends next) :
    split (parts.spelling ++ next) = (parts, next) := by
  have exponent := isNumber.splitExponent_append ends.noDigit ends.noExponent
  obtain ⟨digitBehind, pointBehind⟩ := isNumber.stops_exponent ends
  have fraction := isNumber.splitFraction_append digitBehind pointBehind
  have whole := splitDigits_of_digits isNumber.whole (isNumber.startsDigit_fraction digitBehind)
  have signed := isNumber.sign.splitSign_append (isNumber.unsigned (parts.exponent ++ next))
  simp only [split, spelling, List.append_assoc, signed, whole, fraction, exponent]

end IsNumber

/-! ## Which characters spell a number -/

namespace IsNumber

variable (isNumber : parts.IsNumber)
include isNumber

/-- Only the exponent holds its letter. -/
theorem of_mem_spelling (member : c ∈ parts.spelling) :
    isSign c = true ∨ c.isDigit = true ∨ c = '.' ∨
      (isExponentLetter c = true ∧ parts.exponent ≠ []) := by
  have ofSigning : ∀ {sign : List Char}, IsSigning sign → c ∈ sign → isSign c = true := by
    intro sign signing inside
    obtain ⟨first, others, rfl⟩ := List.exists_cons_of_ne_nil (List.ne_nil_of_mem inside)
    obtain ⟨isSign, single⟩ := signing first rfl
    rw [single, List.mem_singleton] at inside
    rwa [inside]
  simp only [spelling, List.mem_append] at member
  rcases member with ((sign | whole) | fraction) | exponent
  · exact Or.inl (ofSigning isNumber.sign sign)
  · exact Or.inr (Or.inl (isNumber.whole c whole))
  · rcases isNumber.fraction with none | ⟨digits, isDigits, some⟩
    · rw [none] at fraction
      cases fraction
    · rw [some] at fraction
      rcases List.mem_cons.mp fraction with rfl | inside
      · exact Or.inr (Or.inr (Or.inl rfl))
      · exact Or.inr (Or.inl (isDigits.all c inside))
  · have filled := List.ne_nil_of_mem exponent
    rcases isNumber.exponent with none | ⟨letter, sign, digits, isLetter, signing, isDigits, some⟩
    · exact absurd none filled
    · rw [some, List.cons_append, List.mem_cons, List.mem_append] at exponent
      rcases exponent with rfl | inSign | inside
      · exact Or.inr (Or.inr (Or.inr ⟨isLetter, filled⟩))
      · exact Or.inl (ofSigning signing inSign)
      · exact Or.inr (Or.inl (isDigits.all c inside))

theorem exponent_eq_nil_iff :
    parts.exponent = [] ↔ ∀ c ∈ parts.spelling, isExponentLetter c = false := by
  constructor
  · intro none c member
    rw [← Bool.not_eq_true]
    intro letter
    have letters : c = 'e' ∨ c = 'E' := by simpa [isExponentLetter] using letter
    rcases isNumber.of_mem_spelling member with sign | digit | point | ⟨-, filled⟩
    · rcases letters with rfl | rfl <;> cases sign
    · rcases letters with rfl | rfl <;> cases digit
    · rcases letters with rfl | rfl <;> cases point
    · exact filled none
  · intro noLetter
    rcases isNumber.exponent with none | ⟨c, sign, digits, letter, -, -, some⟩
    · exact none
    · have inside : c ∈ parts.spelling := by simp [spelling, some]
      rw [noLetter c inside] at letter
      cases letter

theorem not_isControl_of_mem_spelling (member : c ∈ parts.spelling) :
    Text.isControl c = false := by
  rcases isNumber.of_mem_spelling member with sign | digit | rfl | ⟨letter, -⟩
  · rcases eq_of_isSign sign with rfl | rfl <;> rfl
  · exact Text.not_isControl_of_isNameChar (by simp [Text.isNameChar, digit])
  · rfl
  · have letters : c = 'e' ∨ c = 'E' := by simpa [isExponentLetter] using letter
    rcases letters with rfl | rfl <;> rfl

end IsNumber

end NumberParts

end SelectorTree
