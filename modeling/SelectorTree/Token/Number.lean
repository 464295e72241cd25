import SelectorTree.Text.Ascii
import SelectorTree.Token.Basic

/-!
# Numbers in a stylesheet

A number is an optional sign, digits, an optional point with digits behind it
and an optional exponent.  Its value is the nearest double to what it spells.
-/

namespace SelectorTree

open Numeric (Binary64 Decimal)

/-- The parts of a number as they are spelled: the point goes with the digits
behind it, and the letter with the exponent. -/
structure NumberParts where
  sign : List Char
  whole : List Char
  fraction : List Char
  exponent : List Char
deriving DecidableEq

namespace NumberParts

def isSign (c : Char) : Bool := c == '+' || c == '-'

def splitSign : List Char → List Char × List Char
  | [] => ([], [])
  | c :: rest => if isSign c then ([c], rest) else ([], c :: rest)

/-- Splits the leading digits off the input. -/
def splitDigits (chars : List Char) : List Char × List Char :=
  (chars.takeWhile Char.isDigit, chars.dropWhile Char.isDigit)

def startsDigit (chars : List Char) : Bool :=
  chars.head?.any Char.isDigit

/-- Splits a point with digits behind it off the input. -/
def splitFraction : List Char → List Char × List Char
  | '.' :: rest =>
    if startsDigit rest then
      let digits := splitDigits rest
      ('.' :: digits.1, digits.2)
    else ([], '.' :: rest)
  | chars => ([], chars)

def splitExponent : List Char → List Char × List Char
  | [] => ([], [])
  | c :: rest =>
    let signed := splitSign rest
    if (c == 'e' || c == 'E') && startsDigit signed.2 then
      let digits := splitDigits signed.2
      (c :: signed.1 ++ digits.1, digits.2)
    else ([], c :: rest)

def starts (chars : List Char) : Bool :=
  match (splitSign chars).2 with
  | '.' :: rest => startsDigit rest
  | unsigned => startsDigit unsigned

def split (chars : List Char) : NumberParts × List Char :=
  let signed := splitSign chars
  let whole := splitDigits signed.2
  let fraction := splitFraction whole.2
  let exponent := splitExponent fraction.2
  (⟨signed.1, whole.1, fraction.1, exponent.1⟩, exponent.2)

def spelling (parts : NumberParts) : List Char :=
  parts.sign ++ parts.whole ++ parts.fraction ++ parts.exponent

/-- An integer has neither a point nor an exponent. -/
def kind (parts : NumberParts) : NumberKind :=
  if parts.fraction = [] ∧ parts.exponent = [] then .integer else .number

def signedValue (sign digits : List Char) : Int :=
  if sign = ['-'] then -Int.ofNat (Text.decimalValue digits) else Text.decimalValue digits

def exponentValue (parts : NumberParts) : Int :=
  let signed := splitSign (parts.exponent.drop 1)
  signedValue signed.1 signed.2

def decimal (parts : NumberParts) : Decimal :=
  let digits := parts.fraction.drop 1
  ⟨parts.sign = ['-'], Text.decimalValue (parts.whole ++ digits),
    parts.exponentValue - Int.ofNat digits.length⟩

/-- The integers of 64 bits. -/
def fitsWord (value : Int) : Bool :=
  -9223372036854775808 ≤ value && value < 9223372036854775808

def integer? (parts : NumberParts) : Option Int :=
  let value := signedValue parts.sign parts.whole
  if parts.kind = .integer ∧ fitsWord value then some value else none

def numeric (parts : NumberParts) : NumericValue :=
  ⟨.ofDecimal parts.decimal, parts.integer?, parts.kind, String.ofList parts.spelling⟩

theorem splitSign_append (chars : List Char) :
    (splitSign chars).1 ++ (splitSign chars).2 = chars := by
  cases chars with
  | nil => rfl
  | cons c rest => rw [splitSign]; split <;> rfl

theorem splitDigits_append (chars : List Char) :
    (splitDigits chars).1 ++ (splitDigits chars).2 = chars :=
  List.takeWhile_append_dropWhile

theorem splitFraction_append (chars : List Char) :
    (splitFraction chars).1 ++ (splitFraction chars).2 = chars := by
  unfold splitFraction
  split
  · split
    · exact congrArg ('.' :: ·) (splitDigits_append _)
    · rfl
  · rfl

theorem splitExponent_append (chars : List Char) :
    (splitExponent chars).1 ++ (splitExponent chars).2 = chars := by
  cases chars with
  | nil => rfl
  | cons c rest =>
    simp only [splitExponent]
    split
    · simp only [List.cons_append, List.append_assoc, splitDigits_append, splitSign_append]
    · rfl

theorem split_append (chars : List Char) :
    (split chars).1.spelling ++ (split chars).2 = chars := by
  simp only [split, spelling, List.append_assoc, splitExponent_append, splitFraction_append,
    splitDigits_append, splitSign_append]

theorem spelling_ne_nil {chars : List Char} (number : starts chars = true) :
    (split chars).1.spelling ≠ [] := by
  intro empty
  have sign : (splitSign chars).1 = [] := by
    simp only [split, spelling, List.append_eq_nil_iff] at empty
    exact empty.1.1.1
  have whole : (splitDigits (splitSign chars).2).1 = [] := by
    simp only [split, spelling, List.append_eq_nil_iff] at empty
    exact empty.1.1.2
  have fraction : (splitFraction (splitDigits (splitSign chars).2).2).1 = [] := by
    simp only [split, spelling, List.append_eq_nil_iff] at empty
    exact empty.1.2
  have noDigit : startsDigit (splitSign chars).2 = false := by
    cases unsigned : (splitSign chars).2 with
    | nil => rfl
    | cons c rest =>
      rw [unsigned] at whole
      by_cases digit : c.isDigit = true
      · simp [splitDigits, digit] at whole
      · simpa [startsDigit] using digit
  have same : (splitDigits (splitSign chars).2).2 = (splitSign chars).2 := by
    have joined := splitDigits_append (splitSign chars).2
    rwa [whole, List.nil_append] at joined
  rw [same] at fraction
  unfold starts at number
  split at number
  · next rest unsigned =>
    rw [unsigned] at fraction
    simp [splitFraction, number] at fraction
  · rw [noDigit] at number
    exact Bool.false_ne_true number

theorem split_length_lt {chars : List Char} (number : starts chars = true) :
    (split chars).2.length < chars.length := by
  have nonempty := List.length_pos_iff.mpr (spelling_ne_nil number)
  have joined := congrArg List.length (split_append chars)
  simp only [List.length_append] at joined
  omega

end NumberParts

end SelectorTree
