import SelectorTree.Text.Ascii
import SelectorTree.Text.Blank

/-!
# Formulas for positions

The formula `An+B` selects the positions `B`, `A + B`, `2A + B` and so on, the
first position being 1.  `odd`, `even` and plain integers are formulas too.
Steps and offsets are words of 32 bits; a number that does not fit is no
formula.
-/

namespace SelectorTree

open Text

structure Formula where
  step : Int32
  offset : Int32
deriving DecidableEq

namespace Formula

/-- The word with a value, if the value fits. -/
def word? (value : Int) : Option Int32 :=
  if -2147483648 ≤ value ∧ value < 2147483648 then some (Int32.ofInt value) else none

/-- The number that digits spell; there is none without digits. -/
def magnitude? (digits : List Char) : Option Int :=
  if digits ≠ [] ∧ digits.all Char.isDigit then some (decimalValue digits) else none

def signedWord? : List Char → Option Int32
  | [] => none
  | sign :: digits =>
    if sign = '-' then (magnitude? digits).bind fun value => word? (-value)
    else if sign = '+' then (magnitude? digits).bind word?
    else (magnitude? (sign :: digits)).bind word?

/-- The step in front of an `n`: a word, or a sign or nothing for one. -/
def step? (chars : List Char) : Option Int32 :=
  if chars = [] ∨ chars = ['+'] then some 1
  else if chars = ['-'] then some (-1)
  else signedWord? chars

/-- The offset behind an `n`: nothing, or a word with a sign. -/
def offset? : List Char → Option Int32
  | [] => some 0
  | sign :: digits => if sign = '+' ∨ sign = '-' then signedWord? (sign :: digits) else none

/-- The text without blanks and in lower case. -/
def compact (text : String) : List Char :=
  (text.toList.filter (!isBlank ·)).map Char.toLower

def ofCompact? (chars : List Char) : Option Formula :=
  if chars = "odd".toList then some ⟨2, 1⟩
  else if chars = "even".toList then some ⟨2, 0⟩
  else
    match chars.dropWhile (· != 'n') with
    | [] => (signedWord? chars).map fun offset => ⟨0, offset⟩
    | _ :: behind =>
      (step? (chars.takeWhile (· != 'n'))).bind fun step =>
        (offset? behind).map fun offset => ⟨step, offset⟩

/-- The formula that a text spells; blanks and the case of letters are
ignored. -/
def ofText? (text : String) : Option Formula :=
  ofCompact? (compact text)

/-- Whether a position is among those that the formula selects.  The distance
from the offset is a word of 64 bits, and division rounds toward zero. -/
def selects (formula : Formula) (index : Nat) : Bool :=
  if index < 9223372036854775808 then
    let distance := Int64.ofInt index - formula.offset.toInt64
    let step := formula.step.toInt64
    if step = 0 then distance == 0
    else distance % step == 0 && 0 ≤ distance / step
  else false

/-- An integer with its sign, a plus included. -/
def signed (value : Int) : String :=
  if value < 0 then toString value else "+" ++ toString value

def toText (formula : Formula) : String :=
  toString formula.step.toInt ++ "n" ++ signed formula.offset.toInt

theorem word?_eq_some_iff {value : Int} {word : Int32} :
    word? value = some word ↔
      (-2147483648 ≤ value ∧ value < 2147483648) ∧ Int32.ofInt value = word := by
  simp [word?]

end Formula

end SelectorTree
