import SelectorTree.Text.Ascii
import SelectorTree.Text.Blank
import SelectorTree.Text.Fields

/-!
# Ranges of code points

A property of characters is a table of ranges of code points.  It holds for the
characters that domains can hold; a range may run across others.  Tables are
written as text: records between semicolons, each of them hexadecimal numbers
between blanks.
-/

namespace SelectorTree.Unicode

open Text

def codes (record : List Char) : List Nat :=
  (runs isBlank record).map hexValue

def recordTexts (text : String) : List (List Char) := fields (· == ';') text.toList

def records (text : String) : List (List Nat) := (recordTexts text).map codes

/-- The code points from `first` to `last`, which share a property. -/
structure CodeRange (α : Type) where
  first : Nat
  last : Nat
  value : α

namespace CodeRange

/-- The range of a record that holds one code point or two ends. -/
def ofRecord? {α : Type} (value : α) : List Nat → Option (CodeRange α)
  | [code] => some ⟨code, code, value⟩
  | [first, last] => some ⟨first, last, value⟩
  | _ => none

def sort {α : Type} (ranges : List (CodeRange α)) : List (CodeRange α) :=
  ranges.mergeSort fun left right => left.first ≤ right.first

/-- The table of some properties, each with the text of its ranges. -/
def table {α : Type} (texts : List (α × String)) : List (CodeRange α) :=
  sort (texts.flatMap fun group => (records group.2).filterMap (ofRecord? group.1))

/-- The range that holds a code point, in a sorted table of disjoint ranges. -/
def find? {α : Type} (ranges : List (CodeRange α)) (code : Nat) : Option (CodeRange α) :=
  ((ranges.dropWhile (·.last < code)).head?).filter (·.first ≤ code)

def lookup {α : Type} (ranges : List (CodeRange α)) (code : Nat) : Option α :=
  (find? ranges code).map (·.value)

end CodeRange

end SelectorTree.Unicode
