import SelectorTree.Selector.Basic

/-!
# Positions among siblings

Eight pseudo-classes speak about the position of an element among its siblings.
Each counts from one end, counts all elements or those of one type, and selects
the positions of a formula.
-/

namespace SelectorTree

open Text

/-- The end that positions are counted from. -/
inductive Side where
  | start
  | finish
deriving DecidableEq

/-- The siblings that are counted: all elements, or those with one tag. -/
inductive Scope where
  | anyTag
  | sameTag
deriving DecidableEq

/-- A set of positions among siblings. -/
structure PositionSet where
  side : Side
  scope : Scope
  formula : Formula
deriving DecidableEq

/-- The positional pseudo-classes. -/
structure PositionalName where
  name : String
  side : Side
  scope : Scope
  takesFormula : Bool

def positionalNames : List PositionalName :=
  [⟨"first-child", .start, .anyTag, false⟩,
   ⟨"nth-child", .start, .anyTag, true⟩,
   ⟨"nth-last-child", .finish, .anyTag, true⟩,
   ⟨"last-child", .finish, .anyTag, false⟩,
   ⟨"first-of-type", .start, .sameTag, false⟩,
   ⟨"nth-of-type", .start, .sameTag, true⟩,
   ⟨"nth-last-of-type", .finish, .sameTag, true⟩,
   ⟨"last-of-type", .finish, .sameTag, false⟩]

/-- The positional pseudo-class with a name, in any case of its letters. -/
def positionalName? (name : String) : Option PositionalName :=
  positionalNames.find? (sameLetters ·.name name)

def isPositional (name : String) : Bool := (positionalName? name).isSome

namespace PseudoClass

/-- The positions that a pseudo-class selects: those of its formula for the
names that take one, and the first position for the others.  There are none for
other pseudo-classes and for a missing, malformed or superfluous argument. -/
def positions? (pseudoClass : PseudoClass) : Option PositionSet :=
  (positionalName? pseudoClass.name).bind fun entry =>
    match entry.takesFormula, pseudoClass.argument? with
    | true, some (.formula formula) => some ⟨entry.side, entry.scope, formula⟩
    | false, none => some ⟨entry.side, entry.scope, ⟨0, 1⟩⟩
    | _, _ => none

end PseudoClass

end SelectorTree
