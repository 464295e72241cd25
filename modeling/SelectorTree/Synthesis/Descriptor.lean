import SelectorTree.Selector.Positional
import SelectorTree.Text.Blank
import SelectorTree.Tree.Element

/-!
# Descriptors

A compound selector describes one element: its tag, id, classes and attributes,
and perhaps the position it shall have among its siblings.  A compound that does
not single out an element has no descriptor, and an alternative has a chain of
descriptors only if all its compounds have one.
-/

namespace SelectorTree

open Text

/-- Why a compound describes no element. -/
inductive InvalidDescriptor where
  | wildcard
  | pseudoElement (name : String)
  | multiplePseudoClasses
  | unsupportedPseudoClass (name : String)
  | unsupportedFormula (name : String)
deriving DecidableEq

def InvalidDescriptor.message : InvalidDescriptor → String
  | wildcard => "wildcard type selector"
  | pseudoElement name => "pseudo-element ::" ++ name
  | multiplePseudoClasses => "more than one pseudo-class"
  | unsupportedPseudoClass name => "unsupported pseudo-class :" ++ name
  | unsupportedFormula name => "unsupported position in :" ++ name

/-- A position among siblings; the first has index 1. -/
structure Position where
  side : Side
  scope : Scope
  index : Nat
deriving DecidableEq

/-- The element that a compound describes, how it relates to the descriptor
before it, and the position that it asks for. -/
structure Descriptor where
  element : Element
  combinator : Combinator
  position? : Option Position
deriving DecidableEq

namespace Descriptor

/-- The tag of an element whose selector names none. -/
def defaultTag : String := "div"

def positionOf (pseudoClass : PseudoClass) : Except InvalidDescriptor Position :=
  if isPositional pseudoClass.name then
    match pseudoClass.positions? with
    | none => .error (.unsupportedFormula pseudoClass.name)
    | some set =>
      let index := set.formula.offset.toInt
      if set.formula.step = 0 ∧ 1 ≤ index then .ok ⟨set.side, set.scope, index.toNat⟩
      else .error (.unsupportedFormula pseudoClass.name)
  else .error (.unsupportedPseudoClass pseudoClass.name)

/-- The position that a compound asks for; it may ask for one at most. -/
def positionOf? : List PseudoClass → Except InvalidDescriptor (Option Position)
  | [] => .ok none
  | [pseudoClass] => (positionOf pseudoClass).map some
  | _ => .error .multiplePseudoClasses

/-- Adds what an attribute selector asks for; without a test the value is
empty. -/
def applyAttribute (element : Element) (selector : AttributeSelector) : Element :=
  let name := lower selector.name
  let value := (selector.test?.map AttributeTest.value).getD ""
  if name = "id" then { element with id? := some value }
  else if name = "class" then element.addClasses (words value)
  else element.setAttribute name value

def elementOf (tag : String) (compound : Compound) : Element :=
  let bare := Element.ofTag tag
  let named :=
    if compound.ids = [] then bare else { bare with id? := some (" ".intercalate compound.ids) }
  compound.attributes.foldl applyAttribute (named.addClasses compound.classes)

def tagOf : Option TypeSelector → Except InvalidDescriptor String
  | some (.name tag) => .ok tag
  | some .wildcard => .error .wildcard
  | none => .ok defaultTag

def ofCompound (compound : Compound) (combinator : Combinator) :
    Except InvalidDescriptor Descriptor := do
  let tag ← tagOf compound.type?
  if let some name := compound.pseudoElement? then
    throw (.pseudoElement name)
  let position? ← positionOf? compound.pseudoClasses
  return ⟨elementOf tag compound, combinator, position?⟩

/-- The descriptors of an alternative, outermost first. -/
def chain (selector : ComplexSelector) : Except InvalidDescriptor (List Descriptor) :=
  selector.chain.mapM fun step => ofCompound step.2 step.1

end Descriptor

end SelectorTree
