import SelectorTree.Siblings
import SelectorTree.Text.Blank
import SelectorTree.Tree.Traversal

/-!
# Matching selectors

A compound selector matches an element that meets all its conditions.  Of the
pseudo-classes only the positional ones can be met, and no element is a
pseudo-element.  A complex selector matches where its subject does and the
compounds to the left match related nodes: descendants and later siblings try
every candidate, the other combinators have one.
-/

namespace SelectorTree

open Text

namespace AttributeOperator

/-- Compares the characters of an attribute with those of an expected value. -/
def holds (operator : AttributeOperator) (actual expected : List Char) : Bool :=
  match operator with
  | equals => actual == expected
  | includes => (runs isWordBlank actual).contains expected
  | dashMatch => actual == expected || (expected ++ ['-']).isPrefixOf actual
  | beginsWith => expected != [] && expected.isPrefixOf actual
  | endsWith => expected != [] && expected.isSuffixOf actual
  | contains =>
    expected != [] && (List.instDecidableIsInfixOfDecidableEq expected actual).decide

end AttributeOperator

def AttributeTest.accepts (test : AttributeTest) (actual : String) : Bool :=
  if test.ignoresCase then
    test.operator.holds (lower actual).toList (lower test.value).toList
  else test.operator.holds actual.toList test.value.toList

/-- The value that an attribute selector looks at.  The id and the classes are
looked up where the element keeps them. -/
def Element.selectedAttribute (element : Element) (name : String) : Option String :=
  if name = "id" then element.id
  else if name = "class" ∧ element.classes ≠ [] then some element.classText
  else element.getAttribute name

def AttributeSelector.accepts (selector : AttributeSelector) (element : Element) : Bool :=
  (element.selectedAttribute (lower selector.name)).any fun actual =>
    selector.test?.all (·.accepts actual)

def TypeSelector.accepts (selector : TypeSelector) (element : Element) : Bool :=
  match selector with
  | name tag => sameLetters element.tag tag
  | wildcard => true

/-- Whether an element stands at one of the positions that a pseudo-class
selects. -/
def PseudoClass.accepts (selector : PseudoClass) (tree : Tree) (id : NodeId)
    (element : Element) : Bool :=
  selector.positions?.any fun set =>
    (tree.parent id).any fun parent =>
      ((tree.countedChildren parent set.side set.scope element.tag).idxOf? id).any fun index =>
        set.formula.selects (index + 1)

namespace Compound

def accepts (compound : Compound) (tree : Tree) (id : NodeId) (element : Element) : Bool :=
  compound.pseudoElement?.isNone &&
    compound.type?.all (·.accepts element) &&
    compound.ids.all (fun name => element.id == some name) &&
    compound.classes.all element.hasClass &&
    compound.attributes.all (·.accepts element) &&
    compound.pseudoClasses.all (·.accepts tree id element)

/-- Whether a node is an element that meets the conditions of a compound. -/
def selects (compound : Compound) (tree : Tree) (id : NodeId) : Bool :=
  (tree.element? id).any (compound.accepts tree id)

end Compound

namespace Combinator

/-- The nodes that may stand left of a node, nearest first. -/
def candidates (combinator : Combinator) (tree : Tree) (id : NodeId) : List NodeId :=
  match combinator with
  | descendant => tree.ancestors id
  | child => (tree.parent id).toList
  | nextSibling => ((tree.precedingSiblings id).find? tree.isElement).toList
  | laterSibling => tree.precedingSiblings id

end Combinator

namespace ComplexSelector

/-- Whether compounds, nearest first, match nodes to the left of a node. -/
def outerSelects (tree : Tree) : List (Combinator × Compound) → NodeId → Bool
  | [], _ => true
  | (combinator, compound) :: outer, id =>
    (combinator.candidates tree id).any fun candidate =>
      compound.selects tree candidate && outerSelects tree outer candidate

def selects (selector : ComplexSelector) (tree : Tree) (id : NodeId) : Bool :=
  selector.subject.selects tree id && outerSelects tree selector.outer id

end ComplexSelector

def SelectorList.selects (selectors : SelectorList) (tree : Tree) (id : NodeId) : Bool :=
  selectors.any (·.selects tree id)

end SelectorTree
