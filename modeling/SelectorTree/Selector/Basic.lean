import SelectorTree.Selector.Formula

/-!
# Selectors

A selector list holds alternatives.  An alternative is a chain of compound
selectors joined by combinators; it is stored from its subject, the rightmost
compound, outwards.  Compounds keep every simple selector as written, also those
that no element of a tree can satisfy.
-/

namespace SelectorTree

/-- How a compound relates to the one on its left. -/
inductive Combinator where
  | descendant
  | child
  | nextSibling
  | laterSibling
deriving DecidableEq

namespace Combinator

def char : Combinator → Char
  | descendant => ' '
  | child => '>'
  | nextSibling => '+'
  | laterSibling => '~'

def isSibling : Combinator → Bool
  | descendant => false
  | child => false
  | nextSibling => true
  | laterSibling => true

/-- The combinator that a character stands for, white space aside. -/
def ofChar? : Char → Option Combinator
  | '>' => some child
  | '+' => some nextSibling
  | '~' => some laterSibling
  | _ => none

end Combinator

inductive TypeSelector where
  | name (name : String)
  | wildcard
deriving DecidableEq

/-- The comparisons between an attribute and a value. -/
inductive AttributeOperator where
  | equals
  | includes
  | dashMatch
  | beginsWith
  | endsWith
  | contains
deriving DecidableEq

def AttributeOperator.symbol : AttributeOperator → String
  | equals => "="
  | includes => "~="
  | dashMatch => "|="
  | beginsWith => "^="
  | endsWith => "$="
  | contains => "*="

/-- What an attribute is compared with, and whether ASCII case counts. -/
structure AttributeTest where
  operator : AttributeOperator
  value : String
  ignoresCase : Bool
deriving DecidableEq

/-- A condition on an attribute; without a test it only has to be there. -/
structure AttributeSelector where
  name : String
  test? : Option AttributeTest
deriving DecidableEq

inductive PseudoArgument where
  | formula (formula : Formula)
  | raw (text : String)
deriving DecidableEq

structure PseudoClass where
  name : String
  argument? : Option PseudoArgument
deriving DecidableEq

/-- One condition of a compound selector, its type aside. -/
inductive SimpleSelector where
  | id (name : String)
  | className (name : String)
  | attribute (selector : AttributeSelector)
  | pseudoClass (selector : PseudoClass)
  | pseudoElement (name : String)
deriving DecidableEq

/-- Conditions on one element, each kind in the order written. -/
structure Compound where
  type? : Option TypeSelector
  ids : List String
  classes : List String
  attributes : List AttributeSelector
  pseudoClasses : List PseudoClass
  pseudoElement? : Option String
deriving DecidableEq

namespace Compound

/-- The compound with a type and no further condition. -/
def ofType? (type? : Option TypeSelector) : Compound :=
  ⟨type?, [], [], [], [], none⟩

/-- The compound with one more condition; the last pseudo-element counts. -/
def add (compound : Compound) : SimpleSelector → Compound
  | .id name => { compound with ids := compound.ids ++ [name] }
  | .className name => { compound with classes := compound.classes ++ [name] }
  | .attribute selector => { compound with attributes := compound.attributes ++ [selector] }
  | .pseudoClass selector =>
    { compound with pseudoClasses := compound.pseudoClasses ++ [selector] }
  | .pseudoElement name => { compound with pseudoElement? := some name }

end Compound

/-- One alternative.  `outer` holds the compounds left of the subject, nearest
first, each with the combinator that joins it to the compound on its right. -/
structure ComplexSelector where
  subject : Compound
  outer : List (Combinator × Compound)
deriving DecidableEq

namespace ComplexSelector

/-- The compounds behind an outermost one: each is paired with the combinator
on its left. -/
def chainFrom (subject : Compound) :
    List (Combinator × Compound) → List (Combinator × Compound)
  | [] => [(.descendant, subject)]
  | (combinator, compound) :: outer => chainFrom compound outer ++ [(combinator, subject)]

/-- The compounds from the outermost to the subject, each with the combinator
that joins it to the one on its left; the first counts as a descendant. -/
def chain (selector : ComplexSelector) : List (Combinator × Compound) :=
  chainFrom selector.subject selector.outer

theorem chainFrom_ne_nil {subject : Compound} {outer : List (Combinator × Compound)} :
    chainFrom subject outer ≠ [] := by
  cases outer <;> simp [chainFrom]

end ComplexSelector

abbrev SelectorList : Type := List ComplexSelector

end SelectorTree
