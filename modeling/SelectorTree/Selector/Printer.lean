import SelectorTree.Selector.Basic
import SelectorTree.Text.Name

/-!
# Writing selectors

Names are written as identifiers and values between double quotes.  Descendants
are separated by a space, other combinators stand between spaces, and
alternatives are separated by a comma and a space.
-/

namespace SelectorTree

open Text

/-- A value between double quotes; the quotes inside it are escaped. -/
def AttributeTest.quotedValue (value : String) : String :=
  String.ofList ('"' :: value.toList.flatMap (fun c => if c = '"' then ['\\', c] else [c]) ++ ['"'])

def AttributeTest.toText (test : AttributeTest) : String :=
  test.operator.symbol ++ quotedValue test.value ++ if test.ignoresCase then " i" else ""

def AttributeSelector.toText (selector : AttributeSelector) : String :=
  "[" ++ identifier selector.name ++ (selector.test?.map AttributeTest.toText).getD "" ++ "]"

def PseudoArgument.toText : PseudoArgument → String
  | .formula value => "(" ++ value.toText ++ ")"
  | .raw text => "(" ++ text ++ ")"

def PseudoClass.toText (selector : PseudoClass) : String :=
  ":" ++ selector.name ++ (selector.argument?.map PseudoArgument.toText).getD ""

def TypeSelector.toText : TypeSelector → String
  | .name value => identifier value
  | .wildcard => "*"

namespace Compound

def toText (compound : Compound) : String :=
  (compound.type?.map TypeSelector.toText).getD "" ++
    String.join (compound.ids.map fun name => "#" ++ identifier name) ++
    String.join (compound.classes.map fun name => "." ++ identifier name) ++
    String.join (compound.attributes.map AttributeSelector.toText) ++
    String.join (compound.pseudoClasses.map PseudoClass.toText) ++
    (compound.pseudoElement?.map ("::" ++ ·)).getD ""

end Compound

namespace Combinator

/-- What stands between two compounds. -/
def separator : Combinator → String
  | descendant => " "
  | child => " > "
  | nextSibling => " + "
  | laterSibling => " ~ "

end Combinator

namespace ComplexSelector

def textFrom (subject : Compound) : List (Combinator × Compound) → String
  | [] => subject.toText
  | (combinator, compound) :: outer =>
    textFrom compound outer ++ combinator.separator ++ subject.toText

def toText (selector : ComplexSelector) : String :=
  textFrom selector.subject selector.outer

end ComplexSelector

def SelectorList.toText (selectors : SelectorList) : String :=
  ", ".intercalate (selectors.map ComplexSelector.toText)

end SelectorTree
