import SelectorTree.Selector.Matching
import SelectorTree.Selector.Printer
import SelectorTree.Synthesis.Builder

/-!
# Checking a tree against its rules

An alternative that was built but matches no element of the tree is reported.
Fillers and rules that ask for the same position can be the cause.
-/

namespace SelectorTree

/-- An alternative that matches no element. -/
structure Unmatched where
  selector : String
  imported : Bool
deriving DecidableEq

namespace Synthesis

/-- The elements below the body, in tree order. -/
def elements (synthesis : Synthesis) : List NodeId :=
  (synthesis.tree.descendants synthesis.body).filter synthesis.tree.isElement

/-- Whether an alternative was built and matches no element. -/
def misses (synthesis : Synthesis) (alternative : ComplexSelector) : Bool :=
  (Descriptor.chain alternative).isOk &&
    !synthesis.elements.any (alternative.selects synthesis.tree)

/-- The alternatives that were built and match no element. -/
def unmatched (synthesis : Synthesis) (rules : List TreeRule) : List Unmatched :=
  rules.flatMap fun rule =>
    (rule.selectors.filter synthesis.misses).map fun alternative =>
      ⟨alternative.toText, rule.imported⟩

end Synthesis

end SelectorTree
