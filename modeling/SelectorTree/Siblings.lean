import SelectorTree.Selector.Positional
import SelectorTree.Tree.Basic

/-!
# Counting siblings

Positions among the children of a node count its elements, all of them or those
with one tag, from the first or from the last.
-/

namespace SelectorTree.Tree

open Text

def counts (tree : Tree) (scope : Scope) (tag : String) (id : NodeId) : Bool :=
  match scope with
  | .anyTag => true
  | .sameTag => (tree.element? id).any fun data => sameLetters data.tag tag

/-- The children that are counted, in the order of counting. -/
def countedChildren (tree : Tree) (parent : NodeId) (side : Side) (scope : Scope)
    (tag : String) : List NodeId :=
  let counted := (tree.elementChildren parent).filter (tree.counts scope tag)
  match side with
  | .start => counted
  | .finish => counted.reverse

end SelectorTree.Tree
