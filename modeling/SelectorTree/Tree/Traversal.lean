import SelectorTree.Tree.Basic

/-!
# Walking trees

The ancestors of a node follow parent links, the siblings before it follow
sibling links, and its descendants follow the lists of children.  No path in a
tree is longer than the number of its nodes, which bounds every walk.
-/

namespace SelectorTree

namespace Tree

/-- The nodes met by following a link at most `limit` times. -/
def follow (link : NodeId → Option NodeId) : Nat → Option NodeId → List NodeId
  | 0, _ => []
  | _ + 1, none => []
  | limit + 1, some id => id :: follow link limit (link id)

/-- The ancestors of a node, nearest first. -/
def ancestors (tree : Tree) (id : NodeId) : List NodeId :=
  follow tree.parent tree.size (tree.parent id)

/-- The siblings before a node, nearest first. -/
def precedingSiblings (tree : Tree) (id : NodeId) : List NodeId :=
  follow tree.previous tree.size (tree.previous id)

/-- The descendants of a node down to a depth, each before its own. -/
def descendantsWithin (tree : Tree) : Nat → NodeId → List NodeId
  | 0, _ => []
  | depth + 1, id =>
    (tree.children id).flatMap fun child => child :: tree.descendantsWithin depth child

/-- The descendants of a node, each before its own. -/
def descendants (tree : Tree) (id : NodeId) : List NodeId :=
  tree.descendantsWithin tree.size id

def isDescendantOf (tree : Tree) (id ancestor : NodeId) : Bool :=
  (tree.ancestors id).contains ancestor

end Tree

/-- A node with everything below it, apart from the array that holds it. -/
inductive Branch where
  | node (payload : Payload) (children : List Branch)

namespace Tree

/-- A node with everything below it down to a depth. -/
def branchWithin (tree : Tree) : Nat → NodeId → Option Branch
  | 0, _ => none
  | depth + 1, id =>
    (tree.get? id).map fun node =>
      .node node.payload (node.children.filterMap (tree.branchWithin depth))

def branch? (tree : Tree) (id : NodeId) : Option Branch :=
  tree.branchWithin (tree.size + 1) id

end Tree

end SelectorTree
