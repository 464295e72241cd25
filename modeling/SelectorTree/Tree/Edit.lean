import SelectorTree.Tree.Basic

/-!
# Editing trees

Nodes enter a list of children as a run: first each of them leaves its old
place, then the run goes in at one position and is linked to its new
neighbours.  A position next to a reference that is not a child is the end.
-/

namespace SelectorTree.Tree

/-- Sets the sibling behind a node, if there is such a node. -/
def setNext (tree : Tree) (id : Option NodeId) (next : Option NodeId) : Tree :=
  match id with
  | none => tree
  | some id => tree.update id fun node => { node with next }

/-- Sets the sibling before a node, if there is such a node. -/
def setPrevious (tree : Tree) (id : Option NodeId) (previous : Option NodeId) : Tree :=
  match id with
  | none => tree
  | some id => tree.update id fun node => { node with previous }

/-- Detaches a child; it keeps its own subtree.  Nothing happens if the parent
does not list it. -/
def removeChild (tree : Tree) (parent child : NodeId) : Tree :=
  if child ∈ tree.children parent then
    let previous := tree.previous child
    let next := tree.next child
    let unlisted := tree.update parent fun node =>
      { node with children := node.children.erase child }
    let detached := unlisted.update child fun node =>
      { node with parent := none, previous := none, next := none }
    (detached.setNext previous next).setPrevious next previous
  else tree

def detach (tree : Tree) (id : NodeId) : Tree :=
  match tree.parent id with
  | none => tree
  | some parent => tree.removeChild parent id

def detachAll (tree : Tree) (ids : List NodeId) : Tree := ids.foldl detach tree

/-- Links the nodes of a run to their parent, to each other, and to the nodes
before and behind the run. -/
def linkRun (parent : NodeId) (before behind : Option NodeId) : List NodeId → Tree → Tree
  | [], tree => tree
  | id :: rest, tree =>
    linkRun parent (some id) behind rest
      (tree.update id fun node =>
        { node with parent := some parent, previous := before, next := rest.head?.or behind })

/-- Puts a run of detached nodes among the children of a parent, behind the
first `index` of them. -/
def splice (tree : Tree) (parent : NodeId) (run : List NodeId) (index : Nat) : Tree :=
  if run = [] then tree
  else
    let front := (tree.children parent).take index
    let back := (tree.children parent).drop index
    let listed := tree.update parent fun node => { node with children := front ++ run ++ back }
    let linked := linkRun parent front.getLast? back.head? run listed
    (linked.setNext front.getLast? run.head?).setPrevious back.head? run.getLast?

/-- Moves nodes among the children of a parent.  `place` computes their position
from the children that remain once the nodes have left their old places. -/
def insertRun (tree : Tree) (parent : NodeId) (run : List NodeId)
    (place : List NodeId → Nat) : Tree :=
  let detached := tree.detachAll run
  detached.splice parent run (place (detached.children parent))

/-- The position before a reference. -/
def placeBefore (reference : NodeId) (children : List NodeId) : Nat :=
  (children.idxOf? reference).getD children.length

/-- The position behind a reference. -/
def placeAfter (reference : NodeId) (children : List NodeId) : Nat :=
  ((children.idxOf? reference).map (· + 1)).getD children.length

def appendChild (tree : Tree) (parent child : NodeId) : Tree :=
  tree.insertRun parent [child] List.length

def prependChild (tree : Tree) (parent child : NodeId) : Tree :=
  tree.insertRun parent [child] fun _ => 0

/-- Moves nodes, in order, before a reference. -/
def insertManyBefore (tree : Tree) (parent : NodeId) (run : List NodeId)
    (reference : NodeId) : Tree :=
  tree.insertRun parent run (placeBefore reference)

/-- Moves nodes, in order, behind a reference. -/
def insertManyAfter (tree : Tree) (parent : NodeId) (run : List NodeId)
    (reference : NodeId) : Tree :=
  tree.insertRun parent run (placeAfter reference)

def insertBefore (tree : Tree) (parent child reference : NodeId) : Tree :=
  tree.insertManyBefore parent [child] reference

def insertAfter (tree : Tree) (parent child reference : NodeId) : Tree :=
  tree.insertManyAfter parent [child] reference

/-- Replaces the first text of a node, or gives it one behind its children. -/
def setText (tree : Tree) (id : NodeId) (content : String) : Tree :=
  match tree.firstTextChild id with
  | some text => tree.setPayload text (.text content)
  | none =>
    let added := tree.alloc (.text content)
    added.1.appendChild id added.2

/-- A document with an empty body, and the body's index. -/
def withBody : Tree × NodeId :=
  let added := empty.allocElement (.ofTag "body")
  (added.1.appendChild root added.2, added.2)

end SelectorTree.Tree
