import SelectorTree.Tree.Element

/-!
# Trees

A tree is an array of nodes that refer to each other by their index.  A node is
never given back: removing it only detaches it, so an index stays valid.  Node
zero is the document.  Every node knows its parent, its children in order, and
the siblings on either side.
-/

namespace SelectorTree

abbrev NodeId : Type := Nat

inductive Payload where
  | document
  | element (data : Element)
  | text (content : String)
deriving DecidableEq, Inhabited

structure Node where
  payload : Payload
  parent : Option NodeId
  children : List NodeId
  previous : Option NodeId
  next : Option NodeId
deriving DecidableEq, Inhabited

/-- A node that stands alone. -/
def Node.ofPayload (payload : Payload) : Node := ⟨payload, none, [], none, none⟩

structure Tree where
  nodes : Array Node
deriving DecidableEq, Inhabited

namespace Tree

def size (tree : Tree) : Nat := tree.nodes.size

def get? (tree : Tree) (id : NodeId) : Option Node := tree.nodes[id]?

/-- Changes one node; there is nothing to change at an index out of range. -/
def update (tree : Tree) (id : NodeId) (change : Node → Node) : Tree :=
  ⟨tree.nodes.modify id change⟩

/-- The index of the document. -/
def root : NodeId := 0

def empty : Tree := ⟨#[.ofPayload .document]⟩

def alloc (tree : Tree) (payload : Payload) : Tree × NodeId :=
  (⟨tree.nodes.push (.ofPayload payload)⟩, tree.size)

def allocElement (tree : Tree) (data : Element) : Tree × NodeId :=
  tree.alloc (.element data)

def payload? (tree : Tree) (id : NodeId) : Option Payload := (tree.get? id).map Node.payload

def parent (tree : Tree) (id : NodeId) : Option NodeId := (tree.get? id).bind Node.parent

def children (tree : Tree) (id : NodeId) : List NodeId := ((tree.get? id).map Node.children).getD []

def previous (tree : Tree) (id : NodeId) : Option NodeId := (tree.get? id).bind Node.previous

def next (tree : Tree) (id : NodeId) : Option NodeId := (tree.get? id).bind Node.next

def element? (tree : Tree) (id : NodeId) : Option Element :=
  match tree.payload? id with
  | some (.element data) => some data
  | _ => none

def text? (tree : Tree) (id : NodeId) : Option String :=
  match tree.payload? id with
  | some (.text content) => some content
  | _ => none

def isElement (tree : Tree) (id : NodeId) : Bool := (tree.element? id).isSome

def setPayload (tree : Tree) (id : NodeId) (payload : Payload) : Tree :=
  tree.update id fun node => { node with payload }

def setElement (tree : Tree) (id : NodeId) (data : Element) : Tree :=
  if tree.isElement id then tree.setPayload id (.element data) else tree

def elementChildren (tree : Tree) (id : NodeId) : List NodeId :=
  (tree.children id).filter tree.isElement

def firstChild (tree : Tree) (id : NodeId) : Option NodeId := (tree.children id).head?

/-- The first child that is a text. -/
def firstTextChild (tree : Tree) (id : NodeId) : Option NodeId :=
  (tree.children id).find? fun child => (tree.text? child).isSome

theorem get?_update (tree : Tree) (id other : NodeId) (change : Node → Node) :
    (tree.update id change).get? other =
      if id = other then (tree.get? other).map change else tree.get? other := by
  simp [update, get?, Array.getElem?_modify]

@[simp] theorem size_update (tree : Tree) (id : NodeId) (change : Node → Node) :
    (tree.update id change).size = tree.size := by
  simp [update, size]

@[simp] theorem size_alloc (tree : Tree) (payload : Payload) :
    (tree.alloc payload).1.size = tree.size + 1 := by
  simp [alloc, size]

theorem get?_alloc (tree : Tree) (payload : Payload) (id : NodeId) :
    (tree.alloc payload).1.get? id =
      if id = tree.size then some (.ofPayload payload) else tree.get? id := by
  by_cases fresh : id = tree.nodes.size <;> simp [alloc, get?, size, Array.getElem?_push, fresh]

end Tree

end SelectorTree
