import SelectorTree.Proofs.Tree.Nodes
import SelectorTree.Synthesis.Content

/-!
# Trees without their marks

The mark that an imported rule leaves at an element is one field of its data.  Taking the
marks off a tree before an operation or behind it comes to the same: no operation on trees
reads them.
-/

namespace SelectorTree

def Element.unmarked (element : Element) : Element := { element with imported := false }

def Payload.unmarked : Payload → Payload
  | .document => .document
  | .element data => .element data.unmarked
  | .text content => .text content

def Node.unmarked (node : Node) : Node := { node with payload := node.payload.unmarked }

namespace Tree

/-- The tree with the marks of all its elements taken off. -/
def unmarked (tree : Tree) : Tree := ⟨tree.nodes.map Node.unmarked⟩

/-! ## Reading -/

section Reading

variable (tree : Tree) (id : NodeId)

@[simp] theorem get?_unmarked : tree.unmarked.get? id = (tree.get? id).map Node.unmarked := by
  simp [unmarked, get?]

@[simp] theorem size_unmarked : tree.unmarked.size = tree.size := by
  simp [unmarked, size]

@[simp] theorem parent_unmarked : tree.unmarked.parent id = tree.parent id := by
  rw [parent, get?_unmarked, parent]
  cases tree.get? id <;> rfl

@[simp] theorem children_unmarked : tree.unmarked.children id = tree.children id := by
  rw [children, get?_unmarked, children]
  cases tree.get? id <;> rfl

@[simp] theorem previous_unmarked : tree.unmarked.previous id = tree.previous id := by
  rw [previous, get?_unmarked, previous]
  cases tree.get? id <;> rfl

@[simp] theorem next_unmarked : tree.unmarked.next id = tree.next id := by
  rw [next, get?_unmarked, next]
  cases tree.get? id <;> rfl

@[simp] theorem payload?_unmarked :
    tree.unmarked.payload? id = (tree.payload? id).map Payload.unmarked := by
  rw [payload?, get?_unmarked, payload?]
  cases tree.get? id <;> rfl

@[simp] theorem element?_unmarked :
    tree.unmarked.element? id = (tree.element? id).map Element.unmarked := by
  rw [element?, payload?_unmarked, element?]
  rcases tree.payload? id with _ | _ | _ | _ <;> rfl

@[simp] theorem text?_unmarked : tree.unmarked.text? id = tree.text? id := by
  rw [text?, payload?_unmarked, text?]
  rcases tree.payload? id with _ | _ | _ | _ <;> rfl

@[simp] theorem isElement_unmarked : tree.unmarked.isElement id = tree.isElement id := by
  rw [isElement, element?_unmarked, Option.isSome_map, isElement]

@[simp] theorem elementChildren_unmarked :
    tree.unmarked.elementChildren id = tree.elementChildren id := by
  rw [elementChildren, children_unmarked, funext tree.isElement_unmarked, elementChildren]

@[simp] theorem firstTextChild_unmarked :
    tree.unmarked.firstTextChild id = tree.firstTextChild id := by
  simp only [firstTextChild, children_unmarked, text?_unmarked]

end Reading

/-! ## Changing nodes -/

section Changing

variable (tree : Tree) (id : NodeId)

/-- A change that neither reads nor writes marks. -/
theorem unmarked_update {change : Node → Node}
    (commutes : ∀ node, (change node).unmarked = change node.unmarked) :
    (tree.update id change).unmarked = tree.unmarked.update id change := by
  refine ext_get? fun other => ?_
  rw [get?_unmarked, get?_update, get?_update, get?_unmarked]
  split
  · rw [Option.map_map, Option.map_map]
    exact congrArg (Option.map · (tree.get? other)) (funext commutes)
  · rfl

@[simp] theorem unmarked_alloc (payload : Payload) :
    (tree.alloc payload).1.unmarked = (tree.unmarked.alloc payload.unmarked).1 := by
  refine ext_get? fun other => ?_
  rw [get?_unmarked, get?_alloc, get?_alloc, size_unmarked, get?_unmarked]
  split <;> rfl

@[simp] theorem unmarked_setPayload (payload : Payload) :
    (tree.setPayload id payload).unmarked = tree.unmarked.setPayload id payload.unmarked := by
  refine ext_get? fun other => ?_
  rw [get?_unmarked, setPayload, setPayload, get?_update, get?_update, get?_unmarked]
  split
  · rw [Option.map_map, Option.map_map]
    rfl
  · rfl

@[simp] theorem unmarked_setElement (data : Element) :
    (tree.setElement id data).unmarked = tree.unmarked.setElement id data.unmarked := by
  rw [setElement, setElement, isElement_unmarked]
  split
  · exact tree.unmarked_setPayload id (.element data)
  · rfl

@[simp] theorem unmarked_setNext (id? next : Option NodeId) :
    (tree.setNext id? next).unmarked = tree.unmarked.setNext id? next := by
  cases id? with
  | none => rfl
  | some id => exact tree.unmarked_update id fun _ => rfl

@[simp] theorem unmarked_setPrevious (id? previous : Option NodeId) :
    (tree.setPrevious id? previous).unmarked = tree.unmarked.setPrevious id? previous := by
  cases id? with
  | none => rfl
  | some id => exact tree.unmarked_update id fun _ => rfl

end Changing

/-! ## Moving nodes -/

section Moving

variable (tree : Tree) (parent : NodeId)

@[simp] theorem unmarked_removeChild (child : NodeId) :
    (tree.removeChild parent child).unmarked = tree.unmarked.removeChild parent child := by
  rw [removeChild, removeChild, children_unmarked]
  split
  · rw [unmarked_setPrevious, unmarked_setNext, unmarked_update _ child,
      unmarked_update tree parent, previous_unmarked, next_unmarked]
    · exact fun _ => rfl
    · exact fun _ => rfl
  · rfl

@[simp] theorem unmarked_detach (id : NodeId) :
    (tree.detach id).unmarked = tree.unmarked.detach id := by
  rw [detach, detach, parent_unmarked]
  split
  · rfl
  · exact tree.unmarked_removeChild _ id

@[simp] theorem unmarked_detachAll (ids : List NodeId) :
    (tree.detachAll ids).unmarked = tree.unmarked.detachAll ids := by
  induction ids generalizing tree with
  | nil => rfl
  | cons id ids ih =>
      refine (ih (tree.detach id)).trans ?_
      rw [unmarked_detach]
      rfl

@[simp] theorem unmarked_linkRun (before behind : Option NodeId) (run : List NodeId) :
    (linkRun parent before behind run tree).unmarked =
      linkRun parent before behind run tree.unmarked := by
  induction run generalizing tree before with
  | nil => rfl
  | cons id run ih =>
      rw [linkRun, ih, unmarked_update tree id, linkRun]
      exact fun _ => rfl

@[simp] theorem unmarked_splice (run : List NodeId) (index : Nat) :
    (tree.splice parent run index).unmarked = tree.unmarked.splice parent run index := by
  rw [splice, splice, children_unmarked]
  split
  · rfl
  · rw [unmarked_setPrevious, unmarked_setNext, unmarked_linkRun, unmarked_update tree parent]
    exact fun _ => rfl

@[simp] theorem unmarked_insertRun (run : List NodeId) (place : List NodeId → Nat) :
    (tree.insertRun parent run place).unmarked = tree.unmarked.insertRun parent run place := by
  rw [insertRun, insertRun, unmarked_splice, ← children_unmarked, unmarked_detachAll]

@[simp] theorem unmarked_setText (id : NodeId) (content : String) :
    (tree.setText id content).unmarked = tree.unmarked.setText id content := by
  rw [setText, setText, firstTextChild_unmarked]
  split
  · exact tree.unmarked_setPayload _ (.text content)
  · simp only [appendChild, unmarked_insertRun, unmarked_alloc, alloc_snd, size_unmarked]
    rfl

end Moving

end Tree

end SelectorTree
