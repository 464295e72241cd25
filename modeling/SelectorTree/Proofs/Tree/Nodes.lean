import SelectorTree.Tree.Edit

/-!
# Nodes of a changed tree

Allocating, replacing data and setting sibling links each touch one field of
one node.  The lemmas below say what every field of every node reads
afterwards, so later proofs never open the array.
-/

namespace SelectorTree.Tree

theorem lt_size_iff {tree : Tree} {id : NodeId} :
    id < tree.size ↔ (tree.get? id).isSome = true := by
  simp [get?, size]

theorem get?_eq_none_iff {tree : Tree} {id : NodeId} :
    tree.get? id = none ↔ tree.size ≤ id := by
  simp [get?, size]

theorem parent_eq_none_of_size_le {tree : Tree} {id : NodeId}
    (fresh : tree.size ≤ id) : tree.parent id = none := by
  simp [parent, get?_eq_none_iff.mpr fresh]

theorem children_eq_nil_of_size_le {tree : Tree} {id : NodeId}
    (fresh : tree.size ≤ id) : tree.children id = [] := by
  simp [children, get?_eq_none_iff.mpr fresh]

theorem payload?_eq_none_of_size_le {tree : Tree} {id : NodeId}
    (fresh : tree.size ≤ id) : tree.payload? id = none := by
  simp [payload?, get?_eq_none_iff.mpr fresh]

theorem lt_size_of_parent {tree : Tree} {id parent : NodeId}
    (attached : tree.parent id = some parent) : id < tree.size := by
  refine Nat.lt_of_not_le fun fresh => ?_
  rw [parent_eq_none_of_size_le fresh] at attached
  cases attached

theorem lt_size_of_mem_children {tree : Tree} {parent child : NodeId}
    (listed : child ∈ tree.children parent) : parent < tree.size := by
  refine Nat.lt_of_not_le fun fresh => ?_
  rw [children_eq_nil_of_size_le fresh] at listed
  cases listed

theorem isElement_iff {tree : Tree} {id : NodeId} :
    tree.isElement id = true ↔ ∃ data, tree.element? id = some data := by
  simp [isElement, Option.isSome_iff_exists]

theorem lt_size_of_isElement {tree : Tree} {id : NodeId}
    (element : tree.isElement id = true) : id < tree.size := by
  refine Nat.lt_of_not_le fun fresh => ?_
  simp [isElement, element?, payload?_eq_none_of_size_le fresh] at element

/-- A change that keeps a field of a node keeps it at every node. -/
theorem map_get?_update {α : Type} (tree : Tree) (id other : NodeId)
    {change : Node → Node} (field : Node → α)
    (keeps : ∀ node, field (change node) = field node) :
    ((tree.update id change).get? other).map field = (tree.get? other).map field := by
  rw [get?_update]
  split
  · rw [Option.map_map]
    exact congrArg (fun read => (tree.get? other).map read) (funext keeps)
  · rfl

section Fields

variable (tree : Tree) (id : NodeId)

theorem parent_eq_join : tree.parent id = ((tree.get? id).map Node.parent).join := by
  rw [parent]
  cases tree.get? id <;> rfl

theorem previous_eq_join : tree.previous id = ((tree.get? id).map Node.previous).join := by
  rw [previous]
  cases tree.get? id <;> rfl

theorem next_eq_join : tree.next id = ((tree.get? id).map Node.next).join := by
  rw [next]
  cases tree.get? id <;> rfl

theorem parent_update (other : NodeId) {change : Node → Node}
    (keeps : ∀ node, (change node).parent = node.parent) :
    (tree.update id change).parent other = tree.parent other := by
  rw [parent_eq_join, map_get?_update tree id other Node.parent keeps, ← parent_eq_join]

theorem children_update (other : NodeId) {change : Node → Node}
    (keeps : ∀ node, (change node).children = node.children) :
    (tree.update id change).children other = tree.children other := by
  rw [children, map_get?_update tree id other Node.children keeps, ← children]

theorem previous_update (other : NodeId) {change : Node → Node}
    (keeps : ∀ node, (change node).previous = node.previous) :
    (tree.update id change).previous other = tree.previous other := by
  rw [previous_eq_join, map_get?_update tree id other Node.previous keeps,
    ← previous_eq_join]

theorem next_update (other : NodeId) {change : Node → Node}
    (keeps : ∀ node, (change node).next = node.next) :
    (tree.update id change).next other = tree.next other := by
  rw [next_eq_join, map_get?_update tree id other Node.next keeps, ← next_eq_join]

theorem payload?_update (other : NodeId) {change : Node → Node}
    (keeps : ∀ node, (change node).payload = node.payload) :
    (tree.update id change).payload? other = tree.payload? other :=
  map_get?_update tree id other Node.payload keeps

end Fields

/-! ## Allocation -/

section Alloc

variable (tree : Tree) (payload : Payload) (id : NodeId)

@[simp] theorem alloc_snd : (tree.alloc payload).2 = tree.size := rfl

@[simp] theorem parent_alloc : (tree.alloc payload).1.parent id = tree.parent id := by
  by_cases fresh : id = tree.size
  · subst fresh
    simp [parent, get?_alloc, Node.ofPayload, get?_eq_none_iff.mpr]
  · simp [parent, get?_alloc, fresh]

@[simp] theorem children_alloc : (tree.alloc payload).1.children id = tree.children id := by
  by_cases fresh : id = tree.size
  · subst fresh
    simp [children, get?_alloc, Node.ofPayload, get?_eq_none_iff.mpr]
  · simp [children, get?_alloc, fresh]

@[simp] theorem previous_alloc : (tree.alloc payload).1.previous id = tree.previous id := by
  by_cases fresh : id = tree.size
  · subst fresh
    simp [previous, get?_alloc, Node.ofPayload, get?_eq_none_iff.mpr]
  · simp [previous, get?_alloc, fresh]

@[simp] theorem next_alloc : (tree.alloc payload).1.next id = tree.next id := by
  by_cases fresh : id = tree.size
  · subst fresh
    simp [next, get?_alloc, Node.ofPayload, get?_eq_none_iff.mpr]
  · simp [next, get?_alloc, fresh]

theorem payload?_alloc :
    (tree.alloc payload).1.payload? id =
      if id = tree.size then some payload else tree.payload? id := by
  by_cases fresh : id = tree.size <;> simp [payload?, get?_alloc, Node.ofPayload, fresh]

end Alloc

/-! ## Replacing data -/

section Payload

variable (tree : Tree) (id other : NodeId) (payload : Payload) (data : Element)

@[simp] theorem size_setPayload : (tree.setPayload id payload).size = tree.size :=
  size_update tree id _

@[simp] theorem parent_setPayload :
    (tree.setPayload id payload).parent other = tree.parent other :=
  parent_update tree id other fun _ => rfl

@[simp] theorem children_setPayload :
    (tree.setPayload id payload).children other = tree.children other :=
  children_update tree id other fun _ => rfl

@[simp] theorem previous_setPayload :
    (tree.setPayload id payload).previous other = tree.previous other :=
  previous_update tree id other fun _ => rfl

@[simp] theorem next_setPayload :
    (tree.setPayload id payload).next other = tree.next other :=
  next_update tree id other fun _ => rfl

theorem payload?_setPayload :
    (tree.setPayload id payload).payload? other =
      if id = other then (tree.payload? other).map fun _ => payload
      else tree.payload? other := by
  rw [setPayload, payload?, get?_update]
  split <;> simp [payload?, Function.comp_def]

@[simp] theorem size_setElement : (tree.setElement id data).size = tree.size := by
  rw [setElement]
  split <;> simp

@[simp] theorem parent_setElement :
    (tree.setElement id data).parent other = tree.parent other := by
  rw [setElement]
  split <;> simp

@[simp] theorem children_setElement :
    (tree.setElement id data).children other = tree.children other := by
  rw [setElement]
  split <;> simp

@[simp] theorem previous_setElement :
    (tree.setElement id data).previous other = tree.previous other := by
  rw [setElement]
  split <;> simp

@[simp] theorem next_setElement :
    (tree.setElement id data).next other = tree.next other := by
  rw [setElement]
  split <;> simp

theorem payload?_eq_of_element? {tree : Tree} {id : NodeId} {data : Element}
    (element : tree.element? id = some data) : tree.payload? id = some (.element data) := by
  rw [element?] at element
  split at element
  · next found =>
      cases element
      exact found
  · cases element

theorem element?_eq_some_iff {tree : Tree} {id : NodeId} {data : Element} :
    tree.element? id = some data ↔ tree.payload? id = some (.element data) := by
  constructor
  · exact payload?_eq_of_element?
  · intro found
    simp [element?, found]

theorem payload?_setElement_self {tree : Tree} {id : NodeId}
    (element : tree.isElement id = true) (data : Element) :
    (tree.setElement id data).payload? id = some (.element data) := by
  obtain ⟨old, found⟩ := isElement_iff.mp element
  simp [setElement, element, payload?_setPayload, payload?_eq_of_element? found]

theorem payload?_setElement_of_ne {tree : Tree} {id other : NodeId}
    (different : id ≠ other) (data : Element) :
    (tree.setElement id data).payload? other = tree.payload? other := by
  rw [setElement]
  split
  · rw [payload?_setPayload, if_neg different]
  · rfl

theorem element?_congr {before after : Tree} {id : NodeId}
    (same : after.payload? id = before.payload? id) :
    after.element? id = before.element? id := by
  simp [element?, same]

theorem text?_congr {before after : Tree} {id : NodeId}
    (same : after.payload? id = before.payload? id) :
    after.text? id = before.text? id := by
  simp [text?, same]

theorem isElement_congr {before after : Tree} {id : NodeId}
    (same : after.payload? id = before.payload? id) :
    after.isElement id = before.isElement id := by
  simp [isElement, element?_congr same]

@[simp] theorem isElement_setElement :
    (tree.setElement id data).isElement other = tree.isElement other := by
  by_cases same : id = other
  · subst same
    by_cases element : tree.isElement id = true
    · rw [isElement, element?_eq_some_iff.mpr (payload?_setElement_self element data), element]
      rfl
    · simp [setElement, element]
  · exact isElement_congr (payload?_setElement_of_ne same data)

@[simp] theorem text?_setElement :
    (tree.setElement id data).text? other = tree.text? other := by
  by_cases same : id = other
  · subst same
    by_cases element : tree.isElement id = true
    · obtain ⟨old, found⟩ := isElement_iff.mp element
      simp [text?, payload?_setElement_self element data, payload?_eq_of_element? found]
    · simp [setElement, element]
  · exact text?_congr (payload?_setElement_of_ne same data)

variable {tree id other payload data}

theorem lt_size_of_element? (found : tree.element? id = some data) : id < tree.size :=
  lt_size_of_isElement (isElement_iff.mpr ⟨data, found⟩)

theorem ext_get? {left right : Tree} (same : ∀ id, left.get? id = right.get? id) :
    left = right := by
  cases left
  cases right
  exact congrArg Tree.mk (Array.ext_getElem? same)

theorem setPayload_self {payload : Payload} (found : tree.payload? id = some payload) :
    tree.setPayload id payload = tree := by
  refine ext_get? fun other => ?_
  rw [setPayload, get?_update]
  split
  · next same =>
      subst same
      rw [payload?, Option.map_eq_some_iff] at found
      obtain ⟨node, nodeEq, payloadEq⟩ := found
      rw [nodeEq, Option.map_some, ← payloadEq]
  · rfl

theorem setElement_self (found : tree.element? id = some data) :
    tree.setElement id data = tree := by
  rw [setElement, if_pos (isElement_iff.mpr ⟨data, found⟩)]
  exact setPayload_self (payload?_eq_of_element? found)

theorem element?_setElement_self (found : tree.element? id = some data) (changed : Element) :
    (tree.setElement id changed).element? id = some changed :=
  element?_eq_some_iff.mpr (payload?_setElement_self (isElement_iff.mpr ⟨data, found⟩) changed)

theorem element?_setElement_of_ne {other : NodeId} (different : id ≠ other) (changed : Element) :
    (tree.setElement id changed).element? other = tree.element? other :=
  element?_congr (payload?_setElement_of_ne different changed)

end Payload

/-! ## Sibling links -/

section Siblings

variable (tree : Tree) (id? link : Option NodeId) (other : NodeId)

@[simp] theorem size_setNext : (tree.setNext id? link).size = tree.size := by
  cases id? <;> simp [setNext]

@[simp] theorem parent_setNext :
    (tree.setNext id? link).parent other = tree.parent other := by
  cases id? with
  | none => rfl
  | some id => exact parent_update tree id other fun _ => rfl

@[simp] theorem children_setNext :
    (tree.setNext id? link).children other = tree.children other := by
  cases id? with
  | none => rfl
  | some id => exact children_update tree id other fun _ => rfl

@[simp] theorem previous_setNext :
    (tree.setNext id? link).previous other = tree.previous other := by
  cases id? with
  | none => rfl
  | some id => exact previous_update tree id other fun _ => rfl

@[simp] theorem payload?_setNext :
    (tree.setNext id? link).payload? other = tree.payload? other := by
  cases id? with
  | none => rfl
  | some id => exact payload?_update tree id other fun _ => rfl

theorem next_setNext_of_ne {id? : Option NodeId} {other : NodeId} (different : id? ≠ some other) :
    (tree.setNext id? link).next other = tree.next other := by
  cases id? with
  | none => rfl
  | some id =>
      have apart : id ≠ other := fun same => different (congrArg some same)
      simp [setNext, next, get?_update, apart]

theorem next_setNext_self {other : NodeId} (allocated : other < tree.size) :
    (tree.setNext (some other) link).next other = link := by
  obtain ⟨node, found⟩ := Option.isSome_iff_exists.mp (lt_size_iff.mp allocated)
  simp [setNext, next, get?_update, found]

@[simp] theorem size_setPrevious : (tree.setPrevious id? link).size = tree.size := by
  cases id? <;> simp [setPrevious]

@[simp] theorem parent_setPrevious :
    (tree.setPrevious id? link).parent other = tree.parent other := by
  cases id? with
  | none => rfl
  | some id => exact parent_update tree id other fun _ => rfl

@[simp] theorem children_setPrevious :
    (tree.setPrevious id? link).children other = tree.children other := by
  cases id? with
  | none => rfl
  | some id => exact children_update tree id other fun _ => rfl

@[simp] theorem next_setPrevious :
    (tree.setPrevious id? link).next other = tree.next other := by
  cases id? with
  | none => rfl
  | some id => exact next_update tree id other fun _ => rfl

@[simp] theorem payload?_setPrevious :
    (tree.setPrevious id? link).payload? other = tree.payload? other := by
  cases id? with
  | none => rfl
  | some id => exact payload?_update tree id other fun _ => rfl

theorem previous_setPrevious_of_ne {id? : Option NodeId} {other : NodeId}
    (different : id? ≠ some other) :
    (tree.setPrevious id? link).previous other = tree.previous other := by
  cases id? with
  | none => rfl
  | some id =>
      have apart : id ≠ other := fun same => different (congrArg some same)
      simp [setPrevious, previous, get?_update, apart]

theorem previous_setPrevious_self {other : NodeId} (allocated : other < tree.size) :
    (tree.setPrevious (some other) link).previous other = link := by
  obtain ⟨node, found⟩ := Option.isSome_iff_exists.mp (lt_size_iff.mp allocated)
  simp [setPrevious, previous, get?_update, found]

end Siblings

end SelectorTree.Tree
