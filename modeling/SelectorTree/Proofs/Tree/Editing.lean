import SelectorTree.Proofs.Tree.Leaves
import SelectorTree.Proofs.Tree.Walks

/-!
# Edited trees

An edit is one call of an operation that changes a tree.  Every edit keeps the
links of a tree in agreement, as long as no run contains a node twice or one that
its new parent is below.  So the links agree in whatever tree edits have made, and
the way up from any node ends.
-/

namespace SelectorTree.Tree

/-- A call of an operation that allocates, moves or detaches nodes, or sets a text. -/
inductive Edit where
  | alloc (payload : Payload)
  | append (parent child : NodeId)
  | prepend (parent child : NodeId)
  | insertBefore (parent child reference : NodeId)
  | insertAfter (parent child reference : NodeId)
  | insertManyBefore (parent : NodeId) (run : List NodeId) (reference : NodeId)
  | insertManyAfter (parent : NodeId) (run : List NodeId) (reference : NodeId)
  | remove (parent child : NodeId)
  | setText (id : NodeId) (content : String)

namespace Edit

def apply (tree : Tree) : Edit → Tree
  | alloc payload => (tree.alloc payload).1
  | append parent child => tree.appendChild parent child
  | prepend parent child => tree.prependChild parent child
  | insertBefore parent child reference => tree.insertBefore parent child reference
  | insertAfter parent child reference => tree.insertAfter parent child reference
  | insertManyBefore parent run reference => tree.insertManyBefore parent run reference
  | insertManyAfter parent run reference => tree.insertManyAfter parent run reference
  | remove parent child => tree.removeChild parent child
  | setText id content => tree.setText id content

/-- What a caller promises.  A reference may be any node, one of the run included. -/
def Admissible (tree : Tree) : Edit → Prop
  | alloc _ => True
  | append parent child => tree.Insertable parent [child]
  | prepend parent child => tree.Insertable parent [child]
  | insertBefore parent child _ => tree.Insertable parent [child]
  | insertAfter parent child _ => tree.Insertable parent [child]
  | insertManyBefore parent run _ => tree.Insertable parent run
  | insertManyAfter parent run _ => tree.Insertable parent run
  | remove _ _ => True
  | setText id _ => id < tree.size

end Edit

/-- The trees that admissible edits make of a new document, with or without a body. -/
inductive Reachable : Tree → Prop where
  | empty : Reachable empty
  | withBody : Reachable withBody.1
  | edit {tree : Tree} (reachable : Reachable tree) (edit : Edit)
      (admissible : edit.Admissible tree) : Reachable (edit.apply tree)

/-- The node that a number of parent links lead to. -/
def climb (tree : Tree) : Nat → NodeId → Option NodeId
  | 0, id => some id
  | steps + 1, id => (tree.parent id).bind (tree.climb steps)

variable {tree : Tree} {parent id : NodeId} {run : List NodeId} {edit : Edit}

/-! ## One edit -/

theorem Linked.setText (linked : tree.Linked) (allocated : id < tree.size) (content : String) :
    (tree.setText id content).Linked := by
  rw [Tree.setText]
  split
  · next text _ => exact linked.setPayload text (.text content)
  · next none => exact linked.addChild allocated (.text content)

theorem Linked.apply (linked : tree.Linked) (admissible : edit.Admissible tree) :
    (edit.apply tree).Linked := by
  cases edit with
  | alloc payload => exact linked.alloc payload
  | append => exact linked.insertRun admissible List.length
  | prepend => exact linked.insertRun admissible fun _ => 0
  | insertBefore _ _ reference => exact linked.insertRun admissible (placeBefore reference)
  | insertAfter _ _ reference => exact linked.insertRun admissible (placeAfter reference)
  | insertManyBefore _ _ reference => exact linked.insertRun admissible (placeBefore reference)
  | insertManyAfter _ _ reference => exact linked.insertRun admissible (placeAfter reference)
  | remove parent child => exact linked.removeChild parent child
  | setText id content => exact linked.setText admissible content

/-- The nodes above a node are its ancestors, so callers can check their promise. -/
theorem Linked.insertable (linked : tree.Linked) (parentAllocated : parent < tree.size)
    (allocated : ∀ id ∈ run, id < tree.size) (distinct : run.Nodup)
    (outside : ∀ id ∈ run, id ≠ parent ∧ id ∉ tree.ancestors parent) :
    tree.Insertable parent run where
  parent_lt := parentAllocated
  lt_size := allocated
  nodup := distinct
  parent_not_mem member := (outside parent member).1 rfl
  not_below id member below := (outside id member).2 ((mem_ancestors_iff linked).mpr below)

/-! ## Any number of edits -/

theorem Reachable.linked (reachable : tree.Reachable) : tree.Linked := by
  induction reachable with
  | empty => exact linked_empty
  | withBody => exact linked_withBody
  | edit _ _ admissible ih => exact ih.apply admissible

/-- The way up ends, by induction on the number of nodes above its start. -/
theorem Linked.exists_climb_eq_none (linked : tree.Linked) {limit : Nat}
    (enough : (tree.lineage id).card ≤ limit) :
    ∃ steps, steps ≤ limit + 1 ∧ tree.climb steps id = none := by
  induction limit generalizing id with
  | zero =>
      refine ⟨1, Nat.le_refl 1, ?_⟩
      cases attached : tree.parent id with
      | none => simp [climb, attached]
      | some parent =>
          have member : parent ∈ tree.lineage id := (mem_lineage linked).mpr (.single attached)
          exact absurd (Finset.card_pos.mpr ⟨parent, member⟩) (Nat.not_lt.mpr enough)
  | succ limit ih =>
      cases attached : tree.parent id with
      | none => exact ⟨1, Nat.succ_le_succ (Nat.zero_le _), by simp [climb, attached]⟩
      | some parent =>
          have fewer := card_lineage_lt linked attached
          have enoughAbove : (tree.lineage parent).card ≤ limit := by omega
          obtain ⟨steps, bound, ends⟩ := ih enoughAbove
          exact ⟨steps + 1, Nat.succ_le_succ bound, by simp [climb, attached, ends]⟩

/-- Whatever admissible edits have made a tree, lists of children, parent links and
sibling links agree, and the way up from any node ends. -/
theorem links_of_reachable (reachable : tree.Reachable) :
    tree.Linked ∧ ∀ id, ∃ steps, steps ≤ tree.size + 1 ∧ tree.climb steps id = none := by
  have linked := reachable.linked
  constructor
  · exact linked
  · intro id
    exact linked.exists_climb_eq_none (tree.card_lineage_le id)

/-- A list below a body, with two items that enter it together, change places and
are taken apart.  At first one of them is named as the place for both. -/
def movedItems : Tree :=
  [Edit.alloc (.element (.ofTag "ul")), .alloc (.element (.ofTag "li")),
    .alloc (.element (.ofTag "li")), .append 1 2, .insertManyAfter 2 [3, 4] 3,
    .insertBefore 2 4 3, .remove 2 3, .prepend 4 3, .setText 3 "one"].foldl Edit.apply withBody.1

theorem reachable_movedItems : movedItems.Reachable := by
  have list := Reachable.withBody.edit (.alloc (.element (.ofTag "ul"))) trivial
  have item := list.edit (.alloc (.element (.ofTag "li"))) trivial
  have both := item.edit (.alloc (.element (.ofTag "li"))) trivial
  have below := both.edit (.append 1 2)
    (both.linked.insertable (by decide) (by decide) (by decide) (by decide))
  have entered := below.edit (.insertManyAfter 2 [3, 4] 3)
    (below.linked.insertable (by decide) (by decide) (by decide) (by decide))
  have turned := entered.edit (.insertBefore 2 4 3)
    (entered.linked.insertable (by decide) (by decide) (by decide) (by decide))
  have removed := turned.edit (.remove 2 3) trivial
  have moved := removed.edit (.prepend 4 3)
    (removed.linked.insertable (by decide) (by decide) (by decide) (by decide))
  have worded := moved.edit (.setText 3 "one") (show 3 < Tree.size _ by decide)
  simp only [movedItems, List.foldl_cons, List.foldl_nil]
  exact worded

theorem links_movedItems :
    movedItems.Reachable ∧ movedItems.children 2 = [4] ∧ movedItems.children 4 = [3] ∧
      movedItems.Linked ∧
      ∀ id, ∃ steps, steps ≤ movedItems.size + 1 ∧ movedItems.climb steps id = none := by
  refine ⟨reachable_movedItems, ?_, ?_, links_of_reachable reachable_movedItems⟩
  · decide +kernel
  · decide +kernel

end SelectorTree.Tree
