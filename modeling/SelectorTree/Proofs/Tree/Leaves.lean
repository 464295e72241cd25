import SelectorTree.Proofs.Tree.Splicing

/-!
# Inserting detached leaves

Nodes without parent and children, as allocation makes them, may go anywhere:
nothing is below them, and no list loses them.
-/

namespace SelectorTree.Tree

/-- A run of distinct nodes that have neither parent nor children. -/
structure Leaves (tree : Tree) (run : List NodeId) : Prop where
  lt_size : ∀ id ∈ run, id < tree.size
  nodup : run.Nodup
  detached : ∀ id ∈ run, tree.parent id = none
  childless : ∀ id ∈ run, tree.children id = []

variable {tree : Tree} {parent : NodeId} {run : List NodeId}

/-- Whatever is below a node has a child of that node on its way up. -/
theorem Below.exists_child {top id : NodeId} (below : tree.Below top id) :
    ∃ child, tree.parent child = some top := by
  induction below with
  | single attached => exact ⟨_, attached⟩
  | tail _ _ ih => exact ih

theorem Below.exists_parent {top id : NodeId} (below : tree.Below top id) :
    ∃ parent, tree.parent id = some parent := by
  cases below with
  | single attached => exact ⟨_, attached⟩
  | tail _ attached => exact ⟨_, attached⟩

theorem Linked.not_below_of_childless (linked : tree.Linked) {top : NodeId}
    (childless : tree.children top = []) (id : NodeId) : ¬ tree.Below top id := by
  intro below
  obtain ⟨child, attached⟩ := Below.exists_child below
  have listed := linked.mem_children attached
  rw [childless] at listed
  cases listed

theorem Leaves.insertable (leaves : tree.Leaves run) (linked : tree.Linked)
    (allocated : parent < tree.size) (outside : parent ∉ run) :
    tree.Insertable parent run where
  parent_lt := allocated
  lt_size := leaves.lt_size
  nodup := leaves.nodup
  parent_not_mem := outside
  not_below id member := linked.not_below_of_childless (leaves.childless id member) parent

/-- A new node is a leaf. -/
theorem leaves_alloc (tree : Tree) (payload : Payload) :
    (tree.alloc payload).1.Leaves [tree.size] where
  lt_size := by simp
  nodup := List.nodup_singleton _
  detached := by simp [parent_eq_none_of_size_le]
  childless := by simp [children_eq_nil_of_size_le]

theorem Linked.insertable_alloc (linked : tree.Linked) (payload : Payload)
    (allocated : parent < tree.size) :
    (tree.alloc payload).1.Insertable parent [tree.size] := by
  refine (leaves_alloc tree payload).insertable (linked.alloc payload) ?_ ?_
  · exact (size_alloc tree payload).symm ▸ Nat.lt_succ_of_lt allocated
  · intro member
    exact Nat.ne_of_lt allocated (List.mem_singleton.mp member)

/-- A tree with a new node behind the children of a parent. -/
def addChild (tree : Tree) (parent : NodeId) (payload : Payload) : Tree :=
  (tree.alloc payload).1.appendChild parent tree.size

theorem Linked.addChild (linked : tree.Linked) (allocated : parent < tree.size)
    (payload : Payload) : (tree.addChild parent payload).Linked := by
  have insertable := linked.insertable_alloc payload allocated
  exact (linked.alloc payload).insertRun insertable List.length

section InsertRun

variable {place : List NodeId → Nat}

theorem Leaves.children_insertRun (leaves : tree.Leaves run) (linked : tree.Linked)
    (insertable : tree.Insertable parent run) (other : NodeId) :
    (tree.insertRun parent run place).children other =
      if other = parent then
        (tree.children parent).take (place (tree.children parent)) ++ run ++
          (tree.children parent).drop (place (tree.children parent))
      else tree.children other := by
  rw [linked.consistent.children_insertRun insertable.parent_lt,
    linked.filter_children_eq leaves.detached,
    linked.filter_children_eq leaves.detached]

/-- A run has entered the children of a parent, and nothing else happened. -/
structure Entered (before after : Tree) (parent : NodeId) (run : List NodeId) : Prop where
  linked : after.Linked
  size_eq : after.size = before.size
  payload?_eq : ∀ id, after.payload? id = before.payload? id
  parent_eq : ∀ id, after.parent id = if id ∈ run then some parent else before.parent id
  children_of_ne : ∀ id, id ≠ parent → after.children id = before.children id

theorem Leaves.entered_insertRun (leaves : tree.Leaves run) (linked : tree.Linked)
    (insertable : tree.Insertable parent run) (place : List NodeId → Nat) :
    Entered tree (tree.insertRun parent run place) parent run where
  linked := linked.insertRun insertable place
  size_eq := size_insertRun
  payload?_eq := payload?_insertRun
  parent_eq := linked.parent_insertRun insertable
  children_of_ne id different := by
    rw [leaves.children_insertRun linked insertable, if_neg different]

end InsertRun

/-! ## The empty body -/

theorem withBody_eq :
    withBody =
      (⟨#[⟨.document, none, [1], none, none⟩,
          ⟨.element (.ofTag "body"), some 0, [], none, none⟩]⟩, 1) := rfl

theorem linked_withBody : withBody.1.Linked := by
  have insertable : (empty.alloc (.element (.ofTag "body"))).1.Insertable root [1] :=
    linked_empty.insertable_alloc _ (by decide)
  exact (linked_empty.alloc _).insertRun insertable List.length

end SelectorTree.Tree
