import SelectorTree.Proofs.Tree.Descendants

/-!
# Walks up and back

Parent links lead from a node to exactly the nodes above it, and sibling links
lead back to exactly the nodes before it on its parent's list of children.
Both walks are given as many steps as the tree has nodes, and neither needs more.
-/

namespace SelectorTree.Tree

variable {tree : Tree} {top parent id left right : NodeId} {limit : Nat}

/-! ## Up -/

theorem below_of_mem_follow (met : top ∈ follow tree.parent limit (tree.parent id)) :
    tree.Below top id := by
  induction limit generalizing id with
  | zero => cases met
  | succ limit ih =>
      cases attached : tree.parent id with
      | none =>
          rw [attached] at met
          cases met
      | some parent =>
          rw [attached, follow] at met
          rcases List.mem_cons.mp met with rfl | higher
          · exact .single attached
          · exact .tail (ih higher) attached

open scoped Classical in
/-- The nodes above another one. -/
noncomputable def lineage (tree : Tree) (id : NodeId) : Finset NodeId :=
  (Finset.range tree.size).filter (tree.Below · id)

theorem mem_lineage (linked : tree.Linked) : top ∈ tree.lineage id ↔ tree.Below top id := by
  classical
  rw [lineage, Finset.mem_filter, Finset.mem_range]
  constructor
  · exact fun member => member.2
  · intro below
    obtain ⟨child, attached, _⟩ := Relation.TransGen.head'_iff.mp below
    exact ⟨linked.parent_lt_size attached, below⟩

theorem card_lineage_le (tree : Tree) (id : NodeId) : (tree.lineage id).card ≤ tree.size := by
  classical
  calc
    (tree.lineage id).card ≤ (Finset.range tree.size).card := Finset.card_filter_le _ _
    _ = tree.size := Finset.card_range tree.size

theorem card_lineage_lt (linked : tree.Linked) (attached : tree.IsParent parent id) :
    (tree.lineage parent).card < (tree.lineage id).card := by
  apply Finset.card_lt_card
  rw [Finset.ssubset_iff_of_subset]
  · refine ⟨parent, (mem_lineage linked).mpr (.single attached), fun member => ?_⟩
    exact linked.not_below_self parent ((mem_lineage linked).mp member)
  · intro top member
    exact (mem_lineage linked).mpr (.tail ((mem_lineage linked).mp member) attached)

theorem mem_follow_parent (linked : tree.Linked) (below : tree.Below top id)
    (enough : (tree.lineage id).card ≤ limit) :
    top ∈ follow tree.parent limit (tree.parent id) := by
  induction limit generalizing id with
  | zero =>
      have nothing := Finset.card_eq_zero.mp (Nat.le_zero.mp enough)
      have member := (mem_lineage linked).mpr below
      rw [nothing] at member
      cases member
  | succ limit ih =>
      obtain ⟨parent, reached, attached⟩ := Relation.TransGen.tail'_iff.mp below
      rw [show tree.parent id = some parent from attached, follow]
      rcases Relation.reflTransGen_iff_eq_or_transGen.mp reached with rfl | higher
      · exact List.mem_cons_self
      · have fewer := card_lineage_lt linked attached
        exact List.mem_cons_of_mem parent (ih higher (by omega))

/-- The ancestors of a node are the nodes above it. -/
theorem mem_ancestors_iff (linked : tree.Linked) : top ∈ tree.ancestors id ↔ tree.Below top id := by
  constructor
  · exact below_of_mem_follow
  · exact fun below => mem_follow_parent linked below (tree.card_lineage_le id)

theorem isDescendantOf_iff (linked : tree.Linked) :
    tree.isDescendantOf id top = true ↔ tree.Below top id := by
  rw [isDescendantOf, List.contains_iff_mem]
  exact mem_ancestors_iff linked

/-! ## Back -/

theorem Linked.length_children_le (linked : tree.Linked) (parent : NodeId) :
    (tree.children parent).length ≤ tree.size := by
  have within : tree.children parent ⊆ List.range tree.size :=
    fun _ listed => List.mem_range.mpr (linked.lt_size_of_mem listed)
  calc
    (tree.children parent).length ≤ (List.range tree.size).length :=
      (List.subperm_of_subset (linked.nodup_children parent) within).length_le
    _ = tree.size := List.length_range

/-- A node has one place on one list of children. -/
theorem Linked.split_unique (linked : tree.Linked) {other : NodeId}
    {front back front' back' : List NodeId}
    (split : tree.children parent = front ++ id :: back)
    (split' : tree.children other = front' ++ id :: back') :
    parent = other ∧ front = front' ∧ back = back' := by
  have listed : id ∈ tree.children parent := by simp [split]
  have same : parent = other := linked.parent_unique listed (by simp [split'])
  subst same
  have distinct := linked.nodup_children parent
  rw [split, List.nodup_middle, List.nodup_cons, List.mem_append] at distinct
  have away : id ∉ front := fun member => distinct.1 (.inl member)
  have away' : id ∉ back := fun member => distinct.1 (.inr member)
  have equal := split.symm.trans split'
  rw [List.append_cons_inj_of_notMem away away'] at equal
  exact ⟨rfl, equal.1, equal.2.2⟩

/-- The walk back from the last node of a part of the list, by induction on
that part from its end. -/
theorem follow_previous (linked : tree.Linked) {front back : List NodeId}
    (split : tree.children parent = front ++ back) (enough : front.length ≤ limit) :
    follow tree.previous limit front.getLast? = front.reverse := by
  induction front using List.reverseRecOn generalizing back limit with
  | nil => cases limit <;> rfl
  | append_singleton front id ih =>
      obtain _ | limit := limit
      · simp at enough
      have behind : tree.children parent = front ++ id :: back := by simpa using split
      have before := (linked.neighbours behind).1
      have rest := ih behind (Nat.le_of_succ_le_succ (by simpa using enough))
      rw [List.getLast?_concat, follow, before, rest, List.reverse_append]
      rfl

theorem precedingSiblings_eq (linked : tree.Linked) {front back : List NodeId}
    (split : tree.children parent = front ++ id :: back) :
    tree.precedingSiblings id = front.reverse := by
  have before := (linked.neighbours split).1
  have enough : front.length ≤ tree.size := by
    have bound := linked.length_children_le parent
    rw [split, List.length_append] at bound
    omega
  rw [precedingSiblings, before]
  exact follow_previous linked split enough

/-! ## Places on a list of children -/

/-- Whether a node comes before another one on a list of children. -/
def Precedes (tree : Tree) (left right : NodeId) : Prop :=
  ∃ parent front between back,
    tree.children parent = front ++ left :: (between ++ right :: back)

/-- Whether a node is the last element before another one on a list of children. -/
def Adjoins (tree : Tree) (left right : NodeId) : Prop :=
  tree.isElement left = true ∧ ∃ parent front between back,
    tree.children parent = front ++ left :: (between ++ right :: back) ∧
      ∀ other ∈ between, tree.isElement other = false

theorem Adjoins.precedes (adjoins : tree.Adjoins left right) : tree.Precedes left right := by
  obtain ⟨_, parent, front, between, back, split, _⟩ := adjoins
  exact ⟨parent, front, between, back, split⟩

theorem precedes_iff_mem_front (linked : tree.Linked) {front back : List NodeId}
    (split : tree.children parent = front ++ right :: back) :
    tree.Precedes left right ↔ left ∈ front := by
  constructor
  · rintro ⟨other, first, between, last, split'⟩
    have regrouped : tree.children other = (first ++ left :: between) ++ right :: last := by
      simpa using split'
    obtain ⟨_, rfl, _⟩ := linked.split_unique split regrouped
    simp
  · intro member
    obtain ⟨first, between, rfl⟩ := List.append_of_mem member
    exact ⟨parent, first, between, back, by simpa using split⟩

theorem precedes_iff_mem_back (linked : tree.Linked) {front back : List NodeId}
    (split : tree.children parent = front ++ left :: back) :
    tree.Precedes left right ↔ right ∈ back := by
  constructor
  · rintro ⟨other, first, between, last, split'⟩
    obtain ⟨_, _, rfl⟩ := linked.split_unique split split'
    simp
  · intro member
    obtain ⟨between, last, rfl⟩ := List.append_of_mem member
    exact ⟨parent, front, between, last, split⟩

theorem Precedes.ne (precedes : tree.Precedes left right) (linked : tree.Linked) :
    left ≠ right := by
  rintro rfl
  obtain ⟨parent, front, between, back, split⟩ := precedes
  have distinct := linked.nodup_children parent
  rw [split, List.nodup_middle, List.nodup_cons] at distinct
  exact distinct.1 (by simp)

/-- A node without a parent has no sibling before it. -/
theorem precedingSiblings_of_detached (linked : tree.Linked) (detached : tree.parent id = none) :
    tree.precedingSiblings id = [] := by
  rw [precedingSiblings, (linked.alone detached).1]
  cases tree.size <;> rfl

theorem not_precedes_of_detached (linked : tree.Linked) (detached : tree.parent right = none) :
    ¬ tree.Precedes left right := by
  rintro ⟨parent, front, between, back, split⟩
  exact linked.not_mem_of_detached detached parent (by simp [split])

theorem mem_precedingSiblings_iff (linked : tree.Linked) :
    left ∈ tree.precedingSiblings right ↔ tree.Precedes left right := by
  cases attached : tree.parent right with
  | none =>
      rw [precedingSiblings_of_detached linked attached]
      constructor
      · exact fun member => absurd member List.not_mem_nil
      · exact fun before => absurd before (not_precedes_of_detached linked attached)
  | some parent =>
      obtain ⟨front, back, split⟩ := List.append_of_mem (linked.mem_children attached)
      rw [precedingSiblings_eq linked split, precedes_iff_mem_front linked split]
      exact List.mem_reverse

/-- The first element met on the way back is the last one before the start. -/
theorem find?_precedingSiblings_iff (linked : tree.Linked) :
    (tree.precedingSiblings right).find? tree.isElement = some left ↔
      tree.Adjoins left right := by
  cases attached : tree.parent right with
  | none =>
      rw [precedingSiblings_of_detached linked attached]
      constructor
      · exact fun found => absurd found (by simp)
      · exact fun adjoins => absurd adjoins.precedes (not_precedes_of_detached linked attached)
  | some parent =>
      obtain ⟨front, back, split⟩ := List.append_of_mem (linked.mem_children attached)
      rw [precedingSiblings_eq linked split, List.find?_eq_some_iff_append]
      constructor
      · rintro ⟨element, near, far, parts, others⟩
        have turned : front = far.reverse ++ left :: near.reverse := by
          rw [← List.reverse_reverse front, parts]
          simp
        refine ⟨element, parent, far.reverse, near.reverse, back, ?_, ?_⟩
        · simpa [turned] using split
        · intro other member
          simpa using others other (List.mem_reverse.mp member)
      · rintro ⟨element, other, first, between, last, split', others⟩
        have regrouped : tree.children other = (first ++ left :: between) ++ right :: last := by
          simpa using split'
        obtain ⟨_, rfl, _⟩ := linked.split_unique split regrouped
        refine ⟨element, between.reverse, first.reverse, by simp, ?_⟩
        intro other member
        simpa using others other (List.mem_reverse.mp member)

end SelectorTree.Tree
