import Mathlib.Data.Finset.Card
import Mathlib.Data.List.Nodup
import Mathlib.Logic.Relation
import SelectorTree.Proofs.Tree.Links
import SelectorTree.Tree.Traversal

/-!
# Descendants

The walk down the lists of children meets every node below its start, and each
of them once.  It needs no more levels than there are nodes below the start,
since fewer are left with every step down.
-/

namespace SelectorTree.Tree

variable {tree : Tree} {top child id : NodeId} {depth : Nat}

theorem below_of_mem_descendantsWithin (linked : tree.Linked)
    (met : id ∈ tree.descendantsWithin depth top) : tree.Below top id := by
  induction depth generalizing top with
  | zero => cases met
  | succ depth ih =>
      obtain ⟨child, listed, reached⟩ := List.mem_flatMap.mp met
      have attached := linked.parent_of_mem listed
      rcases List.mem_cons.mp reached with rfl | lower
      · exact .single attached
      · exact .head attached (ih lower)

/-! ## How far a walk goes -/

open scoped Classical in
/-- The nodes below another one. -/
noncomputable def subtree (tree : Tree) (top : NodeId) : Finset NodeId :=
  (Finset.range tree.size).filter (tree.Below top)

theorem mem_subtree : id ∈ tree.subtree top ↔ tree.Below top id := by
  classical
  rw [subtree, Finset.mem_filter, Finset.mem_range]
  constructor
  · exact fun member => member.2
  · exact fun below => ⟨lt_size_of_below below, below⟩

theorem card_subtree_le (tree : Tree) (top : NodeId) : (tree.subtree top).card ≤ tree.size := by
  classical
  calc
    (tree.subtree top).card ≤ (Finset.range tree.size).card := Finset.card_filter_le _ _
    _ = tree.size := Finset.card_range tree.size

theorem card_subtree_lt (linked : tree.Linked) (attached : tree.IsParent top child) :
    (tree.subtree child).card < (tree.subtree top).card := by
  apply Finset.card_lt_card
  rw [Finset.ssubset_iff_of_subset]
  · refine ⟨child, mem_subtree.mpr (.single attached), fun member => ?_⟩
    exact linked.not_below_self child (mem_subtree.mp member)
  · intro id member
    exact mem_subtree.mpr (.head attached (mem_subtree.mp member))

theorem mem_descendantsWithin (linked : tree.Linked) (below : tree.Below top id)
    (enough : (tree.subtree top).card ≤ depth) : id ∈ tree.descendantsWithin depth top := by
  induction depth generalizing top with
  | zero =>
      have nothing := Finset.card_eq_zero.mp (Nat.le_zero.mp enough)
      have member := mem_subtree.mpr below
      rw [nothing] at member
      cases member
  | succ depth ih =>
      obtain ⟨child, attached, reached⟩ := Relation.TransGen.head'_iff.mp below
      refine List.mem_flatMap.mpr ⟨child, linked.mem_children attached, ?_⟩
      rcases Relation.reflTransGen_iff_eq_or_transGen.mp reached with rfl | lower
      · exact List.mem_cons_self
      · have fewer := card_subtree_lt linked attached
        exact List.mem_cons_of_mem child (ih lower (by omega))

theorem mem_descendants_iff (linked : tree.Linked) :
    id ∈ tree.descendants top ↔ tree.Below top id := by
  constructor
  · exact below_of_mem_descendantsWithin linked
  · exact fun below => mem_descendantsWithin linked below (tree.card_subtree_le top)

theorem Linked.forall_within_iff (linked : tree.Linked) {holds : NodeId → Prop} :
    (∀ id, tree.Within top id → holds id) ↔ ∀ id ∈ top :: tree.descendants top, holds id := by
  have within : ∀ id, tree.Within top id ↔ id ∈ top :: tree.descendants top := by
    intro id
    rw [List.mem_cons, mem_descendants_iff linked, Within,
      Relation.reflTransGen_iff_eq_or_transGen]
  simp only [within]

/-! ## Every node is met once -/

/-- Of two children of a node, neither is above the other. -/
theorem Linked.eq_of_above_sibling (linked : tree.Linked) {other : NodeId}
    (attached : tree.IsParent top child) (attachedOther : tree.IsParent top other)
    (above : tree.Within child other) : child = other := by
  rcases Relation.reflTransGen_iff_eq_or_transGen.mp above with same | lower
  · exact same.symm
  · obtain ⟨middle, reached, attachedMiddle⟩ := Relation.TransGen.tail'_iff.mp lower
    have atTop : middle = top := Option.some.inj (attachedMiddle.symm.trans attachedOther)
    subst atTop
    exact absurd (.head' attached reached) (linked.not_below_self middle)

/-- A node is reached through one child of a node only. -/
theorem Linked.eq_of_reached (linked : tree.Linked) {other : NodeId}
    (attached : tree.IsParent top child) (attachedOther : tree.IsParent top other)
    (reached : tree.Within child id) (reachedOther : tree.Within other id) : child = other := by
  have upward : Relator.RightUnique (Function.swap tree.IsParent) :=
    fun _ _ _ up also => Option.some.inj (up.symm.trans also)
  rcases (Relation.reflTransGen_swap.mpr reached).total_of_right_unique upward
      (Relation.reflTransGen_swap.mpr reachedOther) with above | above
  · exact (linked.eq_of_above_sibling attachedOther attached
      (Relation.reflTransGen_swap.mp above)).symm
  · exact linked.eq_of_above_sibling attached attachedOther (Relation.reflTransGen_swap.mp above)

/-- No node comes before one that it is below, or twice. -/
theorem pairwise_descendantsWithin (linked : tree.Linked) (depth : Nat) (top : NodeId) :
    (tree.descendantsWithin depth top).Pairwise fun first second => ¬tree.Within second first := by
  induction depth generalizing top with
  | zero => exact .nil
  | succ depth ih =>
      have reached : ∀ {child id : NodeId}, id ∈ child :: tree.descendantsWithin depth child →
          tree.Within child id := by
        intro child id member
        rcases List.mem_cons.mp member with rfl | lower
        · exact .refl
        · exact (below_of_mem_descendantsWithin linked lower).to_reflTransGen
      rw [descendantsWithin, List.pairwise_flatMap]
      constructor
      · intro child _
        refine List.pairwise_cons.mpr ⟨fun id member above => ?_, ih child⟩
        have below := below_of_mem_descendantsWithin linked member
        exact linked.not_below_self child (below.trans_left above)
      · refine (linked.nodup_children top).imp_of_mem ?_
        intro first second listed listedSecond different id member other memberSecond above
        apply different
        exact linked.eq_of_reached (linked.parent_of_mem listed)
          (linked.parent_of_mem listedSecond) (reached member) ((reached memberSecond).trans above)

theorem nodup_descendants (linked : tree.Linked) (top : NodeId) :
    (tree.descendants top).Nodup := by
  refine (pairwise_descendantsWithin linked tree.size top).imp ?_
  rintro first _ apart rfl
  exact apart .refl

/-- The nodes on the way down to a node are met before it. -/
theorem mem_front_of_below (linked : tree.Linked) {middle : NodeId} {front back : List NodeId}
    (split : tree.descendants top = front ++ id :: back) (reached : tree.Below top middle)
    (above : tree.Below middle id) : middle ∈ front := by
  have met : middle ∈ front ++ id :: back := split ▸ (mem_descendants_iff linked).mpr reached
  have order : (front ++ id :: back).Pairwise fun first second => ¬tree.Within second first :=
    split ▸ pairwise_descendantsWithin linked tree.size top
  rcases List.mem_append.mp met with before | rest
  · exact before
  · rcases List.mem_cons.mp rest with rfl | behind
    · exact absurd above (linked.not_below_self middle)
    · have later := (List.pairwise_cons.mp (List.pairwise_append.mp order).2.1).1 middle behind
      exact absurd above.to_reflTransGen later

/-- A node that is met has not been met before. -/
theorem notMem_front_of_split (linked : tree.Linked) {front back : List NodeId}
    (split : tree.descendants top = front ++ id :: back) :
    id ∉ front ∧ tree.Below top id := by
  have distinct := nodup_descendants linked top
  rw [split, List.nodup_middle, List.nodup_cons, List.mem_append] at distinct
  have met : id ∈ tree.descendants top := by simp [split]
  exact ⟨fun member => distinct.1 (.inl member), (mem_descendants_iff linked).mp met⟩

end SelectorTree.Tree
