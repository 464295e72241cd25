import Mathlib.Data.List.Flatten
import SelectorTree.Proofs.Tree.Detaching
import SelectorTree.Proofs.Tree.Walks

/-!
# Pruned trees

Cutting nodes off a tree takes them from their lists and leaves all other links.
What is below them stays below them, so the descendants of a node lose whole
subtrees and keep their order.
-/

namespace SelectorTree.Tree

/-- Some nodes have been cut off, each with everything below it. -/
structure Pruned (before : Tree) (cut : NodeId → Prop) [DecidablePred cut] (after : Tree) :
    Prop where
  linked : after.Linked
  size_eq : after.size = before.size
  parent_eq : ∀ id, after.parent id = if cut id then none else before.parent id
  children_eq : ∀ id, after.children id = (before.children id).filter fun child => ¬cut child

namespace Pruned

variable {before after : Tree} {cut cut' : NodeId → Prop} [DecidablePred cut]
  [DecidablePred cut'] {top parent id : NodeId}

theorem refl (linked : before.Linked) (none : ∀ id, ¬cut id) : before.Pruned cut before where
  linked := linked
  size_eq := rfl
  parent_eq id := by rw [if_neg (none id)]
  children_eq id := by simp [none]

theorem congr (pruned : before.Pruned cut after) (same : ∀ id, cut' id ↔ cut id) :
    before.Pruned cut' after where
  linked := pruned.linked
  size_eq := pruned.size_eq
  parent_eq id := by simp only [pruned.parent_eq, same]
  children_eq id := by simp only [pruned.children_eq, same]

theorem setElement (pruned : before.Pruned cut after) (id : NodeId) (data : Element) :
    before.Pruned cut (after.setElement id data) where
  linked := pruned.linked.setElement id data
  size_eq := (size_setElement after id data).trans pruned.size_eq
  parent_eq other := (parent_setElement after id other data).trans (pruned.parent_eq other)
  children_eq other := (children_setElement after id other data).trans (pruned.children_eq other)

/-- One more node is cut off. -/
theorem removeChild (pruned : before.Pruned cut after) (attached : after.parent id = some parent)
    (more : ∀ other, cut' other ↔ cut other ∨ other = id) :
    before.Pruned cut' (after.removeChild parent id) := by
  have detached : after.removeChild parent id = after.detach id := by
    rw [detach, attached]
  rw [detached]
  refine ⟨pruned.linked.detach id, (size_detach id).trans pruned.size_eq, ?_, ?_⟩
  · intro other
    rw [pruned.linked.parent_detach, pruned.parent_eq]
    by_cases same : other = id <;> simp [more, same]
  · intro other
    rw [pruned.linked.consistent.children_detach,
      (pruned.linked.nodup_children other).erase_eq_filter, pruned.children_eq,
      List.filter_filter]
    refine List.filter_congr fun child _ => ?_
    by_cases same : child = id <;> simp [more, same]

theorem isParent_iff (pruned : before.Pruned cut after) :
    after.IsParent parent id ↔ before.IsParent parent id ∧ ¬cut id := by
  rw [IsParent, pruned.parent_eq]
  by_cases gone : cut id <;> simp [gone, IsParent]

/-- A node stays below another one exactly if nothing on the way has been cut off. -/
theorem below_iff (pruned : before.Pruned cut after) (linked : before.Linked) :
    after.Below top id ↔ before.Below top id ∧
      ∀ middle, before.Below top middle → before.Within middle id → ¬cut middle := by
  constructor
  · intro below
    induction below with
    | single attached =>
        obtain ⟨above, kept⟩ := pruned.isParent_iff.mp attached
        refine ⟨.single above, fun middle lower within => ?_⟩
        rcases Relation.ReflTransGen.cases_tail within with rfl | ⟨parent, higher, attached⟩
        · exact kept
        · cases above.symm.trans attached
          exact absurd (lower.trans_left higher) (linked.not_below_self top)
    | tail _ attached ih =>
        obtain ⟨above, kept⟩ := pruned.isParent_iff.mp attached
        refine ⟨.tail ih.1 above, fun middle lower within => ?_⟩
        rcases Relation.ReflTransGen.cases_tail within with rfl | ⟨parent, higher, attached⟩
        · exact kept
        · cases above.symm.trans attached
          exact ih.2 middle lower higher
  · rintro ⟨below, spared⟩
    induction below with
    | single attached =>
        exact .single (pruned.isParent_iff.mpr ⟨attached, spared _ (.single attached) .refl⟩)
    | tail reached attached ih =>
        refine .tail (ih fun middle lower above => spared middle lower (above.tail attached)) ?_
        exact pruned.isParent_iff.mpr ⟨attached, spared _ (.tail reached attached) .refl⟩

/-- The walk down leaves nodes out, by induction on its depth. -/
theorem descendantsWithin_sublist (pruned : before.Pruned cut after) (depth : Nat)
    (top : NodeId) :
    (after.descendantsWithin depth top).Sublist (before.descendantsWithin depth top) := by
  induction depth generalizing top with
  | zero => exact .slnil
  | succ depth ih =>
      rw [descendantsWithin, descendantsWithin, pruned.children_eq]
      refine (List.filter_sublist.flatMap _).trans ?_
      apply List.Sublist.flatMap_right
      intro child _
      exact (ih child).cons_cons child

open scoped Classical in
/-- The descendants that a node keeps are in their old order. -/
theorem descendants_eq (pruned : before.Pruned cut after) (linked : before.Linked)
    (top : NodeId) :
    after.descendants top = (before.descendants top).filter (after.Below top) := by
  have fewer : (after.descendants top).Sublist (before.descendants top) := by
    rw [descendants, pruned.size_eq]
    exact pruned.descendantsWithin_sublist before.size top
  have remaining : (after.descendants top).filter (after.Below top) = after.descendants top := by
    refine List.filter_eq_self.mpr fun id met => ?_
    exact decide_eq_true ((mem_descendants_iff pruned.linked).mp met)
  have filtered := fewer.filter fun id => decide (after.Below top id)
  rw [remaining] at filtered
  apply filtered.eq_of_length
  apply List.Perm.length_eq
  rw [List.perm_ext_iff_of_nodup (nodup_descendants pruned.linked top)
    ((nodup_descendants linked top).filter _)]
  intro id
  rw [mem_descendants_iff pruned.linked, List.mem_filter, mem_descendants_iff linked,
    decide_eq_true_iff]
  exact ⟨fun below => ⟨((pruned.below_iff linked).mp below).1, below⟩, fun both => both.2⟩

end Pruned

end SelectorTree.Tree
