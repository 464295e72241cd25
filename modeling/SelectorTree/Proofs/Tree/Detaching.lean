import SelectorTree.Proofs.Tree.Links

/-!
# Detaching nodes

Removing a child closes the gap between its neighbours.  In a linked tree the
child leaves the only list that it is on, and all other edges stay; hence a run
of nodes can be taken out of the lists one after the other.
-/

namespace SelectorTree.Tree

section RemoveChild

variable (tree : Tree) (parent child : NodeId)

@[simp] theorem size_removeChild : (tree.removeChild parent child).size = tree.size := by
  rw [removeChild]
  split <;> simp

@[simp] theorem payload?_removeChild (id : NodeId) :
    (tree.removeChild parent child).payload? id = tree.payload? id := by
  rw [removeChild]
  split
  · rw [payload?_setPrevious, payload?_setNext, payload?_update, payload?_update] <;>
      exact fun _ => rfl
  · rfl

theorem children_removeChild (id : NodeId) :
    (tree.removeChild parent child).children id =
      if id = parent then (tree.children id).erase child else tree.children id := by
  rw [removeChild]
  split
  · next listed =>
      obtain ⟨node, found⟩ :=
        Option.isSome_iff_exists.mp (lt_size_iff.mp (lt_size_of_mem_children listed))
      rw [children_setPrevious, children_setNext, children_update]
      · by_cases same : id = parent
        · subst same
          simp [children, get?_update, found]
        · simp [children, get?_update, same, Ne.symm same]
      · exact fun _ => rfl
  · next unlisted =>
      split
      · next same => rw [same, List.erase_of_not_mem unlisted]
      · rfl

variable {tree parent child}

theorem parent_removeChild (listed : child ∈ tree.children parent) (id : NodeId) :
    (tree.removeChild parent child).parent id =
      if id = child then none else tree.parent id := by
  rw [removeChild, if_pos listed]
  simp only [parent_setPrevious, parent_setNext]
  by_cases same : id = child
  · subst same
    rw [if_pos rfl, Tree.parent, get?_update, if_pos rfl]
    cases (tree.update parent _).get? id <;> rfl
  · rw [if_neg same, Tree.parent, get?_update, if_neg (Ne.symm same), ← Tree.parent,
      parent_update]
    exact fun _ => rfl

theorem next_removeChild_of_ne (listed : child ∈ tree.children parent) {id : NodeId}
    (other : id ≠ child) (apart : tree.previous child ≠ some id) :
    (tree.removeChild parent child).next id = tree.next id := by
  rw [removeChild, if_pos listed, next_setPrevious, next_setNext_of_ne _ _ apart, next,
    get?_update, if_neg (Ne.symm other), ← next, next_update]
  exact fun _ => rfl

theorem next_removeChild_before (listed : child ∈ tree.children parent) {id : NodeId}
    (allocated : id < tree.size) (before : tree.previous child = some id) :
    (tree.removeChild parent child).next id = tree.next child := by
  rw [removeChild, if_pos listed, next_setPrevious, before]
  exact next_setNext_self _ _ (by simpa using allocated)

theorem next_removeChild_child (listed : child ∈ tree.children parent)
    (apart : tree.previous child ≠ some child) :
    (tree.removeChild parent child).next child = none := by
  rw [removeChild, if_pos listed, next_setPrevious, next_setNext_of_ne _ _ apart, next,
    get?_update, if_pos rfl]
  cases (tree.update parent _).get? child <;> rfl

theorem previous_removeChild_of_ne (listed : child ∈ tree.children parent) {id : NodeId}
    (other : id ≠ child) (apart : tree.next child ≠ some id) :
    (tree.removeChild parent child).previous id = tree.previous id := by
  rw [removeChild, if_pos listed, previous_setPrevious_of_ne _ _ apart, previous_setNext,
    previous, get?_update, if_neg (Ne.symm other), ← previous, previous_update]
  exact fun _ => rfl

theorem previous_removeChild_behind (listed : child ∈ tree.children parent) {id : NodeId}
    (allocated : id < tree.size) (behind : tree.next child = some id) :
    (tree.removeChild parent child).previous id = tree.previous child := by
  rw [removeChild, if_pos listed, behind]
  exact previous_setPrevious_self _ _ (by simpa using allocated)

theorem previous_removeChild_child (listed : child ∈ tree.children parent)
    (apart : tree.next child ≠ some child) :
    (tree.removeChild parent child).previous child = none := by
  rw [removeChild, if_pos listed, previous_setPrevious_of_ne _ _ apart, previous_setNext,
    previous, get?_update, if_pos rfl]
  cases (tree.update parent _).get? child <;> rfl

end RemoveChild

namespace Consistent

variable {tree : Tree} {parent child : NodeId}

private theorem mem_children_removeChild_iff (consistent : tree.Consistent)
    (listed : child ∈ tree.children parent) {top id : NodeId} :
    id ∈ (tree.removeChild parent child).children top ↔
      (tree.removeChild parent child).parent id = some top := by
  rw [children_removeChild, parent_removeChild listed]
  by_cases same : id = child
  · subst same
    have notThere : id ∉ (tree.children parent).erase id :=
      (consistent.nodup_children parent).not_mem_erase
    have onlyParent : top ≠ parent → id ∉ tree.children top :=
      fun different member => different (consistent.parent_unique member listed)
    by_cases atParent : top = parent
    · subst atParent
      simp [notThere]
    · simp [atParent, onlyParent atParent]
  · rw [if_neg same, ← consistent.mem_children_iff]
    split
    · rw [List.mem_erase_of_ne same]
    · rfl

theorem removeChild (consistent : tree.Consistent) (parent child : NodeId) :
    (tree.removeChild parent child).Consistent := by
  by_cases listed : child ∈ tree.children parent
  · refine ⟨consistent.mem_children_removeChild_iff listed, ?_⟩
    intro top
    rw [children_removeChild]
    split
    · exact (consistent.nodup_children top).erase child
    · exact consistent.nodup_children top
  · rw [Tree.removeChild, if_neg listed]
    exact consistent

end Consistent

namespace Linked

variable {tree : Tree} {parent child : NodeId}

/-- Neighbours of a child are children of the same node, and not the child. -/
theorem of_previous (linked : tree.Linked) (attached : tree.parent child = some parent)
    {id : NodeId} (before : tree.previous child = some id) :
    tree.parent id = some parent ∧ id ≠ child := by
  obtain ⟨front, back, split⟩ := List.append_of_mem (linked.mem_children attached)
  have distinct := linked.nodup_children parent
  rw [(linked.neighbours split).1] at before
  rw [split] at distinct
  have member : id ∈ front := List.mem_of_getLast? before
  refine ⟨linked.parent_of_mem (by simp [split, member]), ?_⟩
  rintro rfl
  exact (List.nodup_append.mp distinct).2.2 id member id List.mem_cons_self rfl

theorem of_next (linked : tree.Linked) (attached : tree.parent child = some parent)
    {id : NodeId} (behind : tree.next child = some id) :
    tree.parent id = some parent ∧ id ≠ child := by
  obtain ⟨front, back, split⟩ := List.append_of_mem (linked.mem_children attached)
  have distinct := linked.nodup_children parent
  rw [(linked.neighbours split).2] at behind
  rw [split] at distinct
  have member : id ∈ back := List.mem_of_mem_head? behind
  refine ⟨linked.parent_of_mem (by simp [split, member]), ?_⟩
  rintro rfl
  exact (List.nodup_cons.mp (List.nodup_append.mp distinct).2.1).1 member

private theorem adjacent_removeChild_parent (linked : tree.Linked)
    (listed : child ∈ tree.children parent) :
    Adjacent (tree.removeChild parent child).previous (tree.removeChild parent child).next
      none none ((tree.removeChild parent child).children parent) := by
  obtain ⟨front, back, split⟩ := List.append_of_mem listed
  obtain ⟨previousChild, nextChild⟩ := linked.neighbours split
  have distinct := linked.nodup_children parent
  have links := linked.adjacent parent
  have allocated : ∀ id ∈ front ++ child :: back, id < tree.size := by
    intro id member
    exact linked.lt_size_of_mem (split ▸ member)
  rw [split] at distinct links
  obtain ⟨frontDistinct, restDistinct, apart⟩ := List.nodup_append.mp distinct
  obtain ⟨notInBack, backDistinct⟩ := List.nodup_cons.mp restDistinct
  have notInFront : child ∉ front := fun member =>
    apart child member child List.mem_cons_self rfl
  have closed : (tree.children parent).erase child = front ++ back := by
    rw [split, List.erase_append_right _ notInFront, List.erase_cons_head]
  rw [children_removeChild, if_pos rfl, closed]
  obtain ⟨linksFront, -, -, linksBack⟩ := Adjacent.append_iff.mp links
  refine Adjacent.append_iff.mpr ⟨?_, ?_⟩
  · have samePrevious : ∀ id ∈ front,
        (tree.removeChild parent child).previous id = tree.previous id := by
      intro id member
      refine previous_removeChild_of_ne listed (fun same => notInFront (same ▸ member)) ?_
      intro behind
      rw [nextChild] at behind
      exact apart id member id
        (List.mem_cons_of_mem child (List.mem_of_mem_head? behind)) rfl
    refine (linksFront.congr samePrevious fun _ _ => rfl).change_behind frontDistinct ?_ ?_
    · intro id last
      have member := List.mem_of_getLast? last
      rw [next_removeChild_before listed (allocated id (by simp [member]))
        (previousChild.trans last), nextChild, Option.or_none]
    · intro id member notLast
      refine next_removeChild_of_ne listed (fun same => notInFront (same ▸ member)) ?_
      rw [previousChild]
      exact notLast
  · have sameNext : ∀ id ∈ back,
        (tree.removeChild parent child).next id = tree.next id := by
      intro id member
      refine next_removeChild_of_ne listed (fun same => notInBack (same ▸ member)) ?_
      intro before
      rw [previousChild] at before
      exact apart id (List.mem_of_getLast? before) id (List.mem_cons_of_mem child member) rfl
    refine (linksBack.congr (fun _ _ => rfl) sameNext).change_before backDistinct ?_ ?_
    · intro id first
      have member := List.mem_of_mem_head? first
      rw [previous_removeChild_behind listed (allocated id (by simp [member]))
        (nextChild.trans first), previousChild, Option.or_none]
    · intro id member notFirst
      refine previous_removeChild_of_ne listed (fun same => notInBack (same ▸ member)) ?_
      rw [nextChild]
      exact notFirst

private theorem adjacent_removeChild_other (linked : tree.Linked)
    (listed : child ∈ tree.children parent) {other : NodeId} (different : other ≠ parent) :
    Adjacent (tree.removeChild parent child).previous (tree.removeChild parent child).next
      none none ((tree.removeChild parent child).children other) := by
  have attached := linked.parent_of_mem listed
  have elsewhere : ∀ {id}, tree.parent id = some parent → id ∉ tree.children other :=
    fun here member => different (linked.parent_unique member (linked.mem_children here))
  rw [children_removeChild, if_neg different]
  refine (linked.adjacent other).congr ?_ ?_
  · intro id member
    refine previous_removeChild_of_ne listed ?_ ?_
    · rintro rfl
      exact elsewhere attached member
    · intro behind
      exact elsewhere (linked.of_next attached behind).1 member
  · intro id member
    refine next_removeChild_of_ne listed ?_ ?_
    · rintro rfl
      exact elsewhere attached member
    · intro before
      exact elsewhere (linked.of_previous attached before).1 member

private theorem alone_removeChild (linked : tree.Linked) (listed : child ∈ tree.children parent)
    {id : NodeId} (detached : (tree.removeChild parent child).parent id = none) :
    (tree.removeChild parent child).previous id = none ∧
      (tree.removeChild parent child).next id = none := by
  have attached := linked.parent_of_mem listed
  rw [parent_removeChild listed] at detached
  by_cases same : id = child
  · subst same
    exact ⟨previous_removeChild_child listed fun behind => (linked.of_next attached behind).2 rfl,
      next_removeChild_child listed fun before => (linked.of_previous attached before).2 rfl⟩
  · rw [if_neg same] at detached
    obtain ⟨noPrevious, noNext⟩ := linked.alone detached
    refine ⟨?_, ?_⟩
    · rw [previous_removeChild_of_ne listed same, noPrevious]
      intro behind
      rw [(linked.of_next attached behind).1] at detached
      cases detached
    · rw [next_removeChild_of_ne listed same, noNext]
      intro before
      rw [(linked.of_previous attached before).1] at detached
      cases detached

theorem removeChild (linked : tree.Linked) (parent child : NodeId) :
    (tree.removeChild parent child).Linked := by
  by_cases listed : child ∈ tree.children parent
  · obtain ⟨members, distinct⟩ := linked.consistent.removeChild parent child
    refine ⟨members, distinct, ?_, linked.alone_removeChild listed, ?_⟩
    · intro top
      by_cases same : top = parent
      · subst same
        exact adjacent_iff_neighbours.mp (adjacent_removeChild_parent linked listed)
      · exact adjacent_iff_neighbours.mp (adjacent_removeChild_other linked listed same)
    · refine Subrelation.wf ?_ linked.acyclic
      intro top id above
      rw [IsParent, parent_removeChild listed] at above
      split at above
      · cases above
      · exact above
  · rw [Tree.removeChild, if_neg listed]
    exact linked

end Linked

/-! ## Runs of nodes -/

section Detach

variable {tree : Tree}

@[simp] theorem size_detach (id : NodeId) : (tree.detach id).size = tree.size := by
  rw [detach]
  split <;> simp

@[simp] theorem payload?_detach (id other : NodeId) :
    (tree.detach id).payload? other = tree.payload? other := by
  rw [detach]
  split <;> simp

theorem Consistent.detach (consistent : tree.Consistent) (id : NodeId) :
    (tree.detach id).Consistent := by
  rw [Tree.detach]
  split
  · exact consistent
  · exact consistent.removeChild _ id

theorem Consistent.children_detach (consistent : tree.Consistent) (id other : NodeId) :
    (tree.detach id).children other = (tree.children other).erase id := by
  have unlisted : tree.parent id ≠ some other → id ∉ tree.children other := by
    intro elsewhere member
    exact elsewhere (consistent.parent_of_mem member)
  rw [Tree.detach]
  split
  · next detached =>
      rw [List.erase_of_not_mem (unlisted (by simp [detached]))]
  · next parent attached =>
      rw [children_removeChild]
      split
      · rfl
      · next different =>
          rw [List.erase_of_not_mem]
          refine unlisted ?_
          rw [attached]
          exact fun same => different (Option.some.inj same).symm

theorem Linked.detach (linked : tree.Linked) (id : NodeId) : (tree.detach id).Linked := by
  rw [Tree.detach]
  split
  · exact linked
  · exact linked.removeChild _ id

theorem Linked.parent_detach (linked : tree.Linked) (id other : NodeId) :
    (tree.detach id).parent other = if other = id then none else tree.parent other := by
  rw [Tree.detach]
  split
  · next detached =>
      split
      · next same => rw [same, detached]
      · rfl
  · next parent attached => exact parent_removeChild (linked.mem_children attached) other

@[simp] theorem size_detachAll (run : List NodeId) : (tree.detachAll run).size = tree.size := by
  induction run generalizing tree with
  | nil => rfl
  | cons id rest ih =>
      rw [detachAll, List.foldl_cons, ← detachAll, ih, size_detach]

@[simp] theorem payload?_detachAll (run : List NodeId) (other : NodeId) :
    (tree.detachAll run).payload? other = tree.payload? other := by
  induction run generalizing tree with
  | nil => rfl
  | cons id rest ih =>
      rw [detachAll, List.foldl_cons, ← detachAll, ih, payload?_detach]

theorem Linked.detachAll (linked : tree.Linked) (run : List NodeId) :
    (tree.detachAll run).Linked := by
  induction run generalizing tree with
  | nil => exact linked
  | cons id rest ih => exact ih (linked.detach id)

theorem Consistent.children_detachAll (consistent : tree.Consistent) (run : List NodeId)
    (other : NodeId) :
    (tree.detachAll run).children other = (tree.children other).filter (· ∉ run) := by
  induction run generalizing tree with
  | nil => simp [Tree.detachAll]
  | cons id rest ih =>
      rw [Tree.detachAll, List.foldl_cons, ← Tree.detachAll, ih (consistent.detach id),
        consistent.children_detach, (consistent.nodup_children other).erase_eq_filter,
        List.filter_filter]
      refine List.filter_congr fun child _ => ?_
      by_cases same : child = id <;> simp [same]

theorem Linked.parent_detachAll (linked : tree.Linked) (run : List NodeId) (other : NodeId) :
    (tree.detachAll run).parent other = if other ∈ run then none else tree.parent other := by
  induction run generalizing tree with
  | nil => simp [Tree.detachAll]
  | cons id rest ih =>
      rw [Tree.detachAll, List.foldl_cons, ← Tree.detachAll, ih (linked.detach id),
        linked.parent_detach]
      by_cases same : other = id <;> by_cases member : other ∈ rest <;> simp [same, member]

/-- Detached nodes leave no list. -/
theorem Linked.filter_children_eq (linked : tree.Linked) {run : List NodeId}
    (detached : ∀ id ∈ run, tree.parent id = none) (other : NodeId) :
    (tree.children other).filter (· ∉ run) = tree.children other := by
  refine List.filter_eq_self.mpr fun child listed => ?_
  exact decide_eq_true fun member => linked.not_mem_of_detached (detached child member) other listed

end Detach

end SelectorTree.Tree
