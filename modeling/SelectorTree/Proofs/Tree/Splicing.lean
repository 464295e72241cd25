import SelectorTree.Proofs.Tree.Detaching

/-!
# Inserting runs of nodes

A run enters a list of children at one place, after its nodes have left their
old places.  The tree stays linked as long as no node goes below itself.
-/

namespace SelectorTree.Tree

/-- The nodes of a run may become children of a parent: they exist, each
occurs once, and the parent is neither among nor below them. -/
structure Insertable (tree : Tree) (parent : NodeId) (run : List NodeId) : Prop where
  parent_lt : parent < tree.size
  lt_size : ∀ id ∈ run, id < tree.size
  nodup : run.Nodup
  parent_not_mem : parent ∉ run
  not_below : ∀ id ∈ run, ¬ tree.Below id parent

/-! ## Linking a run -/

section LinkRun

variable {parent : NodeId} {before behind : Option NodeId} {run : List NodeId} {tree : Tree}

@[simp] theorem size_linkRun : (linkRun parent before behind run tree).size = tree.size := by
  induction run generalizing tree before with
  | nil => rfl
  | cons id rest ih => rw [linkRun, ih, size_update]

@[simp] theorem payload?_linkRun (other : NodeId) :
    (linkRun parent before behind run tree).payload? other = tree.payload? other := by
  induction run generalizing tree before with
  | nil => rfl
  | cons id rest ih =>
      rw [linkRun, ih, payload?_update]
      exact fun _ => rfl

@[simp] theorem children_linkRun (other : NodeId) :
    (linkRun parent before behind run tree).children other = tree.children other := by
  induction run generalizing tree before with
  | nil => rfl
  | cons id rest ih =>
      rw [linkRun, ih, children_update]
      exact fun _ => rfl

/-- Nodes outside the run keep their links. -/
theorem get?_linkRun_of_not_mem {other : NodeId} (outside : other ∉ run) :
    (linkRun parent before behind run tree).get? other = tree.get? other := by
  induction run generalizing tree before with
  | nil => rfl
  | cons id rest ih =>
      have different : other ≠ id := fun same => outside (same ▸ List.mem_cons_self)
      have notInRest : other ∉ rest := fun member => outside (List.mem_cons_of_mem id member)
      rw [linkRun, ih notInRest, get?_update, if_neg (Ne.symm different)]

theorem parent_linkRun (allocated : ∀ id ∈ run, id < tree.size) (other : NodeId) :
    (linkRun parent before behind run tree).parent other =
      if other ∈ run then some parent else tree.parent other := by
  induction run generalizing tree before with
  | nil => simp [linkRun]
  | cons id rest ih =>
      rw [linkRun, ih (fun later member => by simpa using allocated later (by simp [member]))]
      by_cases inRest : other ∈ rest
      · simp [inRest]
      · by_cases same : other = id
        · subst same
          obtain ⟨node, found⟩ := Option.isSome_iff_exists.mp
            (lt_size_iff.mp (allocated other List.mem_cons_self))
          simp [inRest, Tree.parent, get?_update, found]
        · simp [inRest, same, Tree.parent, get?_update, Ne.symm same]

theorem adjacent_linkRun (distinct : run.Nodup) (allocated : ∀ id ∈ run, id < tree.size) :
    Adjacent (linkRun parent before behind run tree).previous
      (linkRun parent before behind run tree).next before behind run := by
  induction run generalizing tree before with
  | nil => trivial
  | cons id rest ih =>
      obtain ⟨fresh, restDistinct⟩ := List.nodup_cons.mp distinct
      obtain ⟨node, found⟩ := Option.isSome_iff_exists.mp
        (lt_size_iff.mp (allocated id List.mem_cons_self))
      refine ⟨?_, ?_, ?_⟩
      · rw [linkRun, previous, get?_linkRun_of_not_mem fresh]
        simp [get?_update, found]
      · rw [linkRun, next, get?_linkRun_of_not_mem fresh]
        simp [get?_update, found]
      · exact ih restDistinct fun later member => by simpa using allocated later (by simp [member])

end LinkRun

/-! ## Splicing a run -/

section Splice

variable {tree : Tree} {parent : NodeId} {run : List NodeId} {index : Nat}

@[simp] theorem size_splice : (tree.splice parent run index).size = tree.size := by
  rw [splice]
  split <;> simp

@[simp] theorem payload?_splice (other : NodeId) :
    (tree.splice parent run index).payload? other = tree.payload? other := by
  rw [splice]
  split
  · rfl
  · rw [payload?_setPrevious, payload?_setNext, payload?_linkRun, payload?_update]
    exact fun _ => rfl

theorem children_splice (allocated : parent < tree.size) (other : NodeId) :
    (tree.splice parent run index).children other =
      if other = parent then
        (tree.children parent).take index ++ run ++ (tree.children parent).drop index
      else tree.children other := by
  obtain ⟨node, found⟩ := Option.isSome_iff_exists.mp (lt_size_iff.mp allocated)
  rw [splice]
  split
  · next empty =>
      subst empty
      split
      · next same => simp [same]
      · rfl
  · simp only [children_setPrevious, children_setNext, children_linkRun]
    by_cases same : other = parent
    · subst same
      simp [children, get?_update, found]
    · simp [children, get?_update, same, Ne.symm same]

theorem parent_splice (allocated : ∀ id ∈ run, id < tree.size) (other : NodeId) :
    (tree.splice parent run index).parent other =
      if other ∈ run then some parent else tree.parent other := by
  rw [splice]
  split
  · next empty => simp [empty]
  · rw [parent_setPrevious, parent_setNext, parent_linkRun (by simpa using allocated),
      parent_update]
    exact fun _ => rfl

theorem next_splice_of_ne {other : NodeId} (outside : other ∉ run)
    (apart : ((tree.children parent).take index).getLast? ≠ some other) :
    (tree.splice parent run index).next other = tree.next other := by
  rw [splice]
  split
  · rfl
  · rw [next_setPrevious, next_setNext_of_ne _ _ apart, next, get?_linkRun_of_not_mem outside,
      ← next, next_update]
    exact fun _ => rfl

theorem next_splice_before {other : NodeId} (nonempty : run ≠ []) (allocated : other < tree.size)
    (before : ((tree.children parent).take index).getLast? = some other) :
    (tree.splice parent run index).next other = run.head? := by
  simp only [splice, if_neg nonempty, next_setPrevious, before]
  exact next_setNext_self _ _ (by simpa using allocated)

theorem previous_splice_of_ne {other : NodeId} (outside : other ∉ run)
    (apart : ((tree.children parent).drop index).head? ≠ some other) :
    (tree.splice parent run index).previous other = tree.previous other := by
  rw [splice]
  split
  · rfl
  · rw [previous_setPrevious_of_ne _ _ apart, previous_setNext, previous,
      get?_linkRun_of_not_mem outside, ← previous, previous_update]
    exact fun _ => rfl

theorem previous_splice_behind {other : NodeId} (nonempty : run ≠ [])
    (allocated : other < tree.size)
    (behind : ((tree.children parent).drop index).head? = some other) :
    (tree.splice parent run index).previous other = run.getLast? := by
  simp only [splice, if_neg nonempty, behind]
  exact previous_setPrevious_self _ _ (by simpa using allocated)

/-- Inside the run the links are those of the run. -/
theorem adjacent_splice_run (index : Nat) (nonempty : run ≠ []) (distinct : run.Nodup)
    (allocated : ∀ id ∈ run, id < tree.size)
    (elsewhere : ∀ id ∈ run, id ∉ tree.children parent) :
    Adjacent (tree.splice parent run index).previous (tree.splice parent run index).next
      ((tree.children parent).take index).getLast? ((tree.children parent).drop index).head?
      run := by
  simp only [splice, if_neg nonempty]
  generalize listedEq : tree.update parent _ = listed
  have stillAllocated : ∀ id ∈ run, id < listed.size := by simpa [← listedEq] using allocated
  refine (@adjacent_linkRun parent _ _ run listed distinct stillAllocated).congr ?_ ?_
  · intro id member
    rw [previous_setPrevious_of_ne, previous_setNext]
    intro first
    exact elsewhere id member (List.mem_of_mem_drop (List.mem_of_mem_head? first))
  · intro id member
    rw [next_setPrevious, next_setNext_of_ne]
    intro last
    exact elsewhere id member (List.mem_of_mem_take (List.mem_of_getLast? last))

end Splice

namespace Linked

variable {tree : Tree} {parent : NodeId} {run : List NodeId} {index : Nat}

private theorem adjacent_splice_parent (linked : tree.Linked)
    (insertable : tree.Insertable parent run) (detached : ∀ id ∈ run, tree.parent id = none)
    (nonempty : run ≠ []) :
    Adjacent (tree.splice parent run index).previous (tree.splice parent run index).next
      none none ((tree.splice parent run index).children parent) := by
  have elsewhere : ∀ id ∈ run, id ∉ tree.children parent :=
    fun id member => linked.not_mem_of_detached (detached id member) parent
  have inside := adjacent_splice_run index nonempty insertable.nodup
    insertable.lt_size elsewhere
  rw [children_splice insertable.parent_lt, if_pos rfl]
  have distinct := linked.nodup_children parent
  have links := linked.adjacent parent
  have allocated : ∀ id ∈ tree.children parent, id < tree.size :=
    fun id member => linked.lt_size_of_mem member
  rw [← List.take_append_drop index (tree.children parent)] at distinct links allocated
  generalize frontEq : (tree.children parent).take index = front at *
  generalize backEq : (tree.children parent).drop index = back at *
  have notInRun : ∀ id ∈ front ++ back, id ∉ run := by
    intro id member inRun
    refine elsewhere id inRun ?_
    rwa [← List.take_append_drop index (tree.children parent), frontEq, backEq]
  obtain ⟨frontDistinct, backDistinct, apart⟩ := List.nodup_append.mp distinct
  obtain ⟨linksFront, linksBack⟩ := Adjacent.append_iff.mp links
  obtain ⟨first, rest, runEq⟩ := List.exists_cons_of_ne_nil nonempty
  rw [List.append_assoc]
  refine Adjacent.append_iff.mpr ⟨?_, Adjacent.append_iff.mpr ⟨?_, ?_⟩⟩
  · have samePrevious : ∀ id ∈ front,
        (tree.splice parent run index).previous id = tree.previous id := by
      intro id member
      refine previous_splice_of_ne (notInRun id (by simp [member])) ?_
      rw [backEq]
      intro head
      exact apart id member id (List.mem_of_mem_head? head) rfl
    refine (linksFront.congr samePrevious fun _ _ => rfl).change_behind frontDistinct ?_ ?_
    · intro id last
      have member := List.mem_of_getLast? last
      rw [next_splice_before nonempty (allocated id (by simp [member])) (frontEq ▸ last)]
      simp [runEq]
    · intro id member notLast
      exact next_splice_of_ne (notInRun id (by simp [member])) (frontEq ▸ notLast)
  · simpa using inside
  · have sameNext : ∀ id ∈ back,
        (tree.splice parent run index).next id = tree.next id := by
      intro id member
      refine next_splice_of_ne (notInRun id (by simp [member])) ?_
      rw [frontEq]
      intro last
      exact apart id (List.mem_of_getLast? last) id member rfl
    refine (linksBack.congr (fun _ _ => rfl) sameNext).change_before backDistinct ?_ ?_
    · intro id head
      have member := List.mem_of_mem_head? head
      rw [previous_splice_behind nonempty (allocated id (by simp [member])) (backEq ▸ head)]
      simp [runEq, List.getLast?_cons]
    · intro id member notHead
      exact previous_splice_of_ne (notInRun id (by simp [member])) (backEq ▸ notHead)

private theorem adjacent_splice_other (linked : tree.Linked)
    (insertable : tree.Insertable parent run) (detached : ∀ id ∈ run, tree.parent id = none)
    {other : NodeId} (different : other ≠ parent) :
    Adjacent (tree.splice parent run index).previous (tree.splice parent run index).next
      none none ((tree.splice parent run index).children other) := by
  rw [children_splice insertable.parent_lt, if_neg different]
  have outside : ∀ id ∈ tree.children other, id ∉ run := fun id member inRun =>
    linked.not_mem_of_detached (detached id inRun) other member
  have elsewhere : ∀ id ∈ tree.children other, id ∉ tree.children parent :=
    fun id member here => different (linked.parent_unique member here)
  refine (linked.adjacent other).congr ?_ ?_
  · intro id member
    refine previous_splice_of_ne (outside id member) ?_
    intro head
    exact elsewhere id member (List.mem_of_mem_drop (List.mem_of_mem_head? head))
  · intro id member
    refine next_splice_of_ne (outside id member) ?_
    intro last
    exact elsewhere id member (List.mem_of_mem_take (List.mem_of_getLast? last))

/-- Nothing above the parent changes, so the parent still has finitely many
ancestors; with them, so has every node of the run and whatever lies below. -/
private theorem acyclic_splice (linked : tree.Linked) (insertable : tree.Insertable parent run) :
    WellFounded (tree.splice parent run index).IsParent := by
  have outside : ∀ id, Acc tree.IsParent id → id ∉ run → (∀ other ∈ run, ¬ tree.Below other id) →
      Acc (tree.splice parent run index).IsParent id := by
    intro id accessible
    induction accessible with
    | intro id _ ih =>
        intro notInRun notBelow
        refine ⟨id, fun top above => ?_⟩
        rw [IsParent, parent_splice insertable.lt_size, if_neg notInRun] at above
        refine ih top above ?_ ?_
        · intro member
          exact notBelow top member (.single above)
        · intro other member below
          exact notBelow other member (.tail below above)
  have atParent := outside parent (linked.acyclic.apply parent) insertable.parent_not_mem
    insertable.not_below
  refine ⟨fun id => ?_⟩
  induction linked.acyclic.apply id with
  | intro id _ ih =>
      refine ⟨id, fun top above => ?_⟩
      rw [IsParent, parent_splice insertable.lt_size] at above
      split at above
      · cases above
        exact atParent
      · exact ih top above

private theorem mem_children_splice_iff (linked : tree.Linked)
    (insertable : tree.Insertable parent run) (detached : ∀ id ∈ run, tree.parent id = none)
    {top id : NodeId} :
    id ∈ (tree.splice parent run index).children top ↔
      (tree.splice parent run index).parent id = some top := by
  rw [children_splice insertable.parent_lt, parent_splice insertable.lt_size]
  by_cases same : top = parent
  · subst same
    have parts : id ∈ tree.children top ↔
        id ∈ (tree.children top).take index ∨ id ∈ (tree.children top).drop index := by
      rw [← List.mem_append, List.take_append_drop]
    have parentIff : id ∈ tree.children top ↔ tree.parent id = some top :=
      linked.mem_children_iff
    by_cases inRun : id ∈ run
    · simp [inRun]
    · simp [inRun, ← parentIff, parts]
  · have notHere : some parent ≠ some top := fun equal => same (Option.some.inj equal).symm
    by_cases inRun : id ∈ run
    · have unlisted := linked.not_mem_of_detached (detached id inRun) top
      simp [same, inRun, notHere, unlisted]
    · simp [same, inRun, linked.mem_children_iff]

private theorem nodup_children_splice (linked : tree.Linked)
    (insertable : tree.Insertable parent run) (detached : ∀ id ∈ run, tree.parent id = none)
    (top : NodeId) : ((tree.splice parent run index).children top).Nodup := by
  rw [children_splice insertable.parent_lt]
  split
  · have distinct := linked.nodup_children parent
    have around : ∀ id ∈ (tree.children parent).take index ++
        (tree.children parent).drop index, id ∉ run := by
      intro id member inRun
      rw [List.take_append_drop] at member
      exact linked.not_mem_of_detached (detached id inRun) parent member
    rw [← List.take_append_drop index (tree.children parent)] at distinct
    obtain ⟨frontDistinct, backDistinct, apart⟩ := List.nodup_append.mp distinct
    rw [List.append_assoc]
    refine List.nodup_append.mpr ⟨frontDistinct, List.nodup_append.mpr
      ⟨insertable.nodup, backDistinct, ?_⟩, ?_⟩
    · rintro id inRun _ inBack rfl
      exact around id (List.mem_append_right _ inBack) inRun
    · rintro id inFront other member rfl
      rcases List.mem_append.mp member with inRun | inBack
      · exact around id (List.mem_append_left _ inFront) inRun
      · exact apart id inFront id inBack rfl
  · exact linked.nodup_children top

private theorem alone_splice (linked : tree.Linked) (insertable : tree.Insertable parent run)
    {id : NodeId} (alone : (tree.splice parent run index).parent id = none) :
    (tree.splice parent run index).previous id = none ∧
      (tree.splice parent run index).next id = none := by
  rw [parent_splice insertable.lt_size] at alone
  split at alone
  · cases alone
  · next notInRun =>
      obtain ⟨noPrevious, noNext⟩ := linked.alone alone
      have unlisted := linked.not_mem_of_detached alone parent
      refine ⟨?_, ?_⟩
      · rw [previous_splice_of_ne notInRun, noPrevious]
        intro head
        exact unlisted (List.mem_of_mem_drop (List.mem_of_mem_head? head))
      · rw [next_splice_of_ne notInRun, noNext]
        intro last
        exact unlisted (List.mem_of_mem_take (List.mem_of_getLast? last))

theorem splice (linked : tree.Linked) (insertable : tree.Insertable parent run)
    (detached : ∀ id ∈ run, tree.parent id = none) (index : Nat) :
    (tree.splice parent run index).Linked := by
  by_cases empty : run = []
  · rw [Tree.splice, if_pos empty]
    exact linked
  refine ⟨linked.mem_children_splice_iff insertable detached,
    linked.nodup_children_splice insertable detached, ?_, linked.alone_splice insertable,
    acyclic_splice linked insertable⟩
  intro top
  by_cases same : top = parent
  · subst same
    exact adjacent_iff_neighbours.mp (adjacent_splice_parent linked insertable detached empty)
  · exact adjacent_iff_neighbours.mp (adjacent_splice_other linked insertable detached same)

end Linked

/-! ## Moving a run -/

section InsertRun

variable {tree : Tree} {parent : NodeId} {run : List NodeId} {place : List NodeId → Nat}

theorem Insertable.detachAll (linked : tree.Linked) (insertable : tree.Insertable parent run) :
    (tree.detachAll run).Insertable parent run where
  parent_lt := by simpa using insertable.parent_lt
  lt_size := by simpa using insertable.lt_size
  nodup := insertable.nodup
  parent_not_mem := insertable.parent_not_mem
  not_below := by
    intro id member below
    have weaker : ∀ {top child}, (tree.detachAll run).IsParent top child →
        tree.IsParent top child := by
      intro top child above
      rw [IsParent, linked.parent_detachAll] at above
      split at above
      · cases above
      · exact above
    exact insertable.not_below id member (below.lift (fun node => node) fun _ _ => weaker)

@[simp] theorem size_insertRun : (tree.insertRun parent run place).size = tree.size := by
  simp [insertRun]

@[simp] theorem payload?_insertRun (other : NodeId) :
    (tree.insertRun parent run place).payload? other = tree.payload? other := by
  simp [insertRun]

theorem Linked.insertRun (linked : tree.Linked) (insertable : tree.Insertable parent run)
    (place : List NodeId → Nat) : (tree.insertRun parent run place).Linked := by
  rw [Tree.insertRun]
  refine (linked.detachAll run).splice (insertable.detachAll linked) ?_ _
  intro id member
  rw [linked.parent_detachAll, if_pos member]

theorem Linked.parent_insertRun (linked : tree.Linked) (insertable : tree.Insertable parent run)
    (other : NodeId) :
    (tree.insertRun parent run place).parent other =
      if other ∈ run then some parent else tree.parent other := by
  rw [Tree.insertRun, parent_splice (by simpa using insertable.lt_size),
    linked.parent_detachAll]
  split <;> rfl

/-- A run leaves all lists and enters one, where `place` says. -/
theorem Consistent.children_insertRun (consistent : tree.Consistent)
    (allocated : parent < tree.size) (other : NodeId) :
    (tree.insertRun parent run place).children other =
      if other = parent then
        let rest := (tree.children parent).filter (· ∉ run)
        rest.take (place rest) ++ run ++ rest.drop (place rest)
      else (tree.children other).filter (· ∉ run) := by
  rw [Tree.insertRun, children_splice (by simpa using allocated),
    consistent.children_detachAll, consistent.children_detachAll]

end InsertRun

/-! ## Places next to a reference -/

theorem placeBefore_append {reference : NodeId} {front back : List NodeId}
    (fresh : reference ∉ front) :
    placeBefore reference (front ++ reference :: back) = front.length := by
  induction front with
  | nil => simp [placeBefore, List.idxOf?_cons]
  | cons first rest ih =>
      have different : first ≠ reference := fun same => fresh (same ▸ List.mem_cons_self)
      have notInRest : reference ∉ rest := fun member => fresh (List.mem_cons_of_mem first member)
      have found := ih notInRest
      simp only [placeBefore, List.cons_append, List.idxOf?_cons, beq_iff_eq, different,
        if_false] at found ⊢
      cases position : (rest ++ reference :: back).idxOf? reference with
      | none => simp [List.idxOf?_eq_none_iff] at position
      | some index => simpa [position] using found

theorem placeAfter_append {reference : NodeId} {front back : List NodeId}
    (fresh : reference ∉ front) :
    placeAfter reference (front ++ reference :: back) = front.length + 1 := by
  have found : placeBefore reference (front ++ reference :: back) = front.length :=
    placeBefore_append fresh
  simp only [placeBefore, placeAfter] at found ⊢
  cases position : (front ++ reference :: back).idxOf? reference with
  | none => simp [List.idxOf?_eq_none_iff] at position
  | some index => simpa [position] using found

end SelectorTree.Tree
