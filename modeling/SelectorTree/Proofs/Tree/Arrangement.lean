import SelectorTree.Proofs.Tree.Editing

/-!
# Arrangements

An arrangement forgets the links of a tree: it maps each node to its data and to
the list of its children.  Every edit of a tree does to the arrangement what can be
said of lists alone; links between siblings and the order in which they are
mended do not matter.
-/

namespace SelectorTree

/-- The data and the children of nodes. -/
@[ext] structure Arrangement where
  size : Nat
  payload? : NodeId → Option Payload
  children : NodeId → List NodeId

namespace Arrangement

/-- A list with `around` in the place of a reference, or with a run behind it if it
has no such node. -/
def enterAt (reference : NodeId) (around run : List NodeId) : List NodeId → List NodeId
  | [] => run
  | head :: rest =>
    if head = reference then around ++ rest else head :: enterAt reference around run rest

/-- A run enters immediately before a reference. -/
def enterBefore (reference : NodeId) (run : List NodeId) : List NodeId → List NodeId :=
  enterAt reference (run ++ [reference]) run

/-- A run enters immediately behind a reference. -/
def enterAfter (reference : NodeId) (run : List NodeId) : List NodeId → List NodeId :=
  enterAt reference (reference :: run) run

/-- A run leaves all lists and enters that of a parent. -/
def move (arrangement : Arrangement) (parent : NodeId) (run : List NodeId)
    (enter : List NodeId → List NodeId) : Arrangement :=
  { arrangement with
    children := fun id =>
      let rest := (arrangement.children id).filter (· ∉ run)
      if id = parent then enter rest else rest }

def remove (arrangement : Arrangement) (parent child : NodeId) : Arrangement :=
  { arrangement with
    children := fun id =>
      if id = parent then (arrangement.children id).filter (· != child)
      else arrangement.children id }

/-- One more node, on no list. -/
def add (arrangement : Arrangement) (payload : Payload) : Arrangement :=
  { arrangement with
    size := arrangement.size + 1
    payload? := fun id =>
      if id = arrangement.size then some payload else arrangement.payload? id }

def isText (arrangement : Arrangement) (id : NodeId) : Bool :=
  match arrangement.payload? id with
  | some (.text _) => true
  | _ => false

/-- The first text of a node has another content; without one, a new text comes last. -/
def setText (arrangement : Arrangement) (id : NodeId) (content : String) : Arrangement :=
  match (arrangement.children id).find? arrangement.isText with
  | some text =>
    { arrangement with
      payload? := fun other =>
        if other = text then some (.text content) else arrangement.payload? other }
  | none =>
    { arrangement.add (.text content) with
      children := fun other =>
        if other = id then arrangement.children id ++ [arrangement.size]
        else arrangement.children other }

/-- What an edit does to an arrangement. -/
def edit (arrangement : Arrangement) : Tree.Edit → Arrangement
  | .alloc payload => arrangement.add payload
  | .append parent child => arrangement.move parent [child] (· ++ [child])
  | .prepend parent child => arrangement.move parent [child] (child :: ·)
  | .insertBefore parent child reference =>
    arrangement.move parent [child] (enterBefore reference [child])
  | .insertAfter parent child reference =>
    arrangement.move parent [child] (enterAfter reference [child])
  | .insertManyBefore parent run reference =>
    arrangement.move parent run (enterBefore reference run)
  | .insertManyAfter parent run reference =>
    arrangement.move parent run (enterAfter reference run)
  | .remove parent child => arrangement.remove parent child
  | .setText id content => arrangement.setText id content

/-! ## Entering a list -/

variable {reference : NodeId} {around run front back ids : List NodeId}

theorem enterAt_append (fresh : reference ∉ front) :
    enterAt reference around run (front ++ reference :: back) = front ++ (around ++ back) := by
  induction front with
  | nil => simp [enterAt]
  | cons head rest ih =>
      have different : head ≠ reference := fun same => fresh (same ▸ List.mem_cons_self)
      have later := ih fun member => fresh (List.mem_cons_of_mem head member)
      rw [List.cons_append, enterAt, if_neg different, later, List.cons_append]

theorem enterAt_of_notMem (absent : reference ∉ ids) :
    enterAt reference around run ids = ids ++ run := by
  induction ids with
  | nil => rfl
  | cons head rest ih =>
      have different : head ≠ reference := fun same => absent (same ▸ List.mem_cons_self)
      have later := ih fun member => absent (List.mem_cons_of_mem head member)
      rw [enterAt, if_neg different, later, List.cons_append]

/-- The position before a reference splits a list where the run enters. -/
theorem splice_placeBefore (reference : NodeId) (run ids : List NodeId) :
    ids.take (Tree.placeBefore reference ids) ++ run ++
        ids.drop (Tree.placeBefore reference ids) =
      enterBefore reference run ids := by
  by_cases member : reference ∈ ids
  · obtain ⟨front, back, rfl, fresh⟩ := List.eq_append_cons_of_mem member
    rw [Tree.placeBefore_append fresh, enterBefore, enterAt_append fresh]
    simp
  · have place : Tree.placeBefore reference ids = ids.length := by
      rw [Tree.placeBefore, List.idxOf?_eq_none_iff.mpr member, Option.getD_none]
    rw [place, enterBefore, enterAt_of_notMem member]
    simp

theorem splice_placeAfter (reference : NodeId) (run ids : List NodeId) :
    ids.take (Tree.placeAfter reference ids) ++ run ++ ids.drop (Tree.placeAfter reference ids) =
      enterAfter reference run ids := by
  by_cases member : reference ∈ ids
  · obtain ⟨front, back, rfl, fresh⟩ := List.eq_append_cons_of_mem member
    rw [Tree.placeAfter_append fresh, enterAfter, enterAt_append fresh]
    have behind : front.length + 1 = (front ++ [reference]).length := by simp
    rw [List.append_cons, behind, List.take_left, List.drop_left]
    simp
  · have place : Tree.placeAfter reference ids = ids.length := by
      rw [Tree.placeAfter, List.idxOf?_eq_none_iff.mpr member, Option.map_none,
        Option.getD_none]
    rw [place, enterAfter, enterAt_of_notMem member]
    simp

end Arrangement

namespace Tree

/-- The data and the children of the nodes of a tree. -/
def arrangement (tree : Tree) : Arrangement := ⟨tree.size, tree.payload?, tree.children⟩

variable {tree : Tree} {parent child id : NodeId} {run : List NodeId} {edit : Edit}

theorem find?_isText_arrangement (tree : Tree) (id : NodeId) :
    (tree.arrangement.children id).find? tree.arrangement.isText = tree.firstTextChild id := by
  have sameTest : tree.arrangement.isText = fun child => (tree.text? child).isSome := by
    funext child
    simp only [Arrangement.isText, arrangement, text?]
    rcases tree.payload? child with _ | (_ | _ | _) <;> rfl
  rw [sameTest]
  rfl

theorem arrangement_alloc (tree : Tree) (payload : Payload) :
    (tree.alloc payload).1.arrangement = tree.arrangement.add payload := by
  apply Arrangement.ext
  · exact size_alloc tree payload
  · exact funext (payload?_alloc tree payload)
  · exact funext (children_alloc tree payload)

namespace Consistent

theorem arrangement_insertRun (consistent : tree.Consistent) (allocated : parent < tree.size)
    (run : List NodeId) (place : List NodeId → Nat) (enter : List NodeId → List NodeId)
    (enters : ∀ ids, ids.take (place ids) ++ run ++ ids.drop (place ids) = enter ids) :
    (tree.insertRun parent run place).arrangement = tree.arrangement.move parent run enter := by
  apply Arrangement.ext
  · exact size_insertRun
  · exact funext payload?_insertRun
  · funext id
    refine (consistent.children_insertRun allocated id).trans ?_
    by_cases same : id = parent
    · subst same
      simp [Arrangement.move, arrangement, enters]
    · simp [Arrangement.move, arrangement, same]

theorem arrangement_removeChild (consistent : tree.Consistent) (parent child : NodeId) :
    (tree.removeChild parent child).arrangement = tree.arrangement.remove parent child := by
  apply Arrangement.ext
  · exact size_removeChild tree parent child
  · exact funext (payload?_removeChild tree parent child)
  · funext id
    refine (children_removeChild tree parent child id).trans ?_
    by_cases same : id = parent
    · simp [Arrangement.remove, arrangement, same,
        (consistent.nodup_children parent).erase_eq_filter]
    · simp [Arrangement.remove, arrangement, same]

theorem alloc (consistent : tree.Consistent) (payload : Payload) :
    (tree.alloc payload).1.Consistent where
  mem_children_iff := by
    intro parent child
    rw [children_alloc, parent_alloc]
    exact consistent.mem_children_iff
  nodup_children parent := by
    rw [children_alloc]
    exact consistent.nodup_children parent

theorem arrangement_setText (consistent : tree.Consistent) (allocated : id < tree.size)
    (content : String) :
    (tree.setText id content).arrangement = tree.arrangement.setText id content := by
  rw [Arrangement.setText, find?_isText_arrangement, setText]
  cases first : tree.firstTextChild id with
  | some text =>
      have isText : (tree.text? text).isSome = true :=
        List.find?_some (p := fun child => (tree.text? child).isSome) first
      obtain ⟨payload, found⟩ : ∃ payload, tree.payload? text = some payload := by
        cases found : tree.payload? text with
        | none => simp [text?, found] at isText
        | some payload => exact ⟨payload, rfl⟩
      apply Arrangement.ext
      · exact size_setPayload tree text _
      · funext other
        refine (payload?_setPayload tree text other _).trans ?_
        by_cases same : text = other
        · simp [← same, found]
        · simp [same, Ne.symm same, arrangement]
      · exact funext fun other => children_setPayload tree text other _
  | none =>
      have notListed : ∀ other, ∀ child ∈ tree.children other, ¬child = tree.size :=
        fun _ _ listed => Nat.ne_of_lt (consistent.lt_size_of_mem listed)
      have stillAllocated : id < (tree.alloc (.text content)).1.size := by
        rw [size_alloc]
        exact Nat.lt_succ_of_lt allocated
      have entered := (consistent.alloc (.text content)).arrangement_insertRun stillAllocated
        [tree.size] List.length (· ++ [tree.size]) (by simp)
      rw [arrangement_alloc] at entered
      refine entered.trans ?_
      apply Arrangement.ext
      · rfl
      · rfl
      · funext other
        by_cases same : other = id
        · simp [Arrangement.move, Arrangement.add, arrangement, same]
          exact notListed _
        · simp [Arrangement.move, Arrangement.add, arrangement, same]
          exact notListed _

end Consistent

/-- An edit does to the arrangement of a tree what lists alone say.  Removing a node
from where it is not listed changes nothing at all. -/
theorem arrangement_apply (consistent : tree.Consistent) (admissible : edit.Admissible tree) :
    (edit.apply tree).arrangement = tree.arrangement.edit edit ∧
      ∀ parent child, edit = .remove parent child → child ∉ tree.children parent →
        edit.apply tree = tree := by
  constructor
  · cases edit with
    | alloc payload => exact arrangement_alloc tree payload
    | append parent child =>
        apply consistent.arrangement_insertRun admissible.parent_lt [child] List.length
          (· ++ [child])
        simp
    | prepend parent child =>
        apply consistent.arrangement_insertRun admissible.parent_lt [child] (fun _ => 0)
          (child :: ·)
        simp
    | insertBefore parent child reference =>
        apply consistent.arrangement_insertRun admissible.parent_lt [child]
        exact Arrangement.splice_placeBefore reference [child]
    | insertAfter parent child reference =>
        apply consistent.arrangement_insertRun admissible.parent_lt [child]
        exact Arrangement.splice_placeAfter reference [child]
    | insertManyBefore parent run reference =>
        apply consistent.arrangement_insertRun admissible.parent_lt run
        exact Arrangement.splice_placeBefore reference run
    | insertManyAfter parent run reference =>
        apply consistent.arrangement_insertRun admissible.parent_lt run
        exact Arrangement.splice_placeAfter reference run
    | remove parent child => exact consistent.arrangement_removeChild parent child
    | setText id content => exact consistent.arrangement_setText admissible content
  · rintro parent child rfl unlisted
    rw [Edit.apply, removeChild, if_neg unlisted]

/-- Two nodes from different lists, one of them below the other, enter a third list. -/
theorem arrangement_movedItems :
    movedItems.Consistent ∧ (Edit.insertManyAfter 1 [4, 3] 2).Admissible movedItems ∧
      ((Edit.insertManyAfter 1 [4, 3] 2).apply movedItems).arrangement =
        movedItems.arrangement.edit (.insertManyAfter 1 [4, 3] 2) ∧
      (movedItems.arrangement.edit (.insertManyAfter 1 [4, 3] 2)).children 1 = [2, 4, 3] := by
  have linked := reachable_movedItems.linked
  have insertable : movedItems.Insertable 1 [4, 3] :=
    linked.insertable (by decide +kernel) (by decide +kernel) (by decide) (by decide +kernel)
  have admissible : (Edit.insertManyAfter 1 [4, 3] 2).Admissible movedItems := insertable
  refine ⟨linked.consistent, admissible, ?_, by decide +kernel⟩
  exact (arrangement_apply linked.consistent admissible).1

end Tree

end SelectorTree
