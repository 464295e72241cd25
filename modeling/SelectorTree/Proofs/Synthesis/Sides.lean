import SelectorTree.Proofs.Tree.Leaves
import SelectorTree.Synthesis.Builder

/-!
# Insertion seen from a side

Positions count from either end of a list of children.  Read from the end that
they count from, insertion at the start and at the finish are the same: a node
comes first, last, or immediately before a reference.
-/

namespace SelectorTree

/-- A list as it reads from a side. -/
def Side.orient {α : Type} : Side → List α → List α
  | .start, items => items
  | .finish, items => items.reverse

namespace Side

variable {α : Type} (side : Side) (items others : List α)

@[simp] theorem orient_orient : side.orient (side.orient items) = items := by
  cases side <;> simp [orient]

theorem eq_of_orient_eq {items others : List α} (equal : side.orient items = side.orient others) :
    items = others := by
  have restored := congrArg side.orient equal
  simpa using restored

@[simp] theorem orient_nil : side.orient ([] : List α) = [] := by
  cases side <;> rfl

@[simp] theorem orient_singleton (item : α) : side.orient [item] = [item] := by
  cases side <;> rfl

@[simp] theorem length_orient : (side.orient items).length = items.length := by
  cases side <;> simp [orient]

@[simp] theorem mem_orient {item : α} : item ∈ side.orient items ↔ item ∈ items := by
  cases side <;> simp [orient]

@[simp] theorem nodup_orient : (side.orient items).Nodup ↔ items.Nodup := by
  cases side <;> simp [orient]

theorem filter_orient (keep : α → Bool) :
    (side.orient items).filter keep = side.orient (items.filter keep) := by
  cases side <;> simp [orient, List.filter_reverse]

theorem map_orient {β : Type} (change : α → β) :
    side.orient (items.map change) = (side.orient items).map change := by
  cases side <;> simp [orient]

theorem sublist_orient :
    (side.orient items).Sublist (side.orient others) ↔ items.Sublist others := by
  cases side <;> simp [orient]

end Side

namespace Tree

variable {tree : Tree} {parent id reference : NodeId} {run : List NodeId}

theorem countedChildren_eq (tree : Tree) (parent : NodeId) (side : Side) (scope : Scope)
    (tag : String) :
    tree.countedChildren parent side scope tag =
      side.orient ((tree.elementChildren parent).filter (tree.counts scope tag)) := by
  cases side <;> rfl

/-- A run put where a reference is, in the direction of counting. -/
def insertRunNextTo (tree : Tree) (parent : NodeId) (run : List NodeId) (reference : NodeId) :
    Side → Tree
  | .start => tree.insertManyBefore parent run reference
  | .finish => tree.insertManyAfter parent run reference

theorem insertNextTo_eq (side : Side) :
    Builder.insertNextTo tree parent id reference side =
      tree.insertRunNextTo parent [id] reference side := by
  cases side <;> rfl

theorem orient_removeChild (side : Side) (linked : tree.Linked) {front back : List NodeId}
    (split : side.orient (tree.children parent) = front ++ id :: back) :
    side.orient ((tree.removeChild parent id).children parent) = front ++ back := by
  have distinct : (front ++ id :: back).Nodup := by
    rw [← split, Side.nodup_orient]
    exact linked.nodup_children parent
  obtain ⟨-, backDistinct, apart⟩ := List.nodup_append.mp distinct
  have keepFront : front.filter (· != id) = front :=
    List.filter_eq_self.mpr fun other member => by
      simpa using apart other member id List.mem_cons_self
  have keepBack : back.filter (· != id) = back :=
    List.filter_eq_self.mpr fun other member => by
      simpa using ne_of_mem_of_not_mem member (List.nodup_cons.mp backDistinct).1
  rw [children_removeChild, if_pos rfl, (linked.nodup_children parent).erase_eq_filter,
    ← Side.filter_orient, split, List.filter_append, keepFront]
  simp [keepBack]

section Entering

variable (side : Side) (leaves : tree.Leaves run) (linked : tree.Linked)
  (insertable : tree.Insertable parent run)

include leaves linked insertable

theorem entered_insertRunNextTo (reference : NodeId) :
    Entered tree (tree.insertRunNextTo parent run reference side) parent run := by
  cases side with
  | start => exact leaves.entered_insertRun linked insertable _
  | finish => exact leaves.entered_insertRun linked insertable _

theorem orient_insertRunNextTo {front back : List NodeId}
    (split : side.orient (tree.children parent) = front ++ reference :: back) :
    side.orient ((tree.insertRunNextTo parent run reference side).children parent) =
      front ++ side.orient run ++ reference :: back := by
  have distinct : (front ++ reference :: back).Nodup := by
    rw [← split, Side.nodup_orient]
    exact linked.nodup_children parent
  obtain ⟨-, backDistinct, apart⟩ := List.nodup_append.mp distinct
  cases side with
  | start =>
      have notInFront : reference ∉ front := fun member =>
        apart reference member reference List.mem_cons_self rfl
      change tree.children parent = _ at split
      change (tree.insertRun parent run (placeBefore reference)).children parent = _
      rw [leaves.children_insertRun linked insertable, if_pos rfl, split,
        placeBefore_append notInFront]
      simp [Side.orient]
  | finish =>
      have notInBack : reference ∉ back.reverse := by
        simpa using (List.nodup_cons.mp backDistinct).1
      have mirrored : tree.children parent = back.reverse ++ reference :: front.reverse := by
        rw [← List.reverse_reverse (tree.children parent)]
        simpa [Side.orient] using congrArg List.reverse split
      have taken : back.reverse.length + 1 = (back.reverse ++ [reference]).length := by simp
      change ((tree.insertRun parent run (placeAfter reference)).children parent).reverse = _
      rw [leaves.children_insertRun linked insertable, if_pos rfl, mirrored,
        placeAfter_append notInBack, List.append_cons, taken, List.take_left, List.drop_left]
      simp [Side.orient]

end Entering

section EnteringAlone

variable (side : Side) (leaves : tree.Leaves [id]) (linked : tree.Linked)
  (insertable : tree.Insertable parent [id])

include leaves linked insertable

theorem entered_insertNearest :
    Entered tree (Builder.insertNearest tree parent id side) parent [id] := by
  cases side with
  | start => exact leaves.entered_insertRun linked insertable fun _ => 0
  | finish => exact leaves.entered_insertRun linked insertable List.length

theorem entered_insertFarthest :
    Entered tree (Builder.insertFarthest tree parent id side) parent [id] := by
  cases side with
  | start => exact leaves.entered_insertRun linked insertable List.length
  | finish => exact leaves.entered_insertRun linked insertable fun _ => 0

theorem children_appendChild :
    (tree.appendChild parent id).children parent = tree.children parent ++ [id] := by
  rw [appendChild, leaves.children_insertRun linked insertable, if_pos rfl]
  simp

theorem children_prependChild :
    (tree.prependChild parent id).children parent = id :: tree.children parent := by
  rw [prependChild, leaves.children_insertRun linked insertable, if_pos rfl]
  simp

theorem orient_insertNearest :
    side.orient ((Builder.insertNearest tree parent id side).children parent) =
      id :: side.orient (tree.children parent) := by
  cases side with
  | start => exact children_prependChild leaves linked insertable
  | finish =>
      change ((tree.appendChild parent id).children parent).reverse = _
      rw [children_appendChild leaves linked insertable, List.reverse_append]
      rfl

theorem orient_insertFarthest :
    side.orient ((Builder.insertFarthest tree parent id side).children parent) =
      side.orient (tree.children parent) ++ [id] := by
  cases side with
  | start => exact children_appendChild leaves linked insertable
  | finish =>
      change ((tree.prependChild parent id).children parent).reverse = _
      rw [children_prependChild leaves linked insertable, List.reverse_cons]
      rfl

end EnteringAlone

end Tree

end SelectorTree
