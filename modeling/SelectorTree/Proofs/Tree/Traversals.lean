import SelectorTree.Proofs.Tree.Leaves
import SelectorTree.Proofs.Tree.Walks

/-!
# Traversals agree

The bounded walks give what walks without a bound give: one that follows links until there is
none, and one that takes nodes off a stack and puts their children on it until the stack is
empty.  So in a linked tree every traversal ends, the descendants of a node come each before
its own, and the ways up and back lead where the lists of children say.
-/

namespace SelectorTree.Tree

/-! ## Walks without a bound -/

/-- A walk by turns that ends: what it meets, in order, until there is no further turn. -/
inductive Yields {State Item : Type} (turn? : State → Option (Item × State)) :
    State → List Item → Prop where
  | done {state : State} (last : turn? state = none) : Yields turn? state []
  | turn {state next : State} {item : Item} {items : List Item}
      (first : turn? state = some (item, next)) (others : Yields turn? next items) :
      Yields turn? state (item :: items)

/-- A turn along a link: the node that it leads to is met, and the link of that node is next. -/
def hop? (link : NodeId → Option NodeId) (id? : Option NodeId) : Option (NodeId × Option NodeId) :=
  id?.map fun id => (id, link id)

/-- A turn downwards: the first node of the stack is met, and its children take its place. -/
def pop? (tree : Tree) : List NodeId → Option (NodeId × List NodeId)
  | [] => none
  | id :: stack => some (id, tree.children id ++ stack)

/-- A walk has one course. -/
theorem Yields.unique {State Item : Type} {turn? : State → Option (Item × State)} {state : State}
    {items others : List Item} (yields : Yields turn? state items)
    (also : Yields turn? state others) : others = items := by
  induction yields generalizing others with
  | done last =>
      cases also with
      | done => rfl
      | turn first _ =>
          rw [last] at first
          cases first
  | turn first _ ih =>
      cases also with
      | done last =>
          rw [first] at last
          cases last
      | turn again rest =>
          rw [first] at again
          cases again
          rw [ih rest]

theorem Yields.iff_eq {State Item : Type} {turn? : State → Option (Item × State)} {state : State}
    {items others : List Item} (yields : Yields turn? state items) :
    Yields turn? state others ↔ others = items :=
  ⟨yields.unique, fun same => same ▸ yields⟩

variable {tree : Tree} {top parent child id : NodeId} {depth limit : Nat}

/-! ## Up -/

/-- The way up is over once all nodes above have been met. -/
theorem yields_follow_parent (linked : tree.Linked) (enough : (tree.lineage id).card ≤ limit) :
    Yields (hop? tree.parent) (tree.parent id) (follow tree.parent limit (tree.parent id)) := by
  induction limit generalizing id with
  | zero =>
      have nothing := Finset.card_eq_zero.mp (Nat.le_zero.mp enough)
      cases attached : tree.parent id with
      | none => exact .done rfl
      | some parent =>
          have member := (mem_lineage linked).mpr (.single attached)
          rw [nothing] at member
          cases member
  | succ limit ih =>
      cases attached : tree.parent id with
      | none => exact .done rfl
      | some parent =>
          have fewer := card_lineage_lt linked attached
          exact .turn rfl (ih (by omega))

theorem yields_ancestors (linked : tree.Linked) (id : NodeId) :
    Yields (hop? tree.parent) (tree.parent id) (tree.ancestors id) :=
  yields_follow_parent linked (tree.card_lineage_le id)

/-! ## Back -/

/-- The way back from the last node of a part of a list of children, by induction on that part
from its end. -/
theorem yields_previous (linked : tree.Linked) {front back : List NodeId}
    (split : tree.children parent = front ++ back) :
    Yields (hop? tree.previous) front.getLast? front.reverse := by
  induction front using List.reverseRecOn generalizing back with
  | nil => exact .done rfl
  | append_singleton front id ih =>
      have behind : tree.children parent = front ++ id :: back := by simpa using split
      have before := (linked.neighbours behind).1
      rw [List.getLast?_concat, List.reverse_append]
      refine .turn rfl ?_
      rw [before]
      exact ih behind

theorem yields_precedingSiblings (linked : tree.Linked) (id : NodeId) :
    Yields (hop? tree.previous) (tree.previous id) (tree.precedingSiblings id) := by
  cases attached : tree.parent id with
  | none =>
      rw [precedingSiblings_of_detached linked attached, (linked.alone attached).1]
      exact .done rfl
  | some parent =>
      obtain ⟨front, back, split⟩ := List.append_of_mem (linked.mem_children attached)
      rw [precedingSiblings_eq linked split, (linked.neighbours split).1]
      exact yields_previous linked split

theorem precedingSiblings_of_getElem? (linked : tree.Linked) {index : Nat}
    (found : (tree.children parent)[index]? = some child) :
    tree.precedingSiblings child = ((tree.children parent).take index).reverse := by
  obtain ⟨within, atIndex⟩ := List.getElem?_eq_some_iff.mp found
  have split : tree.children parent =
      (tree.children parent).take index ++ child :: (tree.children parent).drop (index + 1) := by
    rw [← atIndex, ← List.drop_eq_getElem_cons within, List.take_append_drop]
  exact precedingSiblings_eq linked split

/-! ## Down -/

theorem children_eq_nil_of_card (linked : tree.Linked) (nothing : (tree.subtree top).card ≤ 0) :
    tree.children top = [] := by
  rw [List.eq_nil_iff_forall_not_mem]
  intro child listed
  have member := mem_subtree.mpr (Relation.TransGen.single (linked.parent_of_mem listed))
  rw [Finset.card_eq_zero.mp (Nat.le_zero.mp nothing)] at member
  cases member

/-- The stack is worked off node by node, each with everything below it, before what lay under
it has its turn.  The outer induction is on the size of the subtrees, the inner one on the
nodes of one level. -/
theorem yields_pop (linked : tree.Linked) {ids stack visited : List NodeId}
    (enough : ∀ id ∈ ids, (tree.subtree id).card ≤ depth)
    (rest : Yields tree.pop? stack visited) :
    Yields tree.pop? (ids ++ stack)
      (ids.flatMap (fun id => id :: tree.descendantsWithin depth id) ++ visited) := by
  induction depth generalizing ids stack visited with
  | zero =>
      induction ids with
      | nil => exact rest
      | cons id ids ih =>
          obtain ⟨here, others⟩ := List.forall_mem_cons.mp enough
          refine .turn rfl ?_
          rw [children_eq_nil_of_card linked here]
          exact ih others
  | succ depth ihDepth =>
      induction ids with
      | nil => exact rest
      | cons id ids ih =>
          obtain ⟨here, others⟩ := List.forall_mem_cons.mp enough
          have fewer : ∀ child ∈ tree.children id, (tree.subtree child).card ≤ depth := by
            intro child listed
            have smaller := card_subtree_lt linked (linked.parent_of_mem listed)
            omega
          have below := ihDepth fewer (ih others)
          rw [List.flatMap_cons, List.append_assoc]
          exact .turn rfl below

theorem yields_descendantsWithin (linked : tree.Linked) (enough : (tree.subtree top).card ≤ depth) :
    Yields tree.pop? (tree.children top) (tree.descendantsWithin depth top) := by
  have alone : Yields tree.pop? ([top] ++ [])
      ([top].flatMap (fun id => id :: tree.descendantsWithin depth id) ++ []) :=
    yields_pop linked (List.forall_mem_singleton.mpr enough) (.done rfl)
  rw [List.flatMap_singleton, List.append_nil, List.append_nil] at alone
  obtain _ | ⟨first, below⟩ := alone
  cases first
  rwa [List.append_nil] at below

theorem yields_descendants (linked : tree.Linked) (top : NodeId) :
    Yields tree.pop? (tree.children top) (tree.descendants top) :=
  yields_descendantsWithin linked (tree.card_subtree_le top)

/-- Each child comes before what is below it, and that before the next child. -/
theorem descendants_eq_flatMap (linked : tree.Linked) (top : NodeId) :
    tree.descendants top =
      (tree.children top).flatMap fun child => child :: tree.descendants child := by
  have enough := Nat.le_succ_of_le (tree.card_subtree_le top)
  exact (yields_descendants linked top).unique (yields_descendantsWithin linked enough) |>.symm

/-! ## All of them together -/

/-- The stack walk and the walks along links yield what the bounded traversals list.  The
descendants come in document order, each once, and are the nodes whose walk up passes the top; the
preceding siblings are those listed before a child, the nearest first. -/
theorem traversals_agree (linked : tree.Linked) (top : NodeId) :
    (∀ ids, Yields tree.pop? (tree.children top) ids ↔ ids = tree.descendants top) ∧
      tree.descendants top =
        (tree.children top).flatMap (fun child => child :: tree.descendants child) ∧
      (tree.descendants top).Nodup ∧
      (∀ id, id ∈ tree.descendants top ↔ tree.Below top id) ∧
      (∀ id, id ∈ tree.descendants top ↔ tree.isDescendantOf id top = true) ∧
      (∀ id, id ∈ tree.descendants top ↔ top ∈ tree.ancestors id) ∧
      (∀ id ids, Yields (hop? tree.parent) (tree.parent id) ids ↔ ids = tree.ancestors id) ∧
      (∀ id ids, Yields (hop? tree.previous) (tree.previous id) ids ↔
        ids = tree.precedingSiblings id) ∧
      ∀ index child, (tree.children top)[index]? = some child →
        tree.precedingSiblings child = ((tree.children top).take index).reverse := by
  refine ⟨?_, descendants_eq_flatMap linked top, nodup_descendants linked top, ?_, ?_, ?_, ?_, ?_,
    ?_⟩
  · intro ids
    exact (yields_descendants linked top).iff_eq
  · intro id
    exact mem_descendants_iff linked
  · intro id
    rw [mem_descendants_iff linked, isDescendantOf_iff linked]
  · intro id
    rw [mem_descendants_iff linked, mem_ancestors_iff linked]
  · intro id ids
    exact (yields_ancestors linked id).iff_eq
  · intro id ids
    exact (yields_precedingSiblings linked id).iff_eq
  · intro index child found
    exact precedingSiblings_of_getElem? linked found

/-- A body with a navigation, which holds two links, and a section behind it. -/
def navigationPage : Tree :=
  withBody.1.addChild 1 (.element (.ofTag "nav"))
    |>.addChild 2 (.element (.ofTag "a"))
    |>.addChild 2 (.element (.ofTag "a"))
    |>.addChild 1 (.element (.ofTag "main"))

theorem linked_navigationPage : navigationPage.Linked :=
  linked_withBody.addChild (by decide) _ |>.addChild (by decide) _ |>.addChild (by decide) _
    |>.addChild (by decide) _

/-- Before `main` stands the navigation, and the links in it are not counted. -/
theorem traversals_navigationPage :
    navigationPage.Linked ∧ navigationPage.descendants 1 = [2, 3, 4, 5] ∧
      Yields navigationPage.pop? (navigationPage.children 1) [2, 3, 4, 5] ∧
      1 ∈ navigationPage.ancestors 4 ∧ navigationPage.isDescendantOf 5 2 = false ∧
      navigationPage.precedingSiblings 5 = [2] := by
  obtain ⟨stack, -, -, -, -, above, -, -, before⟩ := traversals_agree linked_navigationPage 1
  obtain ⟨-, -, -, -, below, -, -, -, -⟩ := traversals_agree linked_navigationPage 2
  have order : navigationPage.descendants 1 = [2, 3, 4, 5] := by decide +kernel
  have links : navigationPage.descendants 2 = [3, 4] := by decide +kernel
  refine ⟨linked_navigationPage, order, (stack _).mpr order.symm, ?_, ?_, ?_⟩
  · exact (above 4).mp (by simp [order])
  · rw [← Bool.not_eq_true, ← below 5, links]
    decide
  · exact before 1 5 (by decide +kernel)

end SelectorTree.Tree
