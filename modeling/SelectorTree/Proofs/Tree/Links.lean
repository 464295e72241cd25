import Mathlib.Data.List.Nodup
import Mathlib.Logic.Relation
import Mathlib.Order.WellFounded
import SelectorTree.Proofs.Tree.Nodes

/-!
# Consistent links

A tree keeps every edge three times: in the list of children, in the parent
link, and in the links between siblings.  `Linked` says that the three agree
and that no node is above itself, `Consistent` only that the first two agree.
Edits rebuild a list of children from parts; `Adjacent` follows sibling links
along one part, between given neighbours.
-/

namespace SelectorTree

/-- Sibling links run along a list, between the nodes before and behind it. -/
def Adjacent (previous next : NodeId → Option NodeId) (before behind : Option NodeId) :
    List NodeId → Prop
  | [] => True
  | id :: rest =>
      previous id = before ∧ next id = rest.head?.or behind ∧
        Adjacent previous next (some id) behind rest

namespace Adjacent

variable {previous next : NodeId → Option NodeId} {before behind : Option NodeId}

theorem append_iff {front back : List NodeId} :
    Adjacent previous next before behind (front ++ back) ↔
      Adjacent previous next before (back.head?.or behind) front ∧
        Adjacent previous next (front.getLast?.or before) behind back := by
  induction front generalizing before with
  | nil => simp [Adjacent]
  | cons id rest ih =>
      have last : (id :: rest).getLast?.or before = rest.getLast?.or (some id) := by
        cases rest <;> simp [List.getLast?_cons]
      simp only [List.cons_append, Adjacent, ih, last, List.head?_append, Option.or_assoc,
        and_assoc]

/-- Only the links of the listed nodes matter. -/
theorem congr {previous' next' : NodeId → Option NodeId} {ids : List NodeId}
    (samePrevious : ∀ id ∈ ids, previous' id = previous id)
    (sameNext : ∀ id ∈ ids, next' id = next id)
    (adjacent : Adjacent previous next before behind ids) :
    Adjacent previous' next' before behind ids := by
  induction ids generalizing before with
  | nil => trivial
  | cons id rest ih =>
      obtain ⟨first, second, others⟩ := adjacent
      refine ⟨?_, ?_, ?_⟩
      · rw [samePrevious id List.mem_cons_self, first]
      · rw [sameNext id List.mem_cons_self, second]
      · exact ih (fun other member => samePrevious other (List.mem_cons_of_mem id member))
          (fun other member => sameNext other (List.mem_cons_of_mem id member)) others

/-- A list keeps its inner links when its last node points to another one. -/
theorem change_behind {next' : NodeId → Option NodeId} {behind' : Option NodeId}
    {ids : List NodeId} (distinct : ids.Nodup)
    (last : ∀ id, ids.getLast? = some id → next' id = behind')
    (others : ∀ id ∈ ids, ids.getLast? ≠ some id → next' id = next id)
    (adjacent : Adjacent previous next before behind ids) :
    Adjacent previous next' before behind' ids := by
  rcases List.eq_nil_or_concat ids with rfl | ⟨front, id, rfl⟩
  · trivial
  · rw [List.concat_eq_append] at *
    obtain ⟨inside, atLast⟩ := append_iff.mp adjacent
    obtain ⟨beforeLast, _, _⟩ := atLast
    have notLast : ∀ other ∈ front, (front ++ [id]).getLast? ≠ some other := by
      intro other member equal
      have same : id = other := by simpa using equal
      exact (List.nodup_append.mp distinct).2.2 other member id (by simp) same.symm
    refine append_iff.mpr ⟨?_, beforeLast, ?_, trivial⟩
    · refine congr (fun _ _ => rfl) ?_ inside
      intro other member
      exact others other (List.mem_append_left _ member) (notLast other member)
    · simpa using last id (by simp)

/-- A list keeps its inner links when another node comes before it. -/
theorem change_before {previous' : NodeId → Option NodeId} {before' : Option NodeId}
    {ids : List NodeId} (distinct : ids.Nodup)
    (first : ∀ id, ids.head? = some id → previous' id = before')
    (others : ∀ id ∈ ids, ids.head? ≠ some id → previous' id = previous id)
    (adjacent : Adjacent previous next before behind ids) :
    Adjacent previous' next before' behind ids := by
  cases ids with
  | nil => trivial
  | cons id rest =>
      obtain ⟨_, afterFirst, inside⟩ := adjacent
      refine ⟨first id rfl, afterFirst, ?_⟩
      refine congr ?_ (fun _ _ => rfl) inside
      intro other member
      refine others other (List.mem_cons_of_mem id member) ?_
      intro equal
      have same : id = other := by simpa using equal
      exact (List.nodup_cons.mp distinct).1 (same ▸ member)

/-- The links of a list, read off at each of its nodes. -/
theorem iff_neighbours {ids : List NodeId} :
    Adjacent previous next before behind ids ↔
      ∀ front id back, ids = front ++ id :: back →
        previous id = front.getLast?.or before ∧ next id = back.head?.or behind := by
  constructor
  · intro adjacent front id back split
    subst split
    obtain ⟨atId, behindId, _⟩ := (append_iff.mp adjacent).2
    exact ⟨atId, behindId⟩
  · intro neighbours
    induction ids generalizing before with
    | nil => trivial
    | cons id rest ih =>
        obtain ⟨first, second⟩ := neighbours [] id rest rfl
        refine ⟨by simpa using first, second, ih ?_⟩
        intro front other back split
        obtain ⟨atOther, behindOther⟩ := neighbours (id :: front) other back (by simp [split])
        refine ⟨?_, behindOther⟩
        rw [atOther]
        cases front <;> simp [List.getLast?_cons]

end Adjacent

namespace Tree

/-- Whether a node is the parent of another. -/
def IsParent (tree : Tree) (parent child : NodeId) : Prop := tree.parent child = some parent

/-- Whether a node is below another, at any depth. -/
abbrev Below (tree : Tree) (top id : NodeId) : Prop := Relation.TransGen tree.IsParent top id

/-- Whether a node is another one or below it. -/
abbrev Within (tree : Tree) (top id : NodeId) : Prop := Relation.ReflTransGen tree.IsParent top id

theorem lt_size_of_below {tree : Tree} {top id : NodeId} (below : tree.Below top id) :
    id < tree.size := by
  cases below with
  | single attached => exact lt_size_of_parent attached
  | tail _ attached => exact lt_size_of_parent attached

/-- The lists of children, the parent links and the sibling links of a tree
agree, and parent links end. -/
structure Linked (tree : Tree) : Prop where
  mem_children_iff : ∀ {parent child},
    child ∈ tree.children parent ↔ tree.parent child = some parent
  nodup_children : ∀ parent, (tree.children parent).Nodup
  neighbours : ∀ {parent front child back}, tree.children parent = front ++ child :: back →
    tree.previous child = front.getLast? ∧ tree.next child = back.head?
  alone : ∀ {id}, tree.parent id = none → tree.previous id = none ∧ tree.next id = none
  acyclic : WellFounded tree.IsParent

theorem adjacent_iff_neighbours {tree : Tree} {parent : NodeId} :
    Adjacent tree.previous tree.next none none (tree.children parent) ↔
      ∀ {front child back}, tree.children parent = front ++ child :: back →
        tree.previous child = front.getLast? ∧ tree.next child = back.head? := by
  rw [Adjacent.iff_neighbours]
  constructor
  · intro neighbours front child back split
    simpa using neighbours front child back split
  · intro neighbours front child back split
    simpa using neighbours split

/-- The lists of children and the parent links of a tree agree. -/
structure Consistent (tree : Tree) : Prop where
  mem_children_iff : ∀ {parent child},
    child ∈ tree.children parent ↔ tree.parent child = some parent
  nodup_children : ∀ parent, (tree.children parent).Nodup

namespace Consistent

variable {tree : Tree} {parent other child : NodeId}

theorem mem_children (consistent : tree.Consistent)
    (attached : tree.parent child = some parent) : child ∈ tree.children parent :=
  consistent.mem_children_iff.mpr attached

theorem parent_of_mem (consistent : tree.Consistent)
    (listed : child ∈ tree.children parent) : tree.parent child = some parent :=
  consistent.mem_children_iff.mp listed

/-- No node is on two lists. -/
theorem parent_unique (consistent : tree.Consistent)
    (listed : child ∈ tree.children parent) (elsewhere : child ∈ tree.children other) :
    parent = other := by
  apply Option.some.inj
  exact (consistent.parent_of_mem listed).symm.trans (consistent.parent_of_mem elsewhere)

theorem lt_size_of_mem (consistent : tree.Consistent)
    (listed : child ∈ tree.children parent) : child < tree.size :=
  lt_size_of_parent (consistent.parent_of_mem listed)

end Consistent

namespace Linked

variable {tree : Tree}

theorem consistent (linked : tree.Linked) : tree.Consistent :=
  ⟨linked.mem_children_iff, linked.nodup_children⟩

theorem adjacent (linked : tree.Linked) (parent : NodeId) :
    Adjacent tree.previous tree.next none none (tree.children parent) :=
  adjacent_iff_neighbours.mpr linked.neighbours

theorem mem_children (linked : tree.Linked) {parent child : NodeId}
    (attached : tree.parent child = some parent) : child ∈ tree.children parent :=
  linked.consistent.mem_children attached

theorem parent_of_mem (linked : tree.Linked) {parent child : NodeId}
    (listed : child ∈ tree.children parent) : tree.parent child = some parent :=
  linked.consistent.parent_of_mem listed

theorem parent_unique (linked : tree.Linked) {parent other child : NodeId}
    (listed : child ∈ tree.children parent) (elsewhere : child ∈ tree.children other) :
    parent = other :=
  linked.consistent.parent_unique listed elsewhere

theorem not_mem_of_detached (linked : tree.Linked) {child : NodeId}
    (detached : tree.parent child = none) (parent : NodeId) : child ∉ tree.children parent := by
  intro listed
  rw [linked.parent_of_mem listed] at detached
  cases detached

theorem lt_size_of_mem (linked : tree.Linked) {parent child : NodeId}
    (listed : child ∈ tree.children parent) : child < tree.size :=
  linked.consistent.lt_size_of_mem listed

theorem parent_lt_size (linked : tree.Linked) {parent child : NodeId}
    (attached : tree.parent child = some parent) : parent < tree.size :=
  lt_size_of_mem_children (linked.mem_children attached)

theorem not_below_self (linked : tree.Linked) (id : NodeId) : ¬ tree.Below id id :=
  linked.acyclic.transGen.irrefl.irrefl id

/-- A tree whose links read the same is linked as well. -/
theorem congr {after : Tree} (linked : tree.Linked)
    (parents : ∀ id, after.parent id = tree.parent id)
    (children : ∀ id, after.children id = tree.children id)
    (previous : ∀ id, after.previous id = tree.previous id)
    (next : ∀ id, after.next id = tree.next id) : after.Linked where
  mem_children_iff := by
    intro parent child
    rw [children, parents]
    exact linked.mem_children_iff
  nodup_children parent := by
    rw [children]
    exact linked.nodup_children parent
  neighbours := by
    intro parent front child back split
    rw [previous, next]
    exact linked.neighbours (children parent ▸ split)
  alone := by
    intro id detached
    rw [previous, next]
    exact linked.alone (parents id ▸ detached)
  acyclic := by
    have same : after.IsParent = tree.IsParent := by
      funext parent child
      simp [IsParent, parents]
    exact same ▸ linked.acyclic

theorem alloc (linked : tree.Linked) (payload : Payload) : (tree.alloc payload).1.Linked :=
  linked.congr (by simp) (by simp) (by simp) (by simp)

theorem setPayload (linked : tree.Linked) (id : NodeId) (payload : Payload) :
    (tree.setPayload id payload).Linked :=
  linked.congr (by simp) (by simp) (by simp) (by simp)

theorem setElement (linked : tree.Linked) (id : NodeId) (data : Element) :
    (tree.setElement id data).Linked :=
  linked.congr (by simp) (by simp) (by simp) (by simp)

end Linked

theorem linked_empty : empty.Linked where
  mem_children_iff := by
    intro parent child
    rcases parent with _ | parent <;> rcases child with _ | child <;>
      simp [empty, children, Tree.parent, get?, Node.ofPayload]
  nodup_children parent := by
    rcases parent with _ | parent <;> simp [empty, children, get?, Node.ofPayload]
  neighbours := by
    intro parent front child back split
    rcases parent with _ | parent <;> simp [empty, children, get?, Node.ofPayload] at split
  alone := by
    intro id _
    rcases id with _ | id <;> simp [empty, previous, next, get?, Node.ofPayload]
  acyclic := by
    refine ⟨fun id => ⟨id, fun parent attached => ?_⟩⟩
    rcases id with _ | id <;>
      simp [IsParent, empty, Tree.parent, get?, Node.ofPayload] at attached

end Tree

end SelectorTree
