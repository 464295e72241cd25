import SelectorTree.Proofs.Element.Keys
import SelectorTree.Proofs.Synthesis.Runs

/-!
# Paths of descriptors and of elements

Read as a trie, rules are paths of keys.  A descriptor extends the path of the
one before it, or replaces its last key if it describes a sibling.  In a tree
the path of an element is the keys from below a top node down to it.
-/

namespace SelectorTree

abbrev Path : Type := List Key

/-! ## Paths that rules speak about -/

/-- The path of a descriptor, given the path of the one before it; the first
descriptor of a chain comes after the empty path. -/
def Descriptor.path (previous : Path) (descriptor : Descriptor) : Path :=
  (if descriptor.combinator.isSibling then previous.dropLast else previous) ++
    [descriptor.element.key]

/-- The paths of the descriptors of a chain. -/
def chainPaths : Path → List Descriptor → List Path
  | _, [] => []
  | previous, descriptor :: rest =>
      descriptor.path previous :: chainPaths (descriptor.path previous) rest

/-- The paths of an alternative; there are none if it is not accepted. -/
def alternativePaths (alternative : ComplexSelector) : List Path :=
  match Descriptor.chain alternative with
  | .error _ => []
  | .ok chain => chainPaths [] chain

/-- All paths of some rules, in the order in which they occur. -/
def occurrences (rules : List TreeRule) : List Path :=
  rules.flatMap fun rule => rule.selectors.flatMap alternativePaths

/-- The contents of the alternatives that end on a path, in the order of the
rules. -/
def contentsAt (rules : List TreeRule) (path : Path) : List String :=
  rules.flatMap fun rule =>
    rule.selectors.flatMap fun alternative =>
      if (alternativePaths alternative).getLast? = some path then rule.content.toList else []

/-- What is shown on a path: the last content that ends there. -/
def shownAt (rules : List TreeRule) (path : Path) : Option String :=
  (contentsAt rules path).getLast?.map stripQuotes

/-! ## Paths in a tree -/

namespace Tree

/-- A node is reached from a top node by following a path of keys. -/
inductive PathTo (tree : Tree) (top : NodeId) : Path → NodeId → Prop where
  | top : PathTo tree top [] top
  | child {path : Path} {parent id : NodeId} {data : Element}
      (above : PathTo tree top path parent) (attached : tree.parent id = some parent)
      (found : tree.element? id = some data) : PathTo tree top (path ++ [data.key]) id

variable {tree before after : Tree} {top parent id : NodeId} {path other : Path}

theorem PathTo.eq_top (reached : tree.PathTo top [] id) : id = top := by
  generalize empty : ([] : Path) = path at reached
  cases reached with
  | top => rfl
  | child above attached found => simp at empty

theorem PathTo.exists_last {key : Key} (reached : tree.PathTo top (path ++ [key]) id) :
    ∃ parent data, tree.PathTo top path parent ∧ tree.parent id = some parent ∧
      tree.element? id = some data ∧ data.key = key := by
  generalize whole : path ++ [key] = full at reached
  cases reached with
  | top => simp at whole
  | child above attached found =>
      obtain ⟨rfl, sameKey⟩ := List.append_inj' whole rfl
      exact ⟨_, _, above, attached, found, (List.singleton_inj.mp sameKey).symm⟩

theorem PathTo.element_below (reached : tree.PathTo top path id) (nonempty : path ≠ []) :
    tree.Below top id ∧ tree.isElement id = true := by
  induction reached with
  | top => exact absurd rfl nonempty
  | @child path parent id data above attached found ih =>
      refine ⟨?_, isElement_iff.mpr ⟨data, found⟩⟩
      cases path with
      | nil => exact .single (above.eq_top ▸ attached)
      | cons first rest => exact .tail (ih (List.cons_ne_nil first rest)).1 attached

/-- The path of a node is determined. -/
theorem PathTo.unique (linked : tree.Linked) (reached : tree.PathTo top path id)
    (again : tree.PathTo top other id) : path = other := by
  induction reached generalizing other with
  | top =>
      by_contra different
      exact linked.not_below_self top (again.element_below fun empty => different empty.symm).1
  | @child path parent id data above attached found ih =>
      rcases List.eq_nil_or_concat other with rfl | ⟨front, key, rfl⟩
      · have atTop := again.eq_top
        subst atTop
        have reached : tree.PathTo id (path ++ [data.key]) id := .child above attached found
        exact absurd (reached.element_below (by simp)).1 (linked.not_below_self id)
      · rw [List.concat_eq_append] at again ⊢
        obtain ⟨_, _, aboveAgain, attachedAgain, foundAgain, rfl⟩ := again.exists_last
        cases attached.symm.trans attachedAgain
        cases found.symm.trans foundAgain
        rw [ih aboveAgain]

/-- Nodes that were there keep their parents and keys. -/
structure Extends (before after : Tree) : Prop where
  parent_eq : ∀ id : Nat, id < before.size → after.parent id = before.parent id
  key_eq : ∀ id : Nat, id < before.size →
    (after.element? id).map Element.key = (before.element? id).map Element.key

/-- Nodes that were there keep their paths. -/
theorem Extends.pathTo_iff (extended : Extends before after) (linked : before.Linked)
    (old : id < before.size) : after.PathTo top path id ↔ before.PathTo top path id := by
  constructor
  · intro reached
    induction reached with
    | top => exact .top
    | @child path parent id data above attached found ih =>
        rw [extended.parent_eq id old] at attached
        have sameKey := extended.key_eq id old
        rw [found] at sameKey
        obtain ⟨dataBefore, foundBefore, keyEq⟩ := Option.map_eq_some_iff.mp sameKey.symm
        rw [← keyEq]
        exact .child (ih (linked.parent_lt_size attached)) attached foundBefore
  · intro reached
    induction reached with
    | top => exact .top
    | @child path parent id data above attached found ih =>
        have sameKey := extended.key_eq id old
        rw [found] at sameKey
        obtain ⟨dataAfter, foundAfter, keyEq⟩ := Option.map_eq_some_iff.mp sameKey
        have attachedAfter := (extended.parent_eq id old).trans attached
        rw [← keyEq]
        exact .child (ih (linked.parent_lt_size attached)) attachedAfter foundAfter

end Tree

end SelectorTree
