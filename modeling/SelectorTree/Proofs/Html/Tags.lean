import SelectorTree.Proofs.Element.Names
import SelectorTree.Proofs.Html.Scanning
import SelectorTree.Proofs.Sanitizer.Pruning

/-!
# Tags of trees

Every tag in the text of a tree belongs to an element of the tree.  So what a scanner finds
there is as plain as the names of the elements, and as harmless as the elements.
-/

namespace SelectorTree

open Text

namespace Html

/-- A tag that begins no forbidden element, and has no attribute that would run a script. -/
structure Tag.Harmless (tag : Tag) : Prop where
  allowed : tag.closing = false →
    tag.name.map Char.toLower ∉ Sanitizer.forbiddenTags.map String.toList
  safe : ∀ name ∈ tag.attributes,
    ¬"on".toList <+: name.map Char.toLower ∧ name.map Char.toLower ≠ "srcdoc".toList

instance (tag : Tag) : Decidable tag.Harmless :=
  decidable_of_iff
    ((tag.closing = false → tag.name.map Char.toLower ∉ Sanitizer.forbiddenTags.map String.toList) ∧
      ∀ name ∈ tag.attributes,
        ¬"on".toList <+: name.map Char.toLower ∧ name.map Char.toLower ≠ "srcdoc".toList)
    ⟨fun ⟨allowed, safe⟩ => ⟨allowed, safe⟩, fun harmless => ⟨harmless.allowed, harmless.safe⟩⟩

variable {data : Element}

/-- No name character ends a name. -/
theorem endsAttributeName_of_isNameChar {c : Char} (nameChar : isNameChar c = true) :
    endsAttributeName c = false := by
  rw [Bool.eq_false_iff]
  intro ends
  simp only [endsAttributeName, endsTagName, isWordBlank, Bool.or_eq_true, beq_iff_eq] at ends
  rcases ends with ((((((rfl | rfl) | rfl) | rfl) | rfl) | rfl) | rfl) | rfl <;> cases nameChar

theorem endsTagName_of_isNameChar {c : Char} (nameChar : isNameChar c = true) :
    endsTagName c = false :=
  (Bool.or_eq_false_iff.mp (endsAttributeName_of_isNameChar nameChar)).1

theorem plain_startOf (names : data.PlainNames) : (startOf data).Plain where
  name c member := endsTagName_of_isNameChar (names.tag.chars c member)
  attributes := by
    refine List.forall_mem_map.mpr fun entry shown => ?_
    have plain : PlainName entry.1 := by
      rcases mem_shownAttributes shown with name | name | inMap
      · rw [name]
        decide
      · rw [name]
        decide
      · exact names.attributes entry inMap
    exact ⟨by simpa using plain.named, fun c member =>
      endsAttributeName_of_isNameChar (plain.chars c member)⟩

theorem plain_endOf (names : data.PlainNames) : (endOf data).Plain where
  name c member := endsTagName_of_isNameChar (names.tag.chars c member)
  attributes := List.forall_mem_nil _

/-- The tags of a harmless element are harmless. -/
theorem harmless_startOf (harmless : Sanitizer.Harmless data) : (startOf data).Harmless where
  allowed := by
    rintro - inTable
    obtain ⟨forbidden, listed, same⟩ := List.mem_map.mp inTable
    apply harmless.allowed
    have equal : lower data.tag = forbidden := by
      rw [← String.toList_inj, toList_lower, same]
      rfl
    rwa [Sanitizer.Forbidden, equal]
  safe := by
    refine List.forall_mem_map.mpr fun entry shown => ?_
    rcases mem_shownAttributes shown with name | name | inMap
    · rw [name]
      decide
    · rw [name]
      decide
    · have safe := harmless.safe entry inMap
      simp only [Sanitizer.isUnsafeAttribute, Bool.or_eq_false_iff, toList_lower] at safe
      obtain ⟨⟨handler, document⟩, -⟩ := safe
      refine ⟨fun begins => ?_, fun same => ?_⟩
      · rw [List.isPrefixOf_iff_prefix.mpr begins] at handler
        cases handler
      · rw [beq_eq_false_iff_ne] at document
        exact document (String.toList_inj.mp (by rw [toList_lower, same]))

theorem harmless_endOf (data : Element) : (endOf data).Harmless :=
  ⟨nofun, List.forall_mem_nil _⟩

theorem tagsOfAll_eq_flatMap (branches : List Branch) :
    tagsOfAll branches = branches.flatMap tags := by
  induction branches with
  | nil => rfl
  | cons branch rest ih => rw [tagsOfAll, ih, List.flatMap_cons]

end Html

namespace Tree

variable {tree : Tree} {top : NodeId} {tag : Html.Tag}

/-- The tags that a node and everything below it are written with, in order. -/
def tags (tree : Tree) (id : NodeId) : List Html.Tag :=
  ((tree.branch? id).map Html.tags).getD []

/-- A scanner finds the tags of a tree and no others exactly if all of them are plain. -/
theorem scan_outerHtml_eq_iff :
    Html.scan (tree.outerHtml top).toList = tree.tags top ↔ ∀ tag ∈ tree.tags top, tag.Plain := by
  rw [outerHtml, writeWith, String.toList_ofList, tags]
  cases tree.branch? top with
  | none => simp [Html.scan]
  | some branch => exact Html.scan_outer_eq_iff branch

theorem exists_element_of_mem_branchTags (linked : tree.Linked) {depth : Nat} {branch : Branch}
    (walked : tree.branchWithin depth top = some branch) (member : tag ∈ Html.tags branch) :
    ∃ id data, tree.Within top id ∧ tree.element? id = some data ∧
      (tag = Html.startOf data ∨ tag = Html.endOf data) := by
  induction depth generalizing top branch with
  | zero => cases walked
  | succ depth ih =>
      obtain ⟨node, get, rfl⟩ := Option.map_eq_some_iff.mp walked
      have payload : tree.payload? top = some node.payload := by simp [payload?, get]
      -- A tag of a child belongs to an element below the child.
      have inside : tag ∈ Html.tagsOfAll (node.children.filterMap (tree.branchWithin depth)) →
          ∃ id data, tree.Within top id ∧ tree.element? id = some data ∧
            (tag = Html.startOf data ∨ tag = Html.endOf data) := by
        rw [Html.tagsOfAll_eq_flatMap, List.mem_flatMap]
        rintro ⟨branch, found, written⟩
        obtain ⟨child, listed, walkedChild⟩ := List.mem_filterMap.mp found
        obtain ⟨id, data, within, rest⟩ := ih walkedChild written
        have children : tree.children top = node.children := by simp [Tree.children, get]
        exact ⟨id, data, .head (linked.parent_of_mem (children ▸ listed)) within, rest⟩
      cases kind : node.payload with
      | text content =>
          rw [kind, Html.tags] at member
          cases member
      | document =>
          rw [kind, Html.tags] at member
          exact inside member
      | element data =>
          have found : tree.element? top = some data := element?_eq_some_iff.mpr (kind ▸ payload)
          rw [kind, Html.tags] at member
          split at member
          · exact ⟨top, data, .refl, found, Or.inl (List.mem_singleton.mp member)⟩
          · rcases List.mem_append.mp member with front | last
            · rcases List.mem_cons.mp front with first | written
              · exact ⟨top, data, .refl, found, Or.inl first⟩
              · exact inside written
            · exact ⟨top, data, .refl, found, Or.inr (List.mem_singleton.mp last)⟩

/-- Every tag of a tree belongs to one of its elements. -/
theorem exists_element_of_mem_tags (linked : tree.Linked) (member : tag ∈ tree.tags top) :
    ∃ id data, tree.Within top id ∧ tree.element? id = some data ∧
      (tag = Html.startOf data ∨ tag = Html.endOf data) := by
  rw [tags] at member
  cases walked : tree.branch? top with
  | none =>
      rw [walked] at member
      cases member
  | some branch =>
      rw [walked] at member
      exact exists_element_of_mem_branchTags linked walked member

end Tree

end SelectorTree
