import SelectorTree.Proofs.Synthesis.Frame

/-!
# Showing one content at several elements

Showing a content that is shown already changes nothing, so it does not matter
how often an element is among the targets.  Elements keep their places, and
only the targets have other data or another text.
-/

namespace SelectorTree

/-- What shows a content holds it, whatever it held before. -/
theorem Element.withContent_withContent (element : Element) (content : String) :
    (element.withContent content).withContent content = element.withContent content :=
  (element.displays_withContent content).withContent_eq

namespace Tree

variable {tree before after : Tree} {id : NodeId} {content : String} {targets : List NodeId}

/-- An element shows a content where its kind shows it. -/
def Displays (tree : Tree) (id : NodeId) (content : String) : Prop :=
  ∃ data, tree.element? id = some data ∧ data.Displays content ∧
    ((ElementKind.ofTag data.tag).usesText = true → tree.texts id = [content])

theorem setText_eq_self (shown : tree.texts id = [content]) : tree.setText id content = tree := by
  cases first : tree.firstTextChild id with
  | none =>
      rw [firstTextChild_eq_none_iff.mp first] at shown
      cases shown
  | some text =>
      have isText : (tree.text? text).isSome = true :=
        List.find?_some (p := fun child => (tree.text? child).isSome) first
      obtain ⟨old, found⟩ := Option.isSome_iff_exists.mp isText
      have member : old ∈ tree.texts id :=
        List.mem_filterMap.mpr ⟨text, List.mem_of_find?_eq_some first, found⟩
      rw [shown] at member
      cases List.mem_singleton.mp member
      rw [setText, first]
      rw [text?] at found
      split at found
      · next payload =>
          cases found
          exact setPayload_self payload
      · cases found

theorem setContent_eq_self (displays : tree.Displays id content) :
    tree.setContent id content = tree := by
  obtain ⟨data, found, holds, shown⟩ := displays
  rw [setContent_eq found, holds.withContent_eq, setElement_self found]
  split
  · next usesText => exact setText_eq_self (shown usesText)
  · rfl

section SetContent

variable (linked : tree.Linked) (element : tree.isElement id = true) (content : String)

include linked element

theorem isElement_setContent (other : NodeId) :
    (tree.setContent id content).isElement other = tree.isElement other := by
  obtain ⟨data, found⟩ := isElement_iff.mp element
  have foundAfter := element?_setContent_self linked found content
  have same := element.trans (isElement_iff.mpr ⟨_, foundAfter⟩).symm
  exact (shown_setContent linked found content).isElement_eq same other

omit element in
/-- A single text gives way to the content. -/
theorem texts_setContent_of_few {data : Element} (found : tree.element? id = some data)
    (few : (tree.texts id).length ≤ 1) :
    (tree.setContent id content).texts id =
      if (ElementKind.ofTag data.tag).usesText = true then [content] else tree.texts id := by
  have alone : (tree.texts id).tail = [] := by
    apply List.eq_nil_of_length_eq_zero
    rw [List.length_tail]
    omega
  rw [texts_setContent_self linked found, alone]

theorem displays_setContent (few : (tree.texts id).length ≤ 1) :
    (tree.setContent id content).Displays id content := by
  obtain ⟨data, found⟩ := isElement_iff.mp element
  refine ⟨_, element?_setContent_self linked found content, data.displays_withContent content, ?_⟩
  intro usesText
  rw [Element.tag_withContent] at usesText
  rw [texts_setContent_of_few linked content found few, if_pos usesText]

end SetContent

theorem Shown.displays {other : NodeId} (shown : Shown before after id) (different : other ≠ id)
    (displays : before.Displays other content) : after.Displays other content := by
  obtain ⟨data, found, holds, texts⟩ := displays
  refine ⟨data, (shown.element?_of_ne other different).trans found, holds, fun usesText => ?_⟩
  rw [shown.texts_of_ne other different, texts usesText]

/-- The tree with a content, or none, shown at a node. -/
def showAt (tree : Tree) (content? : Option String) (id : NodeId) : Tree :=
  match content? with
  | none => tree
  | some content => tree.setContent id (stripQuotes content)

theorem foldl_showAt_none (tree : Tree) (targets : List NodeId) :
    targets.foldl (showAt · none) tree = tree := by
  induction targets with
  | nil => rfl
  | cons first rest ih => exact ih

theorem foldl_showAt_eq_self
    (displays : ∀ id ∈ targets, tree.Displays id (stripQuotes content)) :
    targets.foldl (showAt · (some content)) tree = tree := by
  induction targets with
  | nil => rfl
  | cons first rest ih =>
      have unchanged : tree.showAt (some content) first = tree :=
        setContent_eq_self (displays first List.mem_cons_self)
      rw [List.foldl_cons, unchanged]
      exact ih fun id member => displays id (List.mem_cons_of_mem first member)

/-- A content has been shown at some elements, and nothing else happened. -/
structure Refreshed (before after : Tree) (targets : List NodeId) (content : String) :
    Prop where
  isElement_eq : ∀ id, after.isElement id = before.isElement id
  elementChildren_eq : ∀ id, after.elementChildren id = before.elementChildren id
  parent_eq : ∀ id : Nat, id < before.size → after.parent id = before.parent id
  children_eq : ∀ id, id ∉ targets → after.children id = before.children id
  element?_eq : ∀ id, id ∉ targets → after.element? id = before.element? id
  texts_eq : ∀ id, id ∉ targets → after.texts id = before.texts id
  shown : ∀ id ∈ targets, ∃ data, before.element? id = some data ∧
    after.element? id = some (data.withContent content) ∧
    after.texts id =
      if (ElementKind.ofTag data.tag).usesText = true then [content] else before.texts id

theorem refreshed_nil (tree : Tree) (content : String) : Refreshed tree tree [] content :=
  ⟨fun _ => rfl, fun _ => rfl, fun _ _ => rfl, fun _ _ => rfl, fun _ _ => rfl, fun _ _ => rfl,
    fun _ member => absurd member List.not_mem_nil⟩

theorem Refreshed.cons {first : NodeId} {rest : List NodeId} (linked : tree.Linked)
    (element : tree.isElement first = true) (few : (tree.texts first).length ≤ 1)
    (refreshed : Refreshed (tree.setContent first content) after rest content) :
    Refreshed tree after (first :: rest) content := by
  obtain ⟨data, found⟩ := isElement_iff.mp element
  have shown := shown_setContent linked found content
  have foundFirst := element?_setContent_self linked found content
  have textsFirst := texts_setContent_of_few linked content found few
  have outside_iff : ∀ {id}, id ∉ first :: rest → id ≠ first ∧ id ∉ rest :=
    fun outside => not_or.mp fun either => outside (List.mem_cons.mpr either)
  refine ⟨?_, ?_, ?_, ?_, ?_, ?_, ?_⟩
  · exact fun id =>
      (refreshed.isElement_eq id).trans (isElement_setContent linked element content id)
  · exact fun id => (refreshed.elementChildren_eq id).trans (shown.elementChildren_eq id)
  · intro id old
    exact (refreshed.parent_eq id (Nat.lt_of_lt_of_le old shown.size_le)).trans
      (shown.parent_of_lt id old)
  · intro id outside
    obtain ⟨different, notRest⟩ := outside_iff outside
    exact (refreshed.children_eq id notRest).trans (shown.children_of_ne id different)
  · intro id outside
    obtain ⟨different, notRest⟩ := outside_iff outside
    exact (refreshed.element?_eq id notRest).trans (shown.element?_of_ne id different)
  · intro id outside
    obtain ⟨different, notRest⟩ := outside_iff outside
    exact (refreshed.texts_eq id notRest).trans (shown.texts_of_ne id different)
  · intro id member
    by_cases same : id = first
    · subst same
      refine ⟨data, found, ?_⟩
      by_cases again : id ∈ rest
      · obtain ⟨changed, foundChanged, foundAfter, texts⟩ := refreshed.shown id again
        cases foundFirst.symm.trans foundChanged
        rw [Element.withContent_withContent] at foundAfter
        rw [Element.tag_withContent, textsFirst] at texts
        refine ⟨foundAfter, ?_⟩
        rw [texts]
        split <;> rfl
      · rw [refreshed.element?_eq id again, refreshed.texts_eq id again]
        exact ⟨foundFirst, textsFirst⟩
    · have inRest := (List.mem_cons.mp member).resolve_left same
      obtain ⟨other, foundOther, foundAfter, texts⟩ := refreshed.shown id inRest
      rw [shown.element?_of_ne id same] at foundOther
      rw [shown.texts_of_ne id same] at texts
      exact ⟨other, foundOther, foundAfter, texts⟩

/-- Showing a content at several elements, one after the other. -/
theorem refreshed_foldl (linked : tree.Linked)
    (elements : ∀ id ∈ targets, tree.isElement id = true)
    (few : ∀ id, (tree.texts id).length ≤ 1) (content : String) :
    Refreshed tree (targets.foldl (fun tree id => tree.setContent id content) tree) targets
      content := by
  induction targets generalizing tree with
  | nil => exact refreshed_nil tree content
  | cons first rest ih =>
      have element := elements first List.mem_cons_self
      obtain ⟨data, found⟩ := isElement_iff.mp element
      have shown := shown_setContent linked found content
      apply Refreshed.cons linked element (few first)
      apply ih shown.linked
      · intro id member
        rw [isElement_setContent linked element]
        exact elements id (List.mem_cons_of_mem first member)
      · intro id
        have fewHere := few id
        by_cases same : id = first
        · subst same
          rw [texts_setContent_of_few linked content found fewHere]
          split
          · exact Nat.le_refl 1
          · exact fewHere
        · rw [shown.texts_of_ne id same]
          exact fewHere

end Tree

end SelectorTree
