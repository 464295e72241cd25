import Mathlib.Data.List.Chain
import Mathlib.Data.List.Forall2
import SelectorTree.Proofs.Html.StartTags
import SelectorTree.Proofs.Tree.Descendants
import SelectorTree.Proofs.Tree.Leaves

/-!
# Reading subtrees

The text of a subtree determines the subtree: its tags, ids, classes, attributes
and texts, and the order of nodes.
-/

namespace SelectorTree

/-- Data that is written the same: elements with the same markup, or the same text. -/
def Payload.SameMarkup : Payload → Payload → Prop
  | .document, .document => True
  | .text left, .text right => left = right
  | .element left, .element right => Html.SameMarkup left right
  | _, _ => False

namespace Tree

/-- Two subtrees with the same markup at every node. -/
inductive Alike (left right : Tree) : NodeId → NodeId → Prop where
  | node {id other : NodeId} {payload payload' : Payload}
      (found : left.payload? id = some payload) (foundOther : right.payload? other = some payload')
      (same : payload.SameMarkup payload')
      (children : List.Forall₂ (Alike left right) (left.children id) (right.children other)) :
      Alike left right id other

variable {tree left right : Tree} {top id other : NodeId} {payload : Payload} {depth : Nat}

/-! ## What is written of a node -/

/-- The text of a node and everything below it. -/
def written (tree : Tree) (id : NodeId) : List Char :=
  ((tree.branch? id).map Html.outer).getD []

theorem outerHtml_eq_iff :
    left.outerHtml id = right.outerHtml other ↔ left.written id = right.written other :=
  String.ofList_inj

/-- Every walk down that is long enough meets the same nodes. -/
theorem branchWithin_eq (linked : tree.Linked) {limit : Nat}
    (enough : (tree.subtree id).card < depth) (enoughOther : (tree.subtree id).card < limit) :
    tree.branchWithin depth id = tree.branchWithin limit id := by
  induction depth generalizing id limit with
  | zero => exact absurd enough (Nat.not_lt_zero _)
  | succ depth ih =>
      obtain _ | limit := limit
      · exact absurd enoughOther (Nat.not_lt_zero _)
      rw [branchWithin, branchWithin]
      cases found : tree.get? id with
      | none => rfl
      | some node =>
          have children : tree.children id = node.children := by simp [Tree.children, found]
          have same : node.children.filterMap (tree.branchWithin depth) =
              node.children.filterMap (tree.branchWithin limit) := by
            refine List.filterMap_congr fun child listed => ?_
            have fewer := card_subtree_lt linked (linked.parent_of_mem (children ▸ listed))
            exact ih (by omega) (by omega)
          simp only [Option.map_some, same]

theorem outerAll_filterMap (branch? : NodeId → Option Branch) (ids : List NodeId) :
    Html.outerAll (ids.filterMap branch?) =
      ids.flatMap fun id => ((branch? id).map Html.outer).getD [] := by
  induction ids with
  | nil => rfl
  | cons id rest ih =>
      cases found : branch? id with
      | none => simp [found, ih]
      | some branch => simp [found, ih, Html.outerAll]

/-- A node is written from its data and from what is written of its children. -/
def enclosed : Payload → List Char → List Char
  | .text content, _ => Html.text content
  | .document, inside => inside
  | .element data, inside =>
    Html.startTag data ++ if isVoid data.tag then [] else inside ++ Html.endTag data

theorem written_eq (linked : tree.Linked) (found : tree.payload? id = some payload) :
    tree.written id = enclosed payload ((tree.children id).flatMap tree.written) := by
  obtain ⟨node, get, rfl⟩ := Option.map_eq_some_iff.mp found
  have children : tree.children id = node.children := by simp [Tree.children, get]
  have below : Html.outerAll (node.children.filterMap (tree.branchWithin tree.size)) =
      (tree.children id).flatMap tree.written := by
    rw [outerAll_filterMap, children]
    refine List.flatMap_congr fun child listed => ?_
    have fewer := card_subtree_lt linked (linked.parent_of_mem (children ▸ listed))
    have bound := tree.card_subtree_le id
    have same : tree.branchWithin tree.size child = tree.branchWithin (tree.size + 1) child :=
      branchWithin_eq linked (by omega) (by omega)
    rw [written, branch?, same]
  rw [written, branch?, branchWithin, get, Option.map_some, Option.map_some, Option.getD_some]
  cases node.payload with
  | document => simp only [Html.outer, enclosed, below]
  | text content => rfl
  | element data =>
      simp only [Html.outer, enclosed, below]
      split
      · rw [List.append_nil]
      · rw [List.append_assoc]

/-! ## Subtrees that can be read -/

/-- Data that can be read: of an element, or of a text that is not empty. -/
def LegibleData : Payload → Prop
  | .document => False
  | .text content => content ≠ ""
  | .element data => Html.Legible data

/-- No text stands right behind another one. -/
def TextsApart (tree : Tree) (ids : List NodeId) : Prop :=
  ids.IsChain fun first second =>
    ¬((tree.text? first).isSome = true ∧ (tree.text? second).isSome = true)

/-- A node with legible data, without children if it is void, and without two texts
in a row among its children. -/
structure LegibleNode (tree : Tree) (id : NodeId) : Prop where
  data : ∃ payload ∈ tree.payload? id, LegibleData payload
  void : ∀ data ∈ tree.element? id, isVoid data.tag = true → tree.children id = []
  apart : tree.TextsApart (tree.children id)

instance (payload : Payload) : Decidable (LegibleData payload) :=
  match payload with
  | .document => isFalse fun legible => legible
  | .text content => inferInstanceAs (Decidable (content ≠ ""))
  | .element data => inferInstanceAs (Decidable (Html.Legible data))

instance (tree : Tree) (id : NodeId) : Decidable (tree.LegibleNode id) :=
  decidable_of_iff
    ((∃ payload ∈ tree.payload? id, LegibleData payload) ∧
      (∀ data ∈ tree.element? id, isVoid data.tag = true → tree.children id = []) ∧
      (tree.children id).IsChain fun first second =>
        ¬((tree.text? first).isSome = true ∧ (tree.text? second).isSome = true))
    ⟨fun ⟨data, void, apart⟩ => ⟨data, void, apart⟩,
      fun legible => ⟨legible.data, legible.void, legible.apart⟩⟩

/-- A subtree of elements and texts that can be read, apart from what is below texts. -/
def Legible (tree : Tree) (top : NodeId) : Prop := ∀ id, tree.Within top id → tree.LegibleNode id

/-- The texts of a subtree have no children. -/
def BareTexts (tree : Tree) (top : NodeId) : Prop :=
  ∀ id, tree.Within top id → (tree.text? id).isSome = true → tree.children id = []

/-! ## Reading -/

/-- A linked tree in which a subtree can be read. -/
structure Clear (tree : Tree) (top : NodeId) : Prop where
  linked : tree.Linked
  legible : tree.Legible top
  bare : tree.BareTexts top

namespace Clear

theorem of_child (clear : tree.Clear top) (listed : id ∈ tree.children top) :
    tree.Clear id where
  linked := clear.linked
  legible lower within := clear.legible lower (.head (clear.linked.parent_of_mem listed) within)
  bare lower within := clear.bare lower (.head (clear.linked.parent_of_mem listed) within)

theorem text_or_element (clear : tree.Clear top) :
    (∃ content, tree.payload? top = some (.text content) ∧ content ≠ "") ∨
      ∃ data, tree.payload? top = some (.element data) ∧ Html.Legible data := by
  obtain ⟨payload, found, legible⟩ := (clear.legible top .refl).data
  cases payload with
  | document => exact absurd legible id
  | text content => exact .inl ⟨content, found, legible⟩
  | element data => exact .inr ⟨data, found, legible⟩

theorem legible_data (clear : tree.Clear top) {data : Element}
    (found : tree.payload? top = some (.element data)) : Html.Legible data := by
  obtain ⟨payload, isPayload, legible⟩ := (clear.legible top .refl).data
  cases found.symm.trans isPayload
  exact legible

theorem exists_written_of_text (clear : tree.Clear top) {content : String}
    (found : tree.payload? top = some (.text content)) (nonempty : content ≠ "") :
    ∃ head tail, tree.written top = head :: tail ∧ head ≠ '<' := by
  obtain ⟨c, later, chars⟩ := List.exists_cons_of_ne_nil
    (show content.toList ≠ [] by simpa using nonempty)
  obtain ⟨head, tail, first, different⟩ := Html.readable_textChar.starts c
  rw [written_eq clear.linked found, enclosed, Html.text, chars, List.flatMap_cons, first]
  exact ⟨head, _, rfl, different⟩

theorem exists_written_of_element (clear : tree.Clear top) {data : Element}
    (found : tree.payload? top = some (.element data)) (legible : Html.Legible data) :
    ∃ c tail, tree.written top = '<' :: c :: tail ∧ c ≠ '/' := by
  rw [written_eq clear.linked found, enclosed]
  exact Html.exists_startTag_append legible _

/-- No node begins like an end tag. -/
theorem written_ne_end (clear : tree.Clear top) (rest behind : List Char) :
    tree.written top ++ rest ≠ '<' :: '/' :: behind := by
  rcases clear.text_or_element with ⟨content, found, nonempty⟩ | ⟨data, found, legible⟩
  · obtain ⟨head, tail, written, different⟩ := clear.exists_written_of_text found nonempty
    rw [written]
    exact fun same => different (List.cons.inj same).1
  · obtain ⟨c, tail, written, different⟩ := clear.exists_written_of_element found legible
    rw [written]
    exact fun same => different (List.cons.inj (List.cons.inj same).2).1

/-- What follows a text among its siblings begins with a tag. -/
theorem marked_behind {ids : List NodeId} (clears : ∀ id ∈ ids, tree.Clear id)
    (first : ∀ id ∈ ids.head?, ¬(tree.text? id).isSome = true) (behind : List Char) :
    Html.Marked '<' (ids.flatMap tree.written ++ '<' :: behind) := by
  cases ids with
  | nil => exact Html.marked_cons '<' behind
  | cons id later =>
      have clear := clears id List.mem_cons_self
      rcases clear.text_or_element with ⟨content, found, -⟩ | ⟨data, found, legible⟩
      · exact absurd (by simp [text?, found]) (first id rfl)
      · obtain ⟨c, tail, written, -⟩ := clear.exists_written_of_element found legible
        rw [List.flatMap_cons, written]
        exact Html.marked_cons '<' _

/-- Texts end where a tag begins. -/
theorem alike_of_texts {content content' : String} {rest behind : List Char}
    (clear : left.Clear id) (clearOther : right.Clear other)
    (found : left.payload? id = some (.text content))
    (foundOther : right.payload? other = some (.text content'))
    (marked : Html.Marked '<' rest) (markedOther : Html.Marked '<' behind)
    (same : left.written id ++ rest = right.written other ++ behind) :
    Alike left right id other ∧ rest = behind := by
  rw [written_eq clear.linked found, written_eq clearOther.linked foundOther] at same
  obtain ⟨contents, rests⟩ := Html.readable_textChar.cancel marked markedOther same
  refine ⟨.node found foundOther (String.toList_inj.mp contents) ?_, rests⟩
  rw [clear.bare id .refl (by simp [text?, found]),
    clearOther.bare other .refl (by simp [text?, foundOther])]
  exact .nil

/-- The first character tells texts from elements. -/
theorem alike_of_written {rest behind : List Char}
    (clear : left.Clear id) (clearOther : right.Clear other)
    (marked : (left.text? id).isSome = true → Html.Marked '<' rest)
    (markedOther : (right.text? other).isSome = true → Html.Marked '<' behind)
    (elements : left.isElement id = true → right.isElement other = true →
      Alike left right id other ∧ rest = behind)
    (same : left.written id ++ rest = right.written other ++ behind) :
    Alike left right id other ∧ rest = behind := by
  rcases clear.text_or_element with ⟨content, found, nonempty⟩ | ⟨data, found, legible⟩
  · rcases clearOther.text_or_element with
      ⟨content', found', nonempty'⟩ | ⟨data', found', legible'⟩
    · apply alike_of_texts clear clearOther found found' _ _ same
      · exact marked (by simp [text?, found])
      · exact markedOther (by simp [text?, found'])
    · obtain ⟨head, tail, written, different⟩ := clear.exists_written_of_text found nonempty
      obtain ⟨c, tail', written', -⟩ := clearOther.exists_written_of_element found' legible'
      rw [written, written'] at same
      exact absurd (List.cons.inj same).1 different
  · rcases clearOther.text_or_element with
      ⟨content', found', nonempty'⟩ | ⟨data', found', legible'⟩
    · obtain ⟨c, tail, written, -⟩ := clear.exists_written_of_element found legible
      obtain ⟨head, tail', written', different⟩ :=
        clearOther.exists_written_of_text found' nonempty'
      rw [written, written'] at same
      exact absurd (List.cons.inj same).1.symm different
    · apply elements
      · exact isElement_iff.mpr ⟨data, element?_eq_some_iff.mpr found⟩
      · exact isElement_iff.mpr ⟨data', element?_eq_some_iff.mpr found'⟩

/-- Children are read one after the other, up to the end tag of their parent. -/
theorem alike_children {ids others : List NodeId} {rest behind : List Char}
    (clears : ∀ id ∈ ids, left.Clear id) (clearsOther : ∀ id ∈ others, right.Clear id)
    (apart : left.TextsApart ids) (apartOther : right.TextsApart others)
    (elements : ∀ id ∈ ids, ∀ other ∈ others, left.isElement id = true →
      right.isElement other = true → ∀ {rest behind},
        left.written id ++ rest = right.written other ++ behind →
          Alike left right id other ∧ rest = behind)
    (same : ids.flatMap left.written ++ '<' :: '/' :: rest =
      others.flatMap right.written ++ '<' :: '/' :: behind) :
    List.Forall₂ (Alike left right) ids others ∧ rest = behind := by
  induction ids generalizing others with
  | nil =>
      cases others with
      | nil => exact ⟨.nil, (List.cons.inj (List.cons.inj same).2).2⟩
      | cons other later =>
          rw [List.flatMap_cons, List.append_assoc] at same
          exact absurd same.symm ((clearsOther other List.mem_cons_self).written_ne_end _ _)
  | cons id earlier ih =>
      rw [List.flatMap_cons, List.append_assoc] at same
      cases others with
      | nil => exact absurd same ((clears id List.mem_cons_self).written_ne_end _ _)
      | cons other later =>
          rw [List.flatMap_cons, List.append_assoc] at same
          obtain ⟨next, apartEarlier⟩ := List.isChain_cons.mp apart
          obtain ⟨nextOther, apartLater⟩ := List.isChain_cons.mp apartOther
          have clearsEarlier := fun id member => clears id (.tail _ member)
          have clearsLater := fun id member => clearsOther id (.tail _ member)
          have tagNext : (left.text? id).isSome = true →
              Html.Marked '<' (earlier.flatMap left.written ++ '<' :: '/' :: rest) :=
            fun isText => marked_behind clearsEarlier
              (fun id member isNext => next id member ⟨isText, isNext⟩) _
          have tagNextOther : (right.text? other).isSome = true →
              Html.Marked '<' (later.flatMap right.written ++ '<' :: '/' :: behind) :=
            fun isText => marked_behind clearsLater
              (fun id member isNext => nextOther id member ⟨isText, isNext⟩) _
          obtain ⟨alike, behindFirst⟩ := alike_of_written (clears id List.mem_cons_self)
            (clearsOther other List.mem_cons_self) tagNext tagNextOther
            (fun element elementOther =>
              elements id List.mem_cons_self other List.mem_cons_self element elementOther same)
            same
          obtain ⟨others, rests⟩ := ih clearsEarlier clearsLater apartEarlier apartLater
            (fun id member other memberOther =>
              elements id (.tail _ member) other (.tail _ memberOther)) behindFirst
          exact ⟨.cons alike others, rests⟩

/-- An element can be told from what follows it, by induction on the number of
nodes below it. -/
theorem alike_of_elements {limit : Nat} {rest behind : List Char}
    (enough : (left.subtree id).card < limit)
    (clear : left.Clear id) (clearOther : right.Clear other) (element : left.isElement id = true)
    (elementOther : right.isElement other = true)
    (same : left.written id ++ rest = right.written other ++ behind) :
    Alike left right id other ∧ rest = behind := by
  induction limit generalizing id other rest behind with
  | zero => exact absurd enough (Nat.not_lt_zero _)
  | succ limit ih =>
      obtain ⟨data, isData⟩ := isElement_iff.mp element
      obtain ⟨data', isData'⟩ := isElement_iff.mp elementOther
      have found := payload?_eq_of_element? isData
      have found' := payload?_eq_of_element? isData'
      have legible := clear.legible_data found
      have legible' := clearOther.legible_data found'
      rw [written_eq clear.linked found, written_eq clearOther.linked found', enclosed, enclosed,
        List.append_assoc, List.append_assoc] at same
      obtain ⟨markup, inside⟩ := Html.cancel_startTag legible legible' same
      rw [← markup.tag] at inside
      by_cases void : isVoid data.tag = true
      · rw [if_pos void, if_pos void, List.nil_append, List.nil_append] at inside
        refine ⟨.node found found' markup ?_, inside⟩
        rw [(clear.legible id .refl).void data isData void,
          (clearOther.legible other .refl).void data' isData' (markup.tag ▸ void)]
        exact .nil
      · rw [if_neg void, if_neg void, List.append_assoc, List.append_assoc, Html.endTag_append,
          Html.endTag_append] at inside
        obtain ⟨children, ends⟩ := alike_children (fun _ listed => clear.of_child listed)
          (fun _ listed => clearOther.of_child listed) (clear.legible id .refl).apart
          (clearOther.legible other .refl).apart
          (fun child listed child' listed' element element' _ _ sameInside => by
            have fewer := card_subtree_lt clear.linked (clear.linked.parent_of_mem listed)
            exact ih (by omega) (clear.of_child listed) (clearOther.of_child listed')
              element element' sameInside)
          inside
        rw [markup.tag] at ends
        exact ⟨.node found found' markup children,
          (List.cons.inj (List.append_cancel_left ends)).2⟩

end Clear

/-! ## Subtrees with one text -/

theorem enclosed_congr {payload payload' : Payload} (same : payload.SameMarkup payload')
    (inside : List Char) : enclosed payload inside = enclosed payload' inside := by
  cases payload with
  | document =>
      cases payload' with
      | document => rfl
      | text => exact absurd same id
      | element => exact absurd same id
  | text content =>
      cases payload' with
      | document => exact absurd same id
      | text content' => exact congrArg Html.text same
      | element => exact absurd same id
  | element data =>
      cases payload' with
      | document => exact absurd same id
      | text => exact absurd same id
      | element data' =>
          have markup : Html.SameMarkup data data' := same
          rw [enclosed, enclosed, markup.startTag_eq, markup.tag, Html.endTag, Html.endTag,
            markup.tag]

theorem flatMap_eq_of_forall₂ {write write' : NodeId → List Char} {ids others : List NodeId}
    (pairs : List.Forall₂ (fun id other => write id = write' other) ids others) :
    ids.flatMap write = others.flatMap write' := by
  induction pairs with
  | nil => rfl
  | cons first _ ih => rw [List.flatMap_cons, List.flatMap_cons, first, ih]

/-- Subtrees with the same markup have one text, by induction on the number of
nodes below their tops. -/
theorem Alike.written_eq {limit : Nat} (alike : Alike left right id other)
    (linked : left.Linked) (linkedOther : right.Linked)
    (enough : (left.subtree id).card < limit) : left.written id = right.written other := by
  induction limit generalizing id other with
  | zero => exact absurd enough (Nat.not_lt_zero _)
  | succ limit ih =>
      obtain ⟨found, foundOther, same, children⟩ := alike
      have below : (left.children id).flatMap left.written =
          (right.children other).flatMap right.written := by
        apply flatMap_eq_of_forall₂
        refine ((List.forall₂_and_left _ _).mpr ⟨fun _ listed => listed, children⟩).imp ?_
        rintro child child' ⟨listed, alike⟩
        have fewer := card_subtree_lt linked (linked.parent_of_mem listed)
        exact ih alike (by omega)
      rw [Tree.written_eq linked found, Tree.written_eq linkedOther foundOther, below,
        enclosed_congr same]

/-- Two subtrees have one text exactly if they have the same markup: the same tags,
ids, classes, attributes and texts in the same order. -/
theorem outerHtml_eq_iff_alike (linked : left.Linked) (linkedOther : right.Linked)
    (element : left.isElement top = true) (elementOther : right.isElement other = true)
    (legible : left.Legible top) (legibleOther : right.Legible other)
    (bare : left.BareTexts top) (bareOther : right.BareTexts other) :
    left.outerHtml top = right.outerHtml other ↔ Alike left right top other := by
  rw [outerHtml_eq_iff]
  constructor
  · intro same
    have closed : left.written top ++ [] = right.written other ++ [] := by
      rw [same]
    exact (Clear.alike_of_elements (Nat.lt_succ_self _) ⟨linked, legible, bare⟩
      ⟨linkedOther, legibleOther, bareOther⟩ element elementOther closed).1
  · intro alike
    exact alike.written_eq linked linkedOther (Nat.lt_succ_self _)

/-- Two paragraphs with quotes, escapes and a void element.  The second one has a live
value and comes from an import, and its line break has an empty id. -/
def notes : Tree :=
  let data : Element :=
    { Element.ofTag "p" with
      id? := some "a\"b", classes := ["x", "y>"], attributes := Attributes.empty.set "title" "<&" }
  withBody.1.addChild 1 (.element data)
    |>.addChild 2 (.text "1 < 2 &amp;")
    |>.addChild 2 (.element (.ofTag "br"))
    |>.addChild 1 (.element { data with value := some "v", imported := true })
    |>.addChild 5 (.text "1 < 2 &amp;")
    |>.addChild 5 (.element { Element.ofTag "br" with id? := some "" })

theorem alike_notes :
    notes.Linked ∧ notes.isElement 2 = true ∧ notes.isElement 5 = true ∧ notes.Legible 2 ∧
      notes.Legible 5 ∧ notes.BareTexts 2 ∧ notes.BareTexts 5 ∧
      notes.outerHtml 2 = notes.outerHtml 5 ∧ Alike notes notes 2 5 := by
  have linked : notes.Linked :=
    linked_withBody.addChild (by decide) _ |>.addChild (by decide) _ |>.addChild (by decide) _
      |>.addChild (by decide) _ |>.addChild (by decide) _ |>.addChild (by decide) _
  have legible : notes.Legible 2 := linked.forall_within_iff.mpr (by decide +kernel)
  have legibleOther : notes.Legible 5 := linked.forall_within_iff.mpr (by decide +kernel)
  have bare : notes.BareTexts 2 := linked.forall_within_iff.mpr (by decide +kernel)
  have bareOther : notes.BareTexts 5 := linked.forall_within_iff.mpr (by decide +kernel)
  have element : notes.isElement 2 = true := by decide +kernel
  have elementOther : notes.isElement 5 = true := by decide +kernel
  have same : notes.outerHtml 2 = notes.outerHtml 5 := by decide +kernel
  exact ⟨linked, element, elementOther, legible, legibleOther, bare, bareOther, same,
    (outerHtml_eq_iff_alike linked linked element elementOther legible legibleOther bare
      bareOther).mp same⟩

/-- Two paragraphs with one text each, the second of which has a text below it. -/
def nestedTexts : Tree :=
  withBody.1.addChild 1 (.element (.ofTag "p"))
    |>.addChild 2 (.text "a")
    |>.addChild 1 (.element (.ofTag "p"))
    |>.addChild 4 (.text "a")
    |>.addChild 5 (.text "b")

/-- What is below a text is not written, so the texts of a subtree must be bare. -/
theorem not_alike_nestedTexts :
    nestedTexts.Linked ∧ nestedTexts.isElement 2 = true ∧ nestedTexts.isElement 4 = true ∧
      nestedTexts.Legible 2 ∧ nestedTexts.Legible 4 ∧
      nestedTexts.outerHtml 2 = nestedTexts.outerHtml 4 ∧ ¬Alike nestedTexts nestedTexts 2 4 := by
  have linked : nestedTexts.Linked :=
    linked_withBody.addChild (by decide) _ |>.addChild (by decide) _ |>.addChild (by decide) _
      |>.addChild (by decide) _ |>.addChild (by decide) _
  have legible : nestedTexts.Legible 2 := linked.forall_within_iff.mpr (by decide +kernel)
  have legibleOther : nestedTexts.Legible 4 := linked.forall_within_iff.mpr (by decide +kernel)
  refine ⟨linked, by decide +kernel, by decide +kernel, legible, legibleOther,
    by decide +kernel, ?_⟩
  have items : nestedTexts.children 2 = [3] ∧ nestedTexts.children 4 = [5] ∧
      nestedTexts.children 3 = [] ∧ nestedTexts.children 5 = [6] := by decide +kernel
  rintro ⟨-, -, -, texts⟩
  rw [items.1, items.2.1] at texts
  obtain ⟨⟨-, -, -, below⟩, -⟩ := List.forall₂_cons.mp texts
  rw [items.2.2.1, items.2.2.2] at below
  cases below

end Tree

end SelectorTree
