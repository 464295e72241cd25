import SelectorTree.Proofs.Synthesis.Contents
import SelectorTree.Proofs.Synthesis.Placing

/-!
# What growth leaves alone

Parent links, places below other nodes, and texts after a new element has come
in.  Only the new nodes gain a parent, and only the fillers that they replace
lose theirs.
-/

namespace SelectorTree

namespace Builder.Grown

variable {before after : Builder} {element : Element} {imported : Bool} {graft : Graft}

theorem size_le (grown : Grown before after element imported graft) :
    before.tree.size ≤ after.tree.size := by
  have bounds := (grown.new_iff graft.node).mp (Or.inl rfl)
  omega

theorem not_mem_lead_of_lt (grown : Grown before after element imported graft) {id : Nat}
    (old : id < before.tree.size) : id ≠ graft.node ∧ id ∉ graft.lead := by
  have outside : ¬ (id = graft.node ∨ id ∈ graft.lead) := by
    rw [grown.new_iff]
    omega
  exact not_or.mp outside

theorem old_or_new (grown : Grown before after element imported graft) {id : Nat}
    (allocated : id < after.tree.size) :
    id < before.tree.size ∨ id = graft.node ∨ id ∈ graft.lead := by
  by_cases old : id < before.tree.size
  · exact Or.inl old
  · exact Or.inr ((grown.new_iff id).mpr ⟨Nat.le_of_not_lt old, allocated⟩)

/-- Fillers have the classes of the element that they are for. -/
theorem element_new (grown : Grown before after element imported graft) {id : NodeId}
    (new : id = graft.node ∨ id ∈ graft.lead) :
    ∃ data, after.tree.element? id = some data ∧ data.classes = element.classes := by
  rcases new with rfl | lead
  · exact ⟨_, grown.element_node, rfl⟩
  · exact ⟨_, grown.element_lead id lead, rfl⟩

theorem mem_children_parent (grown : Grown before after element imported graft) {id : NodeId} :
    id ∈ after.tree.children graft.parent ↔
      id ∈ graft.front ∨ id ∈ graft.lead ∨ id = graft.node ∨ id ∈ graft.back := by
  rw [← Side.mem_orient graft.side, grown.relisted]
  simp

theorem mem_children_parent_before (grown : Grown before after element imported graft)
    {id : NodeId} :
    id ∈ before.tree.children graft.parent ↔
      id ∈ graft.front ∨ id ∈ graft.gone ∨ id ∈ graft.back := by
  rw [← Side.mem_orient graft.side, grown.listed]
  simp

section Elements

variable (grown : Grown before after element imported graft) (linked : before.tree.Linked)

include grown linked

/-- Old nodes keep what makes them elements. -/
private theorem filter_isElement_part {part : List NodeId}
    (listed : ∀ id ∈ part, id ∈ before.tree.children graft.parent) :
    part.filter after.tree.isElement = part.filter before.tree.isElement := by
  refine List.filter_congr fun id member => Tree.isElement_congr ?_
  exact grown.payload?_of_lt id (linked.lt_size_of_mem (listed id member))

/-- The element children of the parent, before and after. -/
theorem elementChildren_parent
    (goneElements : ∀ id ∈ graft.gone, before.tree.isElement id = true) :
    graft.side.orient (before.tree.elementChildren graft.parent) =
        graft.front.filter before.tree.isElement ++ graft.gone ++
          graft.back.filter before.tree.isElement ∧
      graft.side.orient (after.tree.elementChildren graft.parent) =
        graft.front.filter before.tree.isElement ++ graft.lead ++
          graft.node :: graft.back.filter before.tree.isElement := by
  have front := grown.filter_isElement_part linked fun id member =>
    grown.mem_children_parent_before.mpr (Or.inl member)
  have back := grown.filter_isElement_part linked fun id member =>
    grown.mem_children_parent_before.mpr (Or.inr (Or.inr member))
  have gone : graft.gone.filter before.tree.isElement = graft.gone :=
    List.filter_eq_self.mpr goneElements
  have lead : graft.lead.filter after.tree.isElement = graft.lead :=
    List.filter_eq_self.mpr fun id member =>
      Tree.isElement_iff.mpr ⟨_, grown.element_lead id member⟩
  have node : after.tree.isElement graft.node = true :=
    Tree.isElement_iff.mpr ⟨_, grown.element_node⟩
  refine ⟨?_, ?_⟩
  · rw [Tree.elementChildren, ← Side.filter_orient, grown.listed, List.filter_append,
      List.filter_append, gone]
  · rw [Tree.elementChildren, ← Side.filter_orient, grown.relisted, List.filter_append,
      List.filter_append, List.filter_cons_of_pos node, front, back, lead]

/-- No other node gains or loses element children. -/
theorem elementChildren_of_ne {other : NodeId} (different : other ≠ graft.parent) :
    after.tree.elementChildren other = before.tree.elementChildren other := by
  rw [Tree.elementChildren, Tree.elementChildren, grown.children_of_ne other different]
  refine List.filter_congr fun id member => Tree.isElement_congr ?_
  exact grown.payload?_of_lt id (linked.lt_size_of_mem member)

end Elements

theorem parent_of_new (grown : Grown before after element imported graft) {id : NodeId}
    (new : id = graft.node ∨ id ∈ graft.lead) :
    after.tree.parent id = some graft.parent := by
  refine grown.linked.parent_of_mem (grown.mem_children_parent.mpr ?_)
  rcases new with node | lead
  · exact Or.inr (Or.inr (Or.inl node))
  · exact Or.inr (Or.inl lead)

section Linked

variable (grown : Grown before after element imported graft) (linked : before.tree.Linked)

include grown linked

theorem lt_size_of_gone {id : NodeId} (gone : id ∈ graft.gone) : id < before.tree.size :=
  linked.lt_size_of_mem (grown.mem_children_parent_before.mpr (Or.inr (Or.inl gone)))

/-- The nodes on either side of a replaced filler stay. -/
theorem kept_of_beside {id : NodeId} (beside : id ∈ graft.front ∨ id ∈ graft.back) :
    id ∉ graft.gone := by
  intro gone
  have distinct : (graft.front ++ graft.gone ++ graft.back).Nodup := by
    rw [← grown.listed, Side.nodup_orient]
    exact linked.nodup_children graft.parent
  obtain ⟨early, -, late⟩ := List.nodup_append.mp distinct
  rcases beside with inFront | inBack
  · exact (List.nodup_append.mp early).2.2 id inFront id gone rfl
  · exact late id (List.mem_append_right _ gone) id inBack rfl

theorem parent_of_gone {id : NodeId} (gone : id ∈ graft.gone) :
    after.tree.parent id = none := by
  have listed := grown.mem_children_parent_before.mpr (Or.inr (Or.inl gone))
  obtain ⟨notNode, notLead⟩ := grown.not_mem_lead_of_lt (grown.lt_size_of_gone linked gone)
  refine Option.eq_none_iff_forall_not_mem.mpr fun top above => ?_
  have relisted := grown.linked.mem_children above
  by_cases same : top = graft.parent
  · subst same
    rcases grown.mem_children_parent.mp relisted with member | member | member | member
    · exact grown.kept_of_beside linked (Or.inl member) gone
    · exact notLead member
    · exact notNode member
    · exact grown.kept_of_beside linked (Or.inr member) gone
  · rw [grown.children_of_ne top same] at relisted
    exact same (linked.parent_unique relisted listed)

theorem parent_of_kept {id : Nat} (old : id < before.tree.size) (kept : id ∉ graft.gone) :
    after.tree.parent id = before.tree.parent id := by
  obtain ⟨notNode, notLead⟩ := grown.not_mem_lead_of_lt old
  refine Option.ext fun top => ?_
  rw [← grown.linked.mem_children_iff, ← linked.mem_children_iff]
  by_cases same : top = graft.parent
  · subst same
    rw [grown.mem_children_parent, grown.mem_children_parent_before]
    simp [notNode, notLead, kept]
  · rw [grown.children_of_ne top same]

omit linked in
theorem children_of_new (allocated : graft.parent < before.tree.size) {id : Nat}
    (new : before.tree.size ≤ id) : after.tree.children id = [] := by
  have different : id ≠ graft.parent := by
    rintro rfl
    exact Nat.not_le_of_lt allocated new
  rw [grown.children_of_ne id different, Tree.children_eq_nil_of_size_le new]

/-- A node stays below another unless it is among the replaced fillers. -/
theorem below_of_below (childless : ∀ id ∈ graft.gone, before.tree.children id = [])
    {top id : NodeId} (below : before.tree.Below top id) (kept : id ∉ graft.gone) :
    after.tree.Below top id := by
  induction below with
  | single attached =>
      refine .single ?_
      rw [Tree.IsParent, grown.parent_of_kept linked (Tree.lt_size_of_parent attached) kept]
      exact attached
  | @tail middle id _ attached ih =>
      have middleKept : middle ∉ graft.gone := by
        intro gone
        have listed := linked.mem_children attached
        rw [childless middle gone] at listed
        cases listed
      refine .tail (ih middleKept) ?_
      rw [Tree.IsParent, grown.parent_of_kept linked (Tree.lt_size_of_parent attached) kept]
      exact attached

/-- New nodes are below whatever their parent is below. -/
theorem below_of_new (childless : ∀ id ∈ graft.gone, before.tree.children id = [])
    {top id : NodeId} (above : graft.parent = top ∨ before.tree.Below top graft.parent)
    (kept : graft.parent ∉ graft.gone) (new : id = graft.node ∨ id ∈ graft.lead) :
    after.tree.Below top id := by
  have attached := grown.parent_of_new new
  rcases above with rfl | below
  · exact .single attached
  · exact .tail (grown.below_of_below linked childless below kept) attached

/-- An old node that is below another now was there before. -/
theorem below_before {top id : NodeId} (below : after.tree.Below top id)
    (old : id < before.tree.size) : before.tree.Below top id := by
  have lower : ∀ {above child : NodeId}, after.tree.IsParent above child →
      child < before.tree.size → before.tree.IsParent above child := by
    intro above child attached childOld
    have kept : child ∉ graft.gone := by
      intro gone
      rw [Tree.IsParent, grown.parent_of_gone linked gone] at attached
      cases attached
    rw [Tree.IsParent, ← grown.parent_of_kept linked childOld kept]
    exact attached
  induction below with
  | single attached => exact .single (lower attached old)
  | tail _ attached ih =>
      have attachedBefore := lower attached old
      exact .tail (ih (linked.parent_lt_size attachedBefore)) attachedBefore

/-- No text comes or goes. -/
theorem texts_eq (goneTextless : ∀ id ∈ graft.gone, before.tree.text? id = none)
    (id : NodeId) : after.tree.texts id = before.tree.texts id := by
  have sameText : ∀ child : Nat, child < before.tree.size →
      after.tree.text? child = before.tree.text? child :=
    fun child old => Tree.text?_congr (grown.payload?_of_lt child old)
  by_cases same : id = graft.parent
  · subst same
    have orientTexts : ∀ (tree : Tree) (side : Side) (children : List NodeId),
        (side.orient children).filterMap tree.text? =
          side.orient (children.filterMap tree.text?) := by
      intro tree side children
      cases side <;> simp [Side.orient, List.filterMap_reverse]
    have sameParts : ∀ part : List NodeId,
        (∀ child ∈ part, child ∈ before.tree.children graft.parent) →
        part.filterMap after.tree.text? = part.filterMap before.tree.text? := by
      intro part listed
      refine List.filterMap_congr fun child member => sameText child ?_
      exact linked.lt_size_of_mem (listed child member)
    have frontSame := sameParts graft.front fun child member =>
      grown.mem_children_parent_before.mpr (Or.inl member)
    have backSame := sameParts graft.back fun child member =>
      grown.mem_children_parent_before.mpr (Or.inr (Or.inr member))
    have goneTexts : graft.gone.filterMap before.tree.text? = [] :=
      List.filterMap_eq_nil_iff.mpr goneTextless
    have leadTexts : graft.lead.filterMap after.tree.text? = [] :=
      List.filterMap_eq_nil_iff.mpr fun child member =>
        Tree.text?_eq_none_of_element? (grown.element_lead child member)
    have nodeText := Tree.text?_eq_none_of_element? grown.element_node
    refine graft.side.eq_of_orient_eq ?_
    rw [Tree.texts, Tree.texts, ← orientTexts, ← orientTexts, grown.relisted, grown.listed]
    simp [List.filterMap_append, frontSame, backSame, goneTexts, leadTexts, nodeText]
  · rw [Tree.texts, Tree.texts, grown.children_of_ne id same]
    refine List.filterMap_congr fun child member => sameText child ?_
    exact linked.lt_size_of_mem member

end Linked

end Builder.Grown

/-- A node that comes in behind all children is the last element child. -/
theorem Builder.elementChildren_of_appended {before after : Builder} {element : Element}
    {imported : Bool} {parent node : NodeId} {front : List NodeId}
    (growth : Grown before after element imported ⟨parent, .start, front, [], [], node, []⟩)
    (linked : before.tree.Linked) :
    after.tree.elementChildren parent = before.tree.elementChildren parent ++ [node] := by
  obtain ⟨listed, relisted⟩ := growth.elementChildren_parent linked (by simp)
  simp only [Side.orient, List.append_nil, List.filter_nil] at listed relisted
  rw [relisted, listed]

namespace Tree.Shown

variable {before after : Tree} {id : NodeId}

theorem below_iff (shown : Shown before after id) (linked : before.Linked) {top other : NodeId}
    (old : other < before.size) : after.Below top other ↔ before.Below top other := by
  constructor
  · intro below
    induction below with
    | single attached =>
        rw [IsParent, shown.parent_of_lt _ old] at attached
        exact .single attached
    | tail _ attached ih =>
        rw [IsParent, shown.parent_of_lt _ old] at attached
        exact .tail (ih (linked.parent_lt_size attached)) attached
  · intro below
    induction below with
    | single attached =>
        refine .single ?_
        rw [IsParent, shown.parent_of_lt _ old]
        exact attached
    | tail _ attached ih =>
        refine .tail (ih (linked.parent_lt_size attached)) ?_
        rw [IsParent, shown.parent_of_lt _ old]
        exact attached

theorem isElement_eq (shown : Shown before after id)
    (element : before.isElement id = after.isElement id) (other : NodeId) :
    after.isElement other = before.isElement other := by
  by_cases same : other = id
  · subst same
    exact element.symm
  · simp [isElement, shown.element?_of_ne other same]

end Tree.Shown

end SelectorTree
