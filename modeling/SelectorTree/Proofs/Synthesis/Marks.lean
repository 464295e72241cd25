import SelectorTree.Proofs.Synthesis.Positions
import SelectorTree.Proofs.Tree.Unmarking

/-!
# Marks change nothing but marks

The flag of an imported rule ends up in the data of elements, and nothing that decides where
an element goes reads it there.  So taking the marks off commutes with every action, and two
runs whose rules differ in their flags alone build the same tree.  An action marks at most the
node that it resolves to, so more flags mean more marks.
-/

namespace SelectorTree

/-! ## Elements -/

namespace Element

theorem unmarked_addClasses (element : Element) (names : List String) :
    (element.addClasses names).unmarked = element.unmarked.addClasses names := by
  induction names generalizing element with
  | nil => rfl
  | cons name names ih =>
      rw [addClasses_cons, ih, addClasses_cons, addClass_eq, addClass_eq]
      rfl

theorem unmarked_takeId (target source : Element) :
    (target.takeId source).unmarked = target.unmarked.takeId source.unmarked := by
  have sameTarget : target.unmarked.id = target.id := rfl
  have sameSource : source.unmarked.id = source.id := rfl
  rw [takeId, takeId, sameTarget, sameSource]
  split <;> rfl

theorem unmarked_takeKind (target source : Element) :
    (target.takeKind source).unmarked = target.unmarked.takeKind source.unmarked := by
  have sameTarget : target.unmarked.kind = target.kind := rfl
  have sameSource : source.unmarked.kind = source.kind := rfl
  rw [takeKind, takeKind, sameTarget, sameSource]
  split <;> rfl

/-- Whether an element merges, and into what, does not depend on marks. -/
theorem mergeInto_unmarked (source target : Element) :
    source.unmarked.mergeInto target.unmarked =
      (source.mergeInto target).map Element.unmarked := by
  have sameConflict : conflict? source.unmarked target.unmarked = conflict? source target := rfl
  rw [mergeInto, mergeInto, sameConflict]
  split
  · rfl
  · rw [← unmarked_takeId, ← unmarked_takeKind]
    exact congrArg Except.ok (unmarked_addClasses _ source.classes).symm

end Element

theorem Tree.unmarked_setContent (tree : Tree) (id : NodeId) (content : String) :
    (tree.setContent id content).unmarked = tree.unmarked.setContent id content := by
  rw [setContent, setContent, element?_unmarked]
  cases tree.element? id with
  | none => rfl
  | some data =>
      have sameTag : data.unmarked.tag = data.tag := rfl
      simp only [Option.map_some, sameTag]
      split
      all_goals simp only [unmarked_setText, unmarked_setElement]
      all_goals rfl

namespace Tree

variable (tree : Tree) (parent : NodeId)

theorem counts_unmarked (scope : Scope) (tag : String) :
    tree.unmarked.counts scope tag = tree.counts scope tag := by
  funext id
  cases scope with
  | anyTag => rfl
  | sameTag =>
      rw [counts, counts, element?_unmarked]
      cases tree.element? id <;> rfl

theorem siblingsAt_unmarked (position : Position) (tag : String) :
    tree.unmarked.siblingsAt parent position tag = tree.siblingsAt parent position tag := by
  simp only [siblingsAt, countedChildren, elementChildren_unmarked, counts_unmarked]

theorem probe_unmarked (position : Position) (tag : String) :
    tree.unmarked.probe parent position tag = tree.probe parent position tag := by
  simp only [probe, siblingsAt_unmarked]

end Tree

/-! ## Placing -/

namespace Builder

/-- The builder with the marks of all elements taken off. -/
def unmarked (builder : Builder) : Builder := { builder with tree := builder.tree.unmarked }

/-- The same beside the node that an element was placed at. -/
def unmarkedAt (result : Builder × NodeId) : Builder × NodeId :=
  (result.1.unmarked, result.2)

variable (builder : Builder) (options : Options) (parent : NodeId) (element : Element)
  (imported : Bool)

theorem unmarked_edit {change : Tree → Tree}
    (commutes : ∀ tree, (change tree).unmarked = change tree.unmarked) :
    (builder.edit change).unmarked = builder.unmarked.edit change := by
  rw [edit, unmarked, commutes]
  rfl

theorem unmarked_create :
    unmarkedAt (builder.create element imported) =
      builder.unmarked.create element.unmarked false := by
  rw [unmarkedAt, unmarked, create, create, Tree.allocElement, Tree.unmarked_alloc]
  simp only [Tree.allocElement, Tree.alloc_snd]
  rw [unmarked, Tree.size_unmarked]
  rfl

theorem unmarked_create_fst :
    (builder.create element imported).1.unmarked =
      (builder.unmarked.create element.unmarked false).1 :=
  congrArg Prod.fst (builder.unmarked_create element imported)

theorem create_snd_unmarked :
    (builder.unmarked.create element.unmarked false).2 = (builder.create element imported).2 :=
  (congrArg Prod.snd (builder.unmarked_create element imported)).symm

theorem tryMerge_unmarked (target : NodeId) :
    builder.unmarked.tryMerge element.unmarked target false =
      (builder.tryMerge element target imported).map unmarked := by
  rw [tryMerge, tryMerge, unmarked, Tree.element?_unmarked]
  cases builder.tree.element? target with
  | none => rfl
  | some data =>
      simp only [Option.map_some, Option.bind_some, Element.mergeInto_unmarked]
      cases element.mergeInto data with
      | error conflict => rfl
      | ok merged =>
          simp only [Except.map, Option.map_some, unmarked, Tree.unmarked_setElement]
          rfl

theorem unmarked_append :
    unmarkedAt (builder.append parent element imported) =
      builder.unmarked.append parent element.unmarked false := by
  rw [append, append, create_snd_unmarked, ← unmarked_create_fst builder element imported,
    ← unmarked_edit]
  · rfl
  · exact fun tree => tree.unmarked_insertRun parent _ _

theorem duplicates_unmarked :
    builder.unmarked.duplicates parent element.unmarked = builder.duplicates parent element := by
  rw [duplicates, duplicates, unmarked, Tree.elementChildren_unmarked]
  refine List.filter_congr fun id _ => ?_
  rw [Tree.element?_unmarked, Option.any_map]
  rfl

theorem mergeFirst_unmarked (ids : List NodeId) :
    builder.unmarked.mergeFirst element.unmarked false ids =
      (builder.mergeFirst element imported ids).map unmarkedAt := by
  rw [mergeFirst, mergeFirst, List.map_findSome?]
  refine congrArg (List.findSome? · ids) (funext fun id => ?_)
  rw [tryMerge_unmarked builder element imported, Function.comp_apply]
  cases builder.tryMerge element id imported <;> rfl

theorem unmarked_place :
    unmarkedAt (builder.place options parent element imported) =
      builder.unmarked.place options parent element.unmarked false := by
  rw [place, place, duplicates_unmarked, mergeFirst_unmarked builder element imported]
  split
  · exact builder.unmarked_append parent element imported
  · cases builder.mergeFirst element imported (builder.duplicates parent element) with
    | none => exact builder.unmarked_append parent element imported
    | some merged => rfl

/-! ## Placing at a position -/

theorem unmarked_insertNextTo (tree : Tree) (id reference : NodeId) (side : Side) :
    (insertNextTo tree parent id reference side).unmarked =
      insertNextTo tree.unmarked parent id reference side := by
  cases side <;> exact tree.unmarked_insertRun parent _ _

theorem unmarked_insertFarthest (tree : Tree) (id : NodeId) (side : Side) :
    (insertFarthest tree parent id side).unmarked =
      insertFarthest tree.unmarked parent id side := by
  cases side <;> exact tree.unmarked_insertRun parent _ _

theorem unmarked_insertNearest (tree : Tree) (id : NodeId) (side : Side) :
    (insertNearest tree parent id side).unmarked =
      insertNearest tree.unmarked parent id side := by
  cases side <;> exact tree.unmarked_insertRun parent _ _

theorem unmarked_insertAt (reference : NodeId) (side : Side) :
    unmarkedAt (builder.insertAt parent reference side element imported) =
      builder.unmarked.insertAt parent reference side element.unmarked false := by
  rw [insertAt, insertAt, create_snd_unmarked, ← unmarked_create_fst builder element imported,
    ← unmarked_edit]
  · rfl
  · exact fun tree => unmarked_insertNextTo parent tree _ reference side

theorem unmarked_evict (filler : NodeId) (side : Side) :
    unmarkedAt (builder.evict parent filler side element imported) =
      builder.unmarked.evict parent filler side element.unmarked false := by
  rw [evict, evict, ← unmarked_insertAt builder parent element imported, unmarkedAt, unmarkedAt]
  simp only [unmarked, Tree.unmarked_removeChild]

theorem unmarked_allocFillers (template : Element) (count : Nat) :
    (builder.allocFillers template count).1.unmarked =
      (builder.unmarked.allocFillers template.unmarked count).1 := by
  induction count generalizing builder with
  | zero => rfl
  | succ count ih =>
      refine (ih _).trans (congrArg (fun builder => (allocFillers builder _ count).1) ?_)
      simp only [unmarked, Tree.allocElement, Tree.unmarked_alloc, Tree.alloc_snd,
        Tree.size_unmarked]
      rfl

theorem unmarked_fillGap (id : NodeId) (side : Side) (template : Element) (gap : Nat) :
    (builder.fillGap parent id side template gap).unmarked =
      builder.unmarked.fillGap parent id side template.unmarked gap := by
  have sameSize : builder.unmarked.tree.size = builder.tree.size := builder.tree.size_unmarked
  rw [fillGap_eq, fillGap_eq, unmarked_edit, unmarked_allocFillers, sameSize]
  exact fun tree => by cases side <;> exact tree.unmarked_insertRun parent _ _

theorem unmarked_extend (position : Position) :
    unmarkedAt (builder.extend options parent element position imported) =
      builder.unmarked.extend options parent element.unmarked position false := by
  have sameSiblings : builder.unmarked.tree.siblingsAt parent position element.unmarked.tag =
      builder.tree.siblingsAt parent position element.tag :=
    builder.tree.siblingsAt_unmarked parent position element.tag
  have nearest := fun tree => unmarked_insertNearest parent tree
    (builder.create element imported).2 position.side
  have farthest := fun tree => unmarked_insertFarthest parent tree
    (builder.create element imported).2 position.side
  simp only [extend, sameSiblings, create_snd_unmarked builder element imported,
    ← unmarked_create_fst builder element imported, ← unmarked_edit _ nearest,
    ← unmarked_edit _ farthest]
  split
  · rfl
  · cases options.fill with
    | noFill => rfl
    | fill => exact Prod.ext (unmarked_fillGap _ parent _ _ element.filler _) rfl

theorem unmarked_mergeOrDisplace (blocker : NodeId) (side : Side) :
    unmarkedAt (builder.mergeOrDisplace options parent blocker element side imported) =
      builder.unmarked.mergeOrDisplace options parent blocker element.unmarked side false := by
  rw [mergeOrDisplace, mergeOrDisplace, tryMerge_unmarked builder element imported]
  cases options.mergeNth with
  | noMerge => exact builder.unmarked_insertAt parent element imported blocker side
  | merge =>
      cases builder.tryMerge element blocker imported with
      | none => exact builder.unmarked_insertAt parent element imported blocker side
      | some merged => rfl

theorem unmarked_placeAt (position : Position) :
    unmarkedAt (builder.placeAt options parent element position imported) =
      builder.unmarked.placeAt options parent element.unmarked position false := by
  have sameProbe : builder.unmarked.tree.probe parent position element.unmarked.tag =
      builder.tree.probe parent position element.tag :=
    builder.tree.probe_unmarked parent position element.tag
  have sameFillers : builder.unmarked.fillers = builder.fillers := rfl
  rw [placeAt, placeAt, sameProbe, sameFillers]
  cases builder.tree.probe parent position element.tag with
  | none => exact builder.unmarked_extend options parent element imported position
  | some blocker =>
      dsimp only
      split
      · exact builder.unmarked_evict parent element imported blocker position.side
      · exact builder.unmarked_mergeOrDisplace options parent element imported blocker position.side

end Builder

/-! ## Runs -/

def Descriptor.unmarked (descriptor : Descriptor) : Descriptor :=
  { descriptor with element := descriptor.element.unmarked }

/-- The action of a rule that is not imported. -/
def Action.unmarked : Action → Action
  | .beginRule => .beginRule
  | .skipAlternative => .skipAlternative
  | .beginAlternative => .beginAlternative
  | .place descriptor _ => .place descriptor.unmarked false
  | .write content => .write content

def TreeRule.unmarked (rule : TreeRule) : TreeRule := { rule with imported := false }

namespace Builder

variable (builder : Builder) (options : Options)

theorem unmarked_placeDescriptor (previous : Option NodeId) (descriptor : Descriptor)
    (imported : Bool) :
    unmarkedAt (builder.placeDescriptor options previous descriptor imported) =
      builder.unmarked.placeDescriptor options previous descriptor.unmarked false := by
  have sameParent : builder.unmarked.parentFor descriptor.unmarked previous =
      builder.parentFor descriptor previous := by
    cases previous with
    | none => rfl
    | some previous =>
        rw [parentFor, parentFor, unmarked, Tree.parent_unmarked]
        rfl
  have samePosition : descriptor.unmarked.position? = descriptor.position? := rfl
  rw [placeDescriptor, placeDescriptor, sameParent, samePosition]
  cases descriptor.position? with
  | none => exact builder.unmarked_place options _ descriptor.element imported
  | some position => exact builder.unmarked_placeAt options _ descriptor.element imported position

theorem unmarked_showContent (node? : Option NodeId) (content : Option String) :
    (builder.showContent node? content).unmarked =
      builder.unmarked.showContent node? content := by
  cases node? with
  | none => rfl
  | some target =>
      cases content with
      | none => rfl
      | some content =>
          exact builder.unmarked_edit fun tree => tree.unmarked_setContent target _

end Builder

namespace Cursor

def unmarked (cursor : Cursor) : Cursor := ⟨cursor.builder.unmarked, cursor.node?⟩

variable (options : Options) (cursor : Cursor)

theorem unmarked_perform (action : Action) :
    (cursor.perform options action).unmarked =
      cursor.unmarked.perform options action.unmarked := by
  cases action with
  | beginRule => rfl
  | skipAlternative => rfl
  | beginAlternative => rfl
  | write content =>
      have shown := cursor.builder.unmarked_showContent cursor.node? content
      exact congrArg (fun builder : Builder => (⟨builder, cursor.node?⟩ : Cursor)) shown
  | place descriptor imported =>
      have placed :=
        cursor.builder.unmarked_placeDescriptor options cursor.node? descriptor imported
      exact congrArg (fun result : Builder × NodeId => (⟨result.1, some result.2⟩ : Cursor)) placed

theorem unmarked_performAll (actions : List Action) :
    (cursor.performAll options actions).unmarked =
      cursor.unmarked.performAll options (actions.map Action.unmarked) := by
  induction actions generalizing cursor with
  | nil => rfl
  | cons action rest ih =>
      rw [performAll_cons, ih, unmarked_perform, List.map_cons, performAll_cons]

end Cursor

/-! ## Rules -/

theorem TreeRule.alternativeActions_unmarked (rule : TreeRule) (alternative : ComplexSelector) :
    rule.unmarked.alternativeActions alternative =
      (rule.alternativeActions alternative).map Action.unmarked := by
  rw [alternativeActions, alternativeActions]
  split
  · rfl
  · next chain built =>
      have blank : ∀ descriptor ∈ chain, descriptor.unmarked = descriptor := by
        intro descriptor listed
        have marks := Descriptor.imported_of_mem_chain built listed
        rw [Descriptor.unmarked, Element.unmarked, ← marks]
      have places : chain.map (Action.place · rule.unmarked.imported) =
          (chain.map (Action.place · rule.imported)).map Action.unmarked := by
        rw [List.map_map]
        refine List.map_congr_left fun descriptor listed => ?_
        rw [Function.comp_apply, Action.unmarked, blank descriptor listed]
        rfl
      rw [places, List.map_append]
      rfl

theorem runActions_unmarked (rules : List TreeRule) :
    runActions (rules.map TreeRule.unmarked) = (runActions rules).map Action.unmarked := by
  have ofRule : ∀ rule : TreeRule, rule.unmarked.actions = rule.actions.map Action.unmarked := by
    intro rule
    rw [TreeRule.actions, TreeRule.actions, List.map_cons, List.map_flatMap]
    exact congrArg (Action.beginRule :: rule.selectors.flatMap ·)
      (funext rule.alternativeActions_unmarked)
  rw [runActions, runActions, List.flatMap_map, List.map_flatMap]
  exact congrArg (rules.flatMap ·) (funext ofRule)

/-- The empty body carries no mark. -/
theorem Builder.unmarked_start : start.unmarked = start := by
  have blank : Tree.withBody.1.unmarked = Tree.withBody.1 := by
    rw [Tree.withBody_eq]
    simp [Tree.unmarked, Node.unmarked, Payload.unmarked, Element.unmarked, Element.ofTag]
  rw [unmarked, start, blank]

theorem Cursor.unmarked_after (options : Options) (actions : List Action) :
    (after options actions).unmarked = after options (actions.map Action.unmarked) := by
  have blank : start.unmarked = start := by
    rw [unmarked, start, Builder.unmarked_start]
  rw [after, unmarked_performAll, blank, after]

/-- The builder of marked rules without its marks is the builder of unmarked rules. -/
theorem Builder.unmarked_ofRules (options : Options) (rules : List TreeRule) :
    (ofRules options rules).unmarked = ofRules options (rules.map TreeRule.unmarked) := by
  rw [← Cursor.builder_after_runActions, ← Cursor.builder_after_runActions, runActions_unmarked,
    ← Cursor.unmarked_after]
  rfl

/-! ## What is marked -/

/-- A node is a marked element. -/
def Tree.Marked (tree : Tree) (id : NodeId) : Prop :=
  ∃ data, tree.element? id = some data ∧ data.imported = true

theorem Tree.marked_congr {before after : Tree} {id : NodeId}
    (same : after.element? id = before.element? id) : after.Marked id ↔ before.Marked id := by
  rw [Marked, Marked, same]

theorem Tree.marked_iff_of_found {tree : Tree} {id : NodeId} {data : Element}
    (found : tree.element? id = some data) : tree.Marked id ↔ data.imported = true := by
  simp [Marked, found]

namespace Builder

variable {before : Builder} {parent : NodeId} {element : Element} {imported : Bool}

/-- Placing an element marks the node where it ends up, if any. -/
theorem Outcome.marked_iff {result : Builder × NodeId}
    (outcome : Outcome before parent element imported result) (blank : element.imported = false)
    (id : NodeId) :
    result.1.tree.Marked id ↔ before.tree.Marked id ∨ imported = true ∧ result.2 = id := by
  cases outcome with
  | @merged after target listed unregistered success =>
      obtain ⟨data, merged, found, mergedEq, rfl⟩ := tryMerge_eq_some_iff.mp success
      by_cases same : target = id
      · subst same
        rw [Tree.marked_iff_of_found (Tree.element?_setElement_self found _),
          Tree.marked_iff_of_found found, Element.imported_mergeInto mergedEq]
        simp
      · rw [Tree.marked_congr (Tree.element?_setElement_of_ne same _)]
        simp [same]
  | @grown after graft atParent growth =>
      by_cases old : id < before.tree.size
      · have different : graft.node ≠ id := (growth.not_mem_lead_of_lt old).1.symm
        rw [Tree.marked_congr (Tree.element?_congr (growth.payload?_of_lt id old))]
        simp [different]
      · have unallocated : ¬before.tree.Marked id := by
          rintro ⟨data, found, -⟩
          exact old (Tree.lt_size_of_element? found)
        by_cases node : graft.node = id
        · subst node
          rw [Tree.marked_iff_of_found growth.element_node]
          simp [unallocated]
        · have unmarked : ¬after.tree.Marked id := by
            rintro ⟨data, found, marked⟩
            have new := (growth.old_or_new (Tree.lt_size_of_element? found)).resolve_left old
            have lead := new.resolve_left (Ne.symm node)
            cases found.symm.trans (growth.element_lead id lead)
            exact Bool.false_ne_true (blank.symm.trans marked)
          simp [unallocated, unmarked, node]

theorem marked_showContent_iff (sound : before.Sound) {node? : Option NodeId}
    (real : ∀ id, node? = some id → before.Real id) (content : Option String) (id : NodeId) :
    (before.showContent node? content).tree.Marked id ↔ before.tree.Marked id := by
  cases node? with
  | none => rfl
  | some target =>
      cases content with
      | none => rfl
      | some content =>
          obtain ⟨data, found⟩ := Tree.isElement_iff.mp (real target rfl).element
          by_cases same : id = target
          · subst same
            have foundAfter :=
              Tree.element?_setContent_self sound.linked found (stripQuotes content)
            refine (Tree.marked_iff_of_found foundAfter).trans ?_
            rw [Element.imported_withContent, Tree.marked_iff_of_found found]
          · have shown := Tree.shown_setContent sound.linked found (stripQuotes content)
            exact Tree.marked_congr (shown.element?_of_ne id same)

end Builder

/-- Whether an action leaves a mark. -/
def Action.marks : Action → Bool
  | .place _ imported => imported
  | .beginRule | .skipAlternative | .beginAlternative | .write _ => false

/-- An action whose element carries no mark of its own. -/
def Action.Blank : Action → Prop
  | .place descriptor _ => descriptor.element.imported = false
  | .beginRule | .skipAlternative | .beginAlternative | .write _ => True

theorem blank_of_mem_runActions {rules : List TreeRule} {action : Action}
    (member : action ∈ runActions rules) : action.Blank := by
  cases action with
  | place descriptor imported =>
      obtain ⟨_, -, -, _, -, chain, built, listed⟩ := exists_alternative_of_place member
      exact Descriptor.imported_of_mem_chain built listed
  | _ => trivial

namespace Cursor

variable {options : Options} {left right : Cursor} {action other : Action}
  {actions others : List Action}

/-- An action marks the node that it resolves to, and no other. -/
theorem marked_perform_iff (options : Options) (sound : left.Sound) (blank : action.Blank)
    (id : NodeId) :
    (left.perform options action).builder.tree.Marked id ↔
      left.builder.tree.Marked id ∨
        action.marks = true ∧ (left.perform options action).node? = some id := by
  cases action with
  | place descriptor imported =>
      rw [perform, (outcome_placeDescriptor options sound descriptor imported).marked_iff blank,
        Option.some_inj]
      rfl
  | write content =>
      rw [perform, Builder.marked_showContent_iff sound.builder sound.node]
      simp [Action.marks]
  | _ => simp [perform, Action.marks]

/-- Two cursors that differ in marks alone, with all marks of the first at the second. -/
structure Under (left right : Cursor) : Prop where
  unmarked_eq : left.unmarked = right.unmarked
  marked : ∀ id, left.builder.tree.Marked id → right.builder.tree.Marked id

end Cursor

/-- Two actions that differ in their flags alone, where the first is not the only marking
one. -/
structure Action.Under (action other : Action) : Prop where
  unmarked_eq : action.unmarked = other.unmarked
  marks : action.marks = true → other.marks = true

namespace Cursor

variable {options : Options} {left right : Cursor} {action other : Action}
  {actions others : List Action}

theorem Under.perform (under : Under left right) (soundLeft : left.Sound)
    (soundRight : right.Sound) (blankLeft : action.Blank) (blankRight : other.Blank)
    (flags : action.Under other) :
    Under (left.perform options action) (right.perform options other) := by
  have same : (left.perform options action).unmarked =
      (right.perform options other).unmarked := by
    rw [unmarked_perform, unmarked_perform, under.unmarked_eq, flags.unmarked_eq]
  have sameNode : (left.perform options action).unmarked.node? =
      (right.perform options other).unmarked.node? := congrArg Cursor.node? same
  refine ⟨same, fun id marked => ?_⟩
  rw [marked_perform_iff options soundRight blankRight]
  rcases (marked_perform_iff options soundLeft blankLeft id).mp marked with before | ⟨now, here⟩
  · exact Or.inl (under.marked id before)
  · exact Or.inr ⟨flags.marks now, sameNode.symm.trans here⟩

theorem Under.performAll (under : Under left right) (soundLeft : left.Sound)
    (soundRight : right.Sound) (proper : ∀ action ∈ actions, action.Proper ∧ action.Blank)
    (properOthers : ∀ action ∈ others, action.Proper ∧ action.Blank)
    (flags : List.Forall₂ Action.Under actions others) :
    Under (left.performAll options actions) (right.performAll options others) := by
  induction flags generalizing left right with
  | nil => exact under
  | cons first _ ih =>
      obtain ⟨properLeft, properRest⟩ := List.forall_mem_cons.mp proper
      obtain ⟨properRight, properOtherRest⟩ := List.forall_mem_cons.mp properOthers
      have next : Under (left.perform options _) (right.perform options _) :=
        under.perform soundLeft soundRight properLeft.2 properRight.2 first
      exact ih next (sound_perform options soundLeft properLeft.1).1
        (sound_perform options soundRight properRight.1).1 properRest properOtherRest

end Cursor

/-! ## Rules that differ in their flags -/

/-- Two rules that differ in their flags alone, where the first is not the only imported
one. -/
structure TreeRule.Under (rule other : TreeRule) : Prop where
  unmarked_eq : rule.unmarked = other.unmarked
  imported : rule.imported = true → other.imported = true

theorem TreeRule.Under.alternativeActions {rule other : TreeRule} (under : rule.Under other)
    (alternative : ComplexSelector) :
    List.Forall₂ Action.Under (rule.alternativeActions alternative)
      (other.alternativeActions alternative) := by
  obtain ⟨selectors, content, imported⟩ := rule
  obtain ⟨otherSelectors, otherContent, otherImported⟩ := other
  cases under.unmarked_eq
  rw [TreeRule.alternativeActions, TreeRule.alternativeActions]
  split
  · exact .cons ⟨rfl, id⟩ .nil
  · next chain _ =>
      refine .cons ⟨rfl, id⟩ (List.rel_append ?_ (.cons ⟨rfl, id⟩ .nil))
      rw [List.forall₂_map_left_iff, List.forall₂_map_right_iff]
      exact List.forall₂_same.mpr fun _ _ => ⟨rfl, under.imported⟩

theorem TreeRule.Under.actions {rule other : TreeRule} (under : rule.Under other) :
    List.Forall₂ Action.Under rule.actions other.actions := by
  obtain ⟨selectors, content, imported⟩ := rule
  obtain ⟨otherSelectors, otherContent, otherImported⟩ := other
  have alternative := under.alternativeActions
  cases under.unmarked_eq
  have same : List.Forall₂ Eq selectors selectors := List.forall₂_refl selectors
  refine .cons ⟨rfl, id⟩ (List.rel_flatMap same ?_)
  rintro one _ rfl
  exact alternative one

theorem TreeRule.forall_under {rules others : List TreeRule}
    (alike : rules.map TreeRule.unmarked = others.map TreeRule.unmarked)
    (flags : List.Forall₂ (fun rule other => rule.imported = true → other.imported = true)
      rules others) : List.Forall₂ TreeRule.Under rules others := by
  induction flags with
  | nil => exact .nil
  | cons flag _ ih =>
      obtain ⟨same, sameRest⟩ := List.cons.inj alike
      exact .cons ⟨same, flag⟩ (ih sameRest)

/-- Two results that differ in the marks of their elements alone. -/
structure Synthesis.SameButMarks (left right : Synthesis) : Prop where
  tree_eq : left.tree.unmarked = right.tree.unmarked
  body_eq : left.body = right.body
  report_eq : left.report = right.report

/-- Rules that differ in their flags alone give the same tree, with other marks, and the same
report.  If all flags of the first rules are set among the second ones, all marks of the first
tree are in the second one. -/
theorem sameButMarks_synthesize (options : Options) {rules others : List TreeRule}
    (alike : rules.map TreeRule.unmarked = others.map TreeRule.unmarked) :
    (synthesize options rules).SameButMarks (synthesize options others) ∧
      (List.Forall₂ (fun rule other => rule.imported = true → other.imported = true) rules others →
        ∀ id, (synthesize options rules).tree.Marked id →
          (synthesize options others).tree.Marked id) := by
  have same : (Builder.ofRules options rules).unmarked =
      (Builder.ofRules options others).unmarked := by
    rw [Builder.unmarked_ofRules, alike, ← Builder.unmarked_ofRules]
  refine ⟨⟨congrArg (·.tree) same, congrArg (·.body) same, congrArg (·.finish.report) same⟩, ?_⟩
  intro flags id
  have proper : ∀ {rules action}, action ∈ runActions rules → action.Proper ∧ action.Blank :=
    fun member => ⟨proper_of_mem_runActions member, blank_of_mem_runActions member⟩
  have actions : List.Forall₂ Action.Under (runActions rules) (runActions others) :=
    List.rel_flatMap (TreeRule.forall_under alike flags) fun _ _ under => under.actions
  have atStart : Cursor.Under .start .start := ⟨rfl, fun _ marked => marked⟩
  have atEnd : Cursor.Under (Cursor.performAll options (runActions rules) .start)
      (Cursor.performAll options (runActions others) .start) :=
    atStart.performAll Cursor.sound_start Cursor.sound_start (fun _ => proper) (fun _ => proper)
      actions
  have marks := atEnd.marked id
  rwa [Cursor.builder_performAll_runActions, Cursor.builder_performAll_runActions] at marks

/-- The rules `li:nth-child(3)` and `ul > li`, each imported or not. -/
def importedItemRules (third inList : Bool) : List TreeRule :=
  [⟨[⟨Builder.thirdItem, []⟩], some "three", third⟩,
    ⟨[⟨.ofType? (some (.name "li")), [(.child, .ofType? (some (.name "ul")))]⟩], none, inList⟩]

/-- The item of the imported list is marked, whether or not the third item is imported. -/
theorem sameButMarks_importedItemRules :
    (importedItemRules false true).map TreeRule.unmarked =
        (importedItemRules true true).map TreeRule.unmarked ∧
      (synthesize .standard (importedItemRules false true)).SameButMarks
        (synthesize .standard (importedItemRules true true)) ∧
      List.Forall₂ (fun rule other => rule.imported = true → other.imported = true)
        (importedItemRules false true) (importedItemRules true true) ∧
      (synthesize .standard (importedItemRules false true)).tree.Marked 7 ∧
      (synthesize .standard (importedItemRules true true)).tree.Marked 7 := by
  have alike : (importedItemRules false true).map TreeRule.unmarked =
      (importedItemRules true true).map TreeRule.unmarked := rfl
  have flags : List.Forall₂ (fun rule other => rule.imported = true → other.imported = true)
      (importedItemRules false true) (importedItemRules true true) :=
    .cons (fun _ => rfl) (.cons (fun _ => rfl) .nil)
  have marked : (synthesize .standard (importedItemRules false true)).tree.Marked 7 :=
    ⟨{ Element.ofTag "li" with imported := true }, by decide, rfl⟩
  obtain ⟨same, marks⟩ := sameButMarks_synthesize .standard alike
  exact ⟨alike, same, flags, marked, marks flags 7 marked⟩

end SelectorTree
