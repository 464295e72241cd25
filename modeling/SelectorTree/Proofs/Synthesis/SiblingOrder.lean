import SelectorTree.Proofs.Synthesis.Deduplication
import SelectorTree.Proofs.Tree.Walks
import SelectorTree.Synthesis.Verify

/-!
# The order of sibling compounds

The right one of two compounds that a sibling combinator joins is looked for
among all children of the parent, also those before the node of the left one
and that node itself.  So it comes behind the left one exactly if none of these
takes its element.
-/

namespace SelectorTree

/-! ## Searching a list of children -/

/-- In a list without repetitions, nothing before the item that a search finds
passes the test. -/
theorem find?_eq_some_iff_of_nodup {item : NodeId} {front back : List NodeId}
    {test : NodeId → Bool} {found : NodeId} (distinct : (front ++ item :: back).Nodup)
    (search : (front ++ item :: back).find? test = some found) :
    found ∈ back ↔ ∀ other ∈ front ++ [item], test other = false := by
  rw [List.append_cons] at distinct search
  have apart : ∀ other ∈ front ++ [item], other ∉ back :=
    fun other member inBack => (List.nodup_append.mp distinct).2.2 other member other inBack rfl
  rw [List.find?_append] at search
  constructor
  · intro inBack
    cases early : (front ++ [item]).find? test with
    | none => simpa using List.find?_eq_none.mp early
    | some first =>
        rw [early, Option.some_or] at search
        cases search
        exact absurd inBack (apart found (List.mem_of_find?_eq_some early))
  · intro refuse
    have early : (front ++ [item]).find? test = none := by
      rw [List.find?_eq_none]
      simpa using refuse
    rw [early, Option.none_or] at search
    exact List.mem_of_find?_eq_some search

namespace Builder

variable {before after : Builder} {parent left right : NodeId} {element : Element}

theorem isElement_of_takes {id : NodeId} (takes : before.takes element id = true) :
    before.tree.isElement id = true := by
  obtain ⟨-, data, found, -, -⟩ := takes_iff.mp takes
  exact Tree.isElement_iff.mpr ⟨data, found⟩

/-- Only elements take elements, so the search may as well go through all
children. -/
theorem find?_takes_elementChildren (builder : Builder) (parent : NodeId) (element : Element) :
    (builder.tree.elementChildren parent).find? (builder.takes element) =
      (builder.tree.children parent).find? (builder.takes element) := by
  rw [Tree.elementChildren, List.find?_filter]
  congr 1
  funext id
  cases takes : builder.takes element id with
  | false => simp
  | true => simp [isElement_of_takes takes]

/-! ## What later steps leave as it is -/

theorem Extended.mem_children (extended : Extended before after)
    (listed : left ∈ before.tree.children parent) : left ∈ after.tree.children parent :=
  (extended.children parent).subset listed

theorem Extended.precedes (extended : Extended before after)
    (precedes : before.tree.Precedes left right) : after.tree.Precedes left right := by
  obtain ⟨parent, front, between, back, split⟩ := precedes
  obtain ⟨more, longer⟩ := extended.children parent
  refine ⟨parent, front, between, back ++ more, ?_⟩
  rw [← longer, split]
  simp

/-- Later steps do not change the order of two siblings. -/
theorem Extended.precedes_iff (extended : Extended before after) (linked : before.tree.Linked)
    (linkedAfter : after.tree.Linked) (listed : left ∈ before.tree.children parent)
    (listedRight : right ∈ before.tree.children parent) :
    after.tree.Precedes left right ↔ before.tree.Precedes left right := by
  refine ⟨fun precedes => ?_, extended.precedes⟩
  obtain ⟨front, back, split⟩ := List.append_of_mem listed
  obtain ⟨more, longer⟩ := extended.children parent
  have splitAfter : after.tree.children parent = front ++ left :: (back ++ more) := by
    rw [← longer, split]
    simp
  rw [Tree.precedes_iff_mem_back linked split]
  rcases List.mem_append.mp ((Tree.precedes_iff_mem_back linkedAfter splitAfter).mp precedes) with
    inBack | new
  · exact inBack
  · have distinct := linkedAfter.nodup_children parent
    rw [← longer] at distinct
    exact absurd rfl ((List.nodup_append.mp distinct).2.2 right listedRight right new)

/-! ## One step -/

/-- The element that is placed below the parent of a node comes behind that node
exactly if neither the node nor a child before it takes the element. -/
theorem precedes_place_iff {options : Options} (removes : options.duplicates = .remove)
    (sound : before.Sound) (host : before.Host parent) (proper : element.ProperClasses)
    (listed : left ∈ before.tree.children parent) (imported : Bool) :
    (before.place options parent element imported).2 ∈
        (before.place options parent element imported).1.tree.children parent ∧
      ((before.place options parent element imported).1.tree.Precedes left
          (before.place options parent element imported).2 ↔
        ∀ child, child = left ∨ before.tree.Precedes child left →
          before.takes element child = false) := by
  obtain ⟨front, back, split⟩ := List.append_of_mem listed
  have upToLeft : ∀ child, child = left ∨ before.tree.Precedes child left ↔
      child ∈ front ++ [left] := by
    intro child
    rw [Tree.precedes_iff_mem_front sound.linked split, List.mem_append, List.mem_singleton,
      or_comm]
  simp only [upToLeft]
  cases search : (before.tree.elementChildren parent).find? (before.takes element) with
  | none =>
      rw [place_of_find_none sound host removes proper search]
      have relisted := children_append sound.linked (sound.host_lt_size host) element imported
      rw [append_snd, relisted]
      rw [find?_takes_elementChildren, List.find?_eq_none, split, List.append_cons] at search
      constructor
      · exact List.mem_append_right _ (List.mem_singleton_self before.tree.size)
      · refine iff_of_true ⟨parent, front, back, [], ?_⟩ fun child member => ?_
        · rw [relisted, split]
          simp
        · exact Bool.eq_false_iff.mpr (search child (List.mem_append_left back member))
  | some target =>
      obtain ⟨after, taken, placed⟩ := place_of_find sound host removes proper search imported
      have unregistered := (takes_iff.mp (List.find?_some search)).1
      have member := List.mem_of_find?_eq_some search
      have real := Sound.child_real host member sound.linked unregistered
      have extended := (preserved_of_taken sound real taken).toExtended
      have linkedAfter := (sound_rewritten sound real
        (rewritten_of_tryMerge sound real taken.success)).linked
      have listedTarget : target ∈ before.tree.children parent := List.mem_of_mem_filter member
      rw [placed]
      refine ⟨extended.mem_children listedTarget, ?_⟩
      rw [extended.precedes_iff sound.linked linkedAfter listed listedTarget,
        Tree.precedes_iff_mem_back sound.linked split]
      rw [find?_takes_elementChildren, split] at search
      exact find?_eq_some_iff_of_nodup (split ▸ sound.linked.nodup_children parent) search

end Builder

/-! ## Alternatives -/

/-- An alternative without a positional pseudo-class. -/
def ComplexSelector.Unpositioned (alternative : ComplexSelector) : Prop :=
  ∀ step ∈ alternative.chain, ∀ pseudoClass ∈ step.2.pseudoClasses,
    isPositional pseudoClass.name = false

instance (alternative : ComplexSelector) : Decidable alternative.Unpositioned :=
  inferInstanceAs (Decidable (∀ step ∈ alternative.chain, ∀ pseudoClass ∈ step.2.pseudoClasses,
    isPositional pseudoClass.name = false))

section Alternative

variable {alternative : ComplexSelector} {rule : TreeRule} {action : Action}

theorem exists_compound_of_mem_alternativeActions {descriptor : Descriptor} {imported : Bool}
    (member : .place descriptor imported ∈ rule.alternativeActions alternative) :
    ∃ step ∈ alternative.chain, Descriptor.ofCompound step.2 step.1 = .ok descriptor := by
  rw [TreeRule.alternativeActions] at member
  split at member
  · simp at member
  · next chain built =>
      have placed : ∃ other ∈ chain, other = descriptor ∧ rule.imported = imported := by
        simpa using member
      obtain ⟨_, inChain, rfl, -⟩ := placed
      exact Descriptor.exists_compound_of_mem (Descriptor.chain_eq_ok_iff.mp built) inChain

theorem proper_of_mem_alternativeActions (member : action ∈ rule.alternativeActions alternative) :
    action.Proper := by
  cases action with
  | place descriptor imported =>
      obtain ⟨step, -, single⟩ := exists_compound_of_mem_alternativeActions member
      exact Descriptor.proper_of_ofCompound single
  | _ => trivial

theorem unpositioned_of_mem_alternativeActions (unpositioned : alternative.Unpositioned)
    (member : action ∈ rule.alternativeActions alternative) : action.Unpositioned := by
  cases action with
  | place descriptor imported =>
      obtain ⟨step, inChain, single⟩ := exists_compound_of_mem_alternativeActions member
      exact Descriptor.position?_of_ofCompound single (unpositioned step inChain)
  | _ => trivial

end Alternative

namespace Cursor

/-- What is there once the first descriptors of an alternative are placed. -/
def placing (options : Options) (before : Builder) (imported : Bool) (chain : List Descriptor) :
    Cursor :=
  performAll options (.beginAlternative :: chain.map (.place · imported)) ⟨before, none⟩

variable {options : Options} {before : Builder} {imported : Bool} {chain : List Descriptor}
  {descriptor : Descriptor}

theorem placing_concat (descriptor : Descriptor) :
    placing options before imported (chain ++ [descriptor]) =
      (placing options before imported chain).perform options (.place descriptor imported) := by
  rw [placing, List.map_append, ← List.cons_append, performAll_append]
  rfl

section Placing

variable {alternative : ComplexSelector} {late : List Descriptor} (options : Options)
  (rule : TreeRule) (sound : before.Sound)
  (built : Descriptor.chain alternative = .ok (chain ++ late))

include sound built

omit sound options in
/-- The actions of an alternative, cut where the first descriptors are placed. -/
theorem alternativeActions_eq : rule.alternativeActions alternative =
    (.beginAlternative :: chain.map (.place · rule.imported)) ++
      (late.map (.place · rule.imported) ++ [.write rule.content]) := by
  rw [TreeRule.alternativeActions, built]
  simp

theorem sound_placing : (placing options before rule.imported chain).Sound := by
  refine (sound_performAll options (sound_none sound) fun action member => ?_).1
  have inRule : action ∈ rule.alternativeActions alternative := by
    rw [alternativeActions_eq rule built]
    exact List.mem_append_left _ member
  exact proper_of_mem_alternativeActions inRule

/-- What comes after the first descriptors only extends lists of children. -/
theorem extended_placing (unpositioned : alternative.Unpositioned) :
    Builder.Extended (placing options before rule.imported chain).builder
      (Builder.addAlternative options rule before alternative) := by
  have later : ∀ {action}, action ∈ late.map (.place · rule.imported) ++ [.write rule.content] →
      action ∈ rule.alternativeActions alternative := by
    intro action member
    rw [alternativeActions_eq rule built]
    exact List.mem_append_right _ member
  have finished : (performAll options (rule.alternativeActions alternative)
      ⟨before, none⟩).builder = Builder.addAlternative options rule before alternative :=
    builder_performAll_alternative rule alternative
  rw [← finished, alternativeActions_eq rule built, performAll_append]
  apply extended_performAll options (sound_placing options rule sound built)
  · exact fun _ member => proper_of_mem_alternativeActions (later member)
  · exact fun _ member => unpositioned_of_mem_alternativeActions unpositioned (later member)

end Placing

/-- The right one of two sibling compounds, placed behind the left one. -/
theorem perform_sibling {cursor : Cursor} {left : NodeId} (removes : options.duplicates = .remove)
    (sound : cursor.Sound) (resolved : cursor.node? = some left) (proper : descriptor.Proper)
    (noPosition : descriptor.position? = none)
    (sibling : descriptor.combinator.isSibling = true) (imported : Bool) :
    let after := cursor.perform options (.place descriptor imported)
    ∃ right parent, after.node? = some right ∧ left ∈ after.builder.tree.children parent ∧
      right ∈ after.builder.tree.children parent ∧
      (after.builder.tree.Precedes left right ↔
        ∀ child, child = left ∨ cursor.builder.tree.Precedes child left →
          cursor.builder.takes descriptor.element child = false) := by
  intro after
  have host := sound.host_parentFor descriptor
  have listed : left ∈ cursor.builder.tree.children
      (cursor.builder.parentFor descriptor cursor.node?) := by
    obtain ⟨parent, _, attached⟩ :=
      Relation.TransGen.tail'_iff.mp (sound.node left resolved).below
    rw [resolved, Builder.parentFor, if_pos sibling,
      show cursor.builder.tree.parent left = some parent from attached]
    exact sound.builder.linked.mem_children attached
  have extended : cursor.builder.Extended after.builder :=
    extended_perform options sound noPosition
  have order := Builder.precedes_place_iff removes sound.builder host proper.classes listed imported
  have placed : after = _ := perform_place noPosition imported
  refine ⟨_, cursor.builder.parentFor descriptor cursor.node?, congrArg node? placed,
    extended.mem_children listed, ?_⟩
  rw [placed]
  exact order

end Cursor

namespace Builder

variable {options earlier : Options} {before : Builder} {alternative : ComplexSelector}
  {front back : List Descriptor} {left right : Descriptor}

theorem sound_addAlternative (sound : before.Sound) (rule : TreeRule)
    (alternative : ComplexSelector) : (addAlternative options rule before alternative).Sound := by
  have finished : (Cursor.performAll options (rule.alternativeActions alternative)
      ⟨before, none⟩).builder = addAlternative options rule before alternative :=
    Cursor.builder_performAll_alternative rule alternative
  rw [← finished]
  exact (Cursor.sound_performAll options (Cursor.sound_none sound)
    fun _ => proper_of_mem_alternativeActions).1.builder

/-- Two neighbouring compounds that a sibling combinator joins resolve to
children of one parent.  The right one is another element and comes later
exactly if, when it was placed, every child up to the node of the left one
refused its element. -/
theorem follows_iff_refused (removes : options.duplicates = .remove)
    (reachable : before.Reachable earlier) (rule : TreeRule)
    (built : Descriptor.chain alternative = .ok (front ++ left :: right :: back))
    (unpositioned : alternative.Unpositioned) (sibling : right.combinator.isSibling = true) :
    let middle := Cursor.placing options before rule.imported (front ++ [left])
    let after := addAlternative options rule before alternative
    ∃ leftNode rightNode parent,
      middle.node? = some leftNode ∧
      (Cursor.placing options before rule.imported (front ++ [left] ++ [right])).node? =
        some rightNode ∧
      leftNode ∈ after.tree.children parent ∧ rightNode ∈ after.tree.children parent ∧
      ((leftNode ≠ rightNode ∧ after.tree.Precedes leftNode rightNode) ↔
        ∀ child, child = leftNode ∨ middle.builder.tree.Precedes child leftNode →
          middle.builder.takes right.element child = false) := by
  intro middle after
  have builtLeft : Descriptor.chain alternative = .ok (front ++ [left] ++ right :: back) := by
    simpa using built
  have builtRight : Descriptor.chain alternative = .ok (front ++ [left] ++ [right] ++ back) := by
    simpa using built
  obtain ⟨step, inChain, single⟩ :=
    Descriptor.exists_compound_of_mem (Descriptor.chain_eq_ok_iff.mp built)
      (show right ∈ front ++ left :: right :: back by simp)
  have proper := Descriptor.proper_of_ofCompound single
  have noPosition := Descriptor.position?_of_ofCompound single (unpositioned step inChain)
  have sound : middle.Sound := Cursor.sound_placing options rule reachable.sound builtLeft
  obtain ⟨leftNode, leftResolved⟩ : ∃ leftNode, middle.node? = some leftNode :=
    ⟨_, congrArg Cursor.node? (Cursor.placing_concat left)⟩
  obtain ⟨rightNode, parent, rightResolved, listed, listedRight, order⟩ :=
    Cursor.perform_sibling removes sound leftResolved proper noPosition sibling rule.imported
  rw [← Cursor.placing_concat] at rightResolved listed listedRight order
  have soundRight := Cursor.sound_placing options rule reachable.sound builtRight
  have extended :=
    Cursor.extended_placing options rule reachable.sound builtRight unpositioned
  have linkedAfter : after.tree.Linked :=
    (sound_addAlternative reachable.sound rule alternative).linked
  refine ⟨leftNode, rightNode, parent, leftResolved, rightResolved,
    extended.mem_children listed, extended.mem_children listedRight, ?_⟩
  rw [and_iff_right_of_imp fun precedes => precedes.ne linkedAfter,
    extended.precedes_iff soundRight.builder.linked linkedAfter listed listedRight]
  exact order

end Builder

/-! ## Two pairs of siblings -/

/-- A selector of the form `left + right`. -/
def siblingPair (left right : String) : ComplexSelector :=
  ⟨.ofType? (some (.name right)), [(.nextSibling, .ofType? (some (.name left)))]⟩

/-- A rule of the form `left + right` without a content. -/
def pairRule (left right : String) : TreeRule := ⟨[siblingPair left right], none, false⟩

/-- The descriptor of a tag. -/
def tagDescriptor (tag : String) (combinator : Combinator) : Descriptor :=
  ⟨.ofTag tag, combinator, none⟩

/-- In `dt + dd` the right element comes later, since the left one refuses
it. -/
theorem follows_termPair :
    Builder.start.Reachable .standard ∧ (siblingPair "dt" "dd").Unpositioned ∧
      Descriptor.chain (siblingPair "dt" "dd") =
        .ok [tagDescriptor "dt" .descendant, tagDescriptor "dd" .nextSibling] ∧
      ∃ leftNode rightNode,
        leftNode ≠ rightNode ∧
          (Builder.addAlternative .standard (pairRule "dt" "dd") .start
            (siblingPair "dt" "dd")).tree.Precedes leftNode rightNode := by
  have reachable : Builder.start.Reachable .standard := ⟨[], [], [], rfl, rfl⟩
  have unpositioned : (siblingPair "dt" "dd").Unpositioned := by decide
  have removes : Options.standard.duplicates = .remove := rfl
  have built : Descriptor.chain (siblingPair "dt" "dd") =
      .ok ([] ++ tagDescriptor "dt" .descendant :: tagDescriptor "dd" .nextSibling :: []) := by
    decide
  refine ⟨reachable, unpositioned, built, ?_⟩
  obtain ⟨leftNode, rightNode, parent, leftResolved, -, -, -, follows⟩ :=
    Builder.follows_iff_refused removes reachable (pairRule "dt" "dd") built unpositioned rfl
  refine ⟨leftNode, rightNode, follows.mpr ?_⟩
  have sound := Cursor.sound_placing .standard (pairRule "dt" "dd") reachable.sound
    (show _ = Except.ok ([tagDescriptor "dt" .descendant] ++ _) from built)
  have single : leftNode = 2 := by
    cases leftResolved
    decide
  subst single
  have alone : (Cursor.placing .standard .start false
      [tagDescriptor "dt" .descendant]).builder.tree.children 1 = [] ++ 2 :: [] := by decide
  rintro child (rfl | before)
  · decide
  · exact absurd ((Tree.precedes_iff_mem_front sound.builder.linked alone).mp before)
      List.not_mem_nil

/-- In `li + li` both compounds resolve to one element, and the tree that is
built has no match for the selector. -/
theorem collapses_itemPair :
    (siblingPair "li" "li").Unpositioned ∧
      Descriptor.chain (siblingPair "li" "li") =
        .ok [tagDescriptor "li" .descendant, tagDescriptor "li" .nextSibling] ∧
      (Cursor.placing .standard .start false [tagDescriptor "li" .descendant]).node? = some 2 ∧
      (Cursor.placing .standard .start false
        [tagDescriptor "li" .descendant, tagDescriptor "li" .nextSibling]).node? = some 2 ∧
      (synthesize .standard [pairRule "li" "li"]).unmatched [pairRule "li" "li"] =
        [⟨"li + li", false⟩] := by
  decide

end SelectorTree
