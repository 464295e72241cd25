import SelectorTree.Proofs.Element.Describing
import SelectorTree.Proofs.Selector.Matching
import SelectorTree.Proofs.Synthesis.SiblingOrder

/-!
# Satisfied rules

With duplicates preserved, every compound adds an element behind all children
of its parent.  The nodes of an alternative then fit its chain as soon as they
are placed: the node placed last is the last child of its parent, so the next
one comes right behind it.  Later steps add children at the end and show
contents, neither of which undoes that.
-/

namespace SelectorTree

/-- A compound whose element, once it is built, meets it for good. -/
structure Compound.Lasting (compound : Compound) : Prop where
  named : compound.Named
  steady : compound.Steady
  unpositioned : ∀ pseudoClass ∈ compound.pseudoClasses, isPositional pseudoClass.name = false

namespace Builder

variable {before middle after : Builder} {parent left right id : NodeId} {element : Element}
  {imported : Bool}

/-! ## Builders that merge nothing -/

/-- An extension in which elements at most get contents to show. -/
structure Unmerged (before after : Builder) : Prop extends Extended before after where
  shown : ∀ id data, before.tree.element? id = some data →
    ∃ contents : List String,
      after.tree.element? id = some (contents.foldl Element.withContent data)

theorem unmerged_report (before : Builder) (report : Report) :
    Unmerged before { before with report } where
  toExtended := extended_report before report
  shown _ _ found := ⟨[], found⟩

theorem Unmerged.trans (first : Unmerged before middle) (second : Unmerged middle after) :
    Unmerged before after where
  toExtended := first.toExtended.trans second.toExtended
  shown id data found := by
    obtain ⟨early, foundMiddle⟩ := first.shown id data found
    obtain ⟨late, foundAfter⟩ := second.shown id _ foundMiddle
    refine ⟨early ++ late, ?_⟩
    rw [List.foldl_append]
    exact foundAfter

theorem unmerged_append (sound : before.Sound) (host : before.Host parent) (element : Element)
    (imported : Bool) : Unmerged before (before.append parent element imported).1 where
  toExtended := (preserved_append sound host element imported).toExtended
  shown id data found := by
    have grown := grown_append sound.linked (sound.host_lt_size host) element imported
    refine ⟨[], ?_⟩
    rw [Tree.element?_congr (grown.payload?_of_lt id (Tree.lt_size_of_element? found))]
    exact found

theorem unmerged_showContent (sound : before.Sound) {node? : Option NodeId}
    (real : ∀ id, node? = some id → before.Real id) (content : Option String) :
    Unmerged before (before.showContent node? content) where
  toExtended := extended_showContent sound real content
  shown id data found := by
    cases node? with
    | none => exact ⟨[], found⟩
    | some target =>
        cases content with
        | none => exact ⟨[], found⟩
        | some content =>
            by_cases same : id = target
            · subst same
              exact ⟨[stripQuotes content],
                Tree.element?_setContent_self sound.linked found (stripQuotes content)⟩
            · have rewritten :=
                rewritten_of_setContent sound (real target rfl) (stripQuotes content)
              exact ⟨[], (rewritten.shown.element?_of_ne id same).trans found⟩

/-- Preserving duplicates, the builder looks for no child to merge into. -/
theorem place_of_preserve {options : Options} (preserves : options.duplicates = .preserve) :
    before.place options parent element imported = before.append parent element imported := by
  simp only [place, preserves]

/-! ## What fits stays so -/

theorem Unmerged.selects (unmerged : Unmerged before after) {compound : Compound}
    (immune : compound.Immune) (selects : compound.selects before.tree id = true) :
    compound.selects after.tree id = true := by
  obtain ⟨data, found, accepts⟩ := (Option.any_eq_true _ _).mp selects
  obtain ⟨contents, foundAfter⟩ := unmerged.shown id data found
  rw [Compound.selects, foundAfter, Option.any_some, immune.accepts_contents,
    immune.accepts_congr before.tree]
  exact accepts

/-- A combinator that joins two nodes joins them also when more has come in
behind. -/
theorem Extended.joins (extended : Extended before after) (linked : before.tree.Linked)
    {combinator : Combinator} (joins : combinator.Joins before.tree left right) :
    combinator.Joins after.tree left right := by
  cases combinator with
  | descendant =>
      exact Relation.TransGen.mono (fun _ _ listed => extended.mem_children listed) _ _ joins
  | child => exact extended.mem_children joins
  | laterSibling => exact extended.precedes joins
  | nextSibling =>
      obtain ⟨element, parent, front, between, back, split, others⟩ := joins
      obtain ⟨more, longer⟩ := extended.children parent
      have old : ∀ {id}, id ∈ left :: between → id < before.tree.size := by
        intro id member
        have listed : id ∈ before.tree.children parent := by
          rw [split]
          refine List.mem_append_right front ?_
          rw [← List.cons_append]
          exact List.mem_append_left _ member
        exact linked.lt_size_of_mem listed
      refine ⟨?_, parent, front, between, back ++ more, ?_, ?_⟩
      · rw [extended.isElement_eq left (old List.mem_cons_self)]
        exact element
      · rw [← longer, split]
        simp
      · intro other member
        rw [extended.isElement_eq other (old (List.mem_cons_of_mem left member))]
        exact others other member

theorem Unmerged.fits (unmerged : Unmerged before after) (linked : before.tree.Linked)
    {steps : List (Combinator × Compound)} {nodes : List NodeId}
    (immune : ∀ step ∈ steps, step.2.Immune) (fits : Fits before.tree steps nodes) :
    Fits after.tree steps nodes := by
  induction fits with
  | nil => exact .nil
  | @snoc steps nodes combinator compound id _ joined selected ih =>
      apply Fits.snoc
      · exact ih fun step member => immune step (List.mem_append_left _ member)
      · exact fun left last => unmerged.toExtended.joins linked (joined left last)
      · exact unmerged.selects (immune (combinator, compound) (by simp)) selected

/-! ## Joining a new element -/

/-- An element that is placed behind the last child of a node's parent, or below
that node, is joined to it as its combinator says. -/
theorem joins_append (sound : before.Sound) (real : before.Real left)
    (last : ∃ parent front, before.tree.children parent = front ++ [left])
    (descriptor : Descriptor) (host : before.Host (before.parentFor descriptor (some left)))
    (element : Element) (imported : Bool) :
    descriptor.combinator.Joins
      (before.append (before.parentFor descriptor (some left)) element imported).1.tree left
      before.tree.size := by
  have relisted := children_append sound.linked (sound.host_lt_size host) element imported
  obtain ⟨parent, front, split⟩ := last
  have attached : before.tree.parent left = some parent :=
    sound.linked.parent_of_mem (by simp [split])
  have isElement := (unmerged_append sound host element imported).isElement_eq left
    (Tree.lt_size_of_parent attached)
  cases combinator : descriptor.combinator with
  | descendant =>
      have below : before.parentFor descriptor (some left) = left := by
        simp [parentFor, combinator, Combinator.isSibling]
      rw [below] at relisted
      apply Relation.TransGen.single
      rw [below, relisted]
      simp
  | child =>
      have below : before.parentFor descriptor (some left) = left := by
        simp [parentFor, combinator, Combinator.isSibling]
      rw [below] at relisted
      rw [Combinator.Joins, below, relisted]
      simp
  | nextSibling =>
      have beside : before.parentFor descriptor (some left) = parent := by
        simp [parentFor, combinator, Combinator.isSibling, attached]
      rw [beside] at relisted isElement
      rw [beside]
      refine ⟨isElement.trans real.element, parent, front, [], [], ?_, ?_⟩
      · rw [relisted, split]
        simp
      · exact fun other member => absurd member List.not_mem_nil
  | laterSibling =>
      have beside : before.parentFor descriptor (some left) = parent := by
        simp [parentFor, combinator, Combinator.isSibling, attached]
      rw [beside] at relisted
      rw [beside]
      refine ⟨parent, front, [], [], ?_⟩
      rw [relisted, split]
      simp

end Builder

/-! ## Runs -/

namespace Cursor

variable {options : Options} {cursor : Cursor} {action : Action} {actions : List Action}
  {steps : List (Combinator × Compound)} {nodes : List NodeId} {imported : Bool}

section Run

variable (preserves : options.duplicates = .preserve)

include preserves

theorem unmerged_perform (sound : cursor.Sound) (unpositioned : action.Unpositioned) :
    Builder.Unmerged cursor.builder (cursor.perform options action).builder := by
  cases action with
  | beginRule => exact Builder.unmerged_report cursor.builder _
  | skipAlternative => exact Builder.unmerged_report cursor.builder _
  | beginAlternative => exact Builder.unmerged_report cursor.builder _
  | write content => exact Builder.unmerged_showContent sound.builder sound.node content
  | place descriptor imported =>
      rw [perform_place unpositioned, Builder.place_of_preserve preserves]
      exact Builder.unmerged_append sound.builder (sound.host_parentFor descriptor) _ imported

theorem unmerged_performAll (sound : cursor.Sound) (proper : ∀ action ∈ actions, action.Proper)
    (unpositioned : ∀ action ∈ actions, action.Unpositioned) :
    Builder.Unmerged cursor.builder (cursor.performAll options actions).builder := by
  refine relates_performAll Builder.Unmerged Action.Unpositioned ?_ Builder.Unmerged.trans ?_
    sound proper unpositioned
  · exact fun builder => Builder.unmerged_report builder builder.report
  · exact fun soundCursor _ free => unmerged_perform preserves soundCursor free

end Run

/-- The compounds that were placed so far have nodes that fit, and the last of
them is the last child of its parent. -/
structure Resolved (cursor : Cursor) (steps : List (Combinator × Compound))
    (nodes : List NodeId) : Prop where
  fits : Fits cursor.builder.tree steps nodes
  immune : ∀ step ∈ steps, step.2.Immune
  node : nodes.getLast? = cursor.node?
  last : ∀ id, cursor.node? = some id →
    ∃ parent front, cursor.builder.tree.children parent = front ++ [id]

section Chain

variable (preserves : options.duplicates = .preserve) (sound : cursor.Sound)

include preserves sound

/-- Placing one more compound. -/
theorem Resolved.place (resolved : cursor.Resolved steps nodes) {combinator : Combinator}
    {compound : Compound} {descriptor : Descriptor}
    (built : Descriptor.ofCompound compound combinator = .ok descriptor)
    (lasting : compound.Lasting) (imported : Bool) :
    ∃ id, (cursor.perform options (.place descriptor imported)).Resolved
      (steps ++ [(combinator, compound)]) (nodes ++ [id]) := by
  obtain ⟨tag, position?, typed, noElement, -, same⟩ := Descriptor.ofCompound_eq_ok_iff.mp built
  have noClasses := Descriptor.pseudoClasses_eq_nil built lasting.unpositioned
  have host := sound.host_parentFor descriptor
  have linked := sound.builder.linked
  have allocated := sound.builder.host_lt_size host
  have unmerged := Builder.unmerged_append sound.builder host descriptor.element imported
  have added := (Builder.grown_append linked allocated descriptor.element imported).element_node
  rw [perform_place (Descriptor.position?_of_ofCompound built lasting.unpositioned),
    Builder.place_of_preserve preserves]
  refine ⟨cursor.builder.tree.size, ?_, ?_, List.getLast?_concat, ?_⟩
  · apply Fits.snoc (unmerged.fits linked resolved.immune resolved.fits)
    · intro left last
      rw [resolved.node] at last
      have joins := Builder.joins_append sound.builder (sound.node left last)
        (resolved.last left last) descriptor (last ▸ host) descriptor.element imported
      rw [Descriptor.combinator_of_ofCompound built, ← last] at joins
      exact joins
    · rw [Compound.selects, added, Option.any_some, same]
      exact Compound.accepts_elementOf typed lasting.named lasting.steady.coherent noElement
        noClasses imported _ _
  · intro step member
    rcases List.mem_append.mp member with old | new
    · exact resolved.immune step old
    · rw [List.mem_singleton.mp new]
      exact ⟨lasting.steady.free, noClasses⟩
  · intro id node
    cases node
    exact ⟨_, _, Builder.children_append linked allocated descriptor.element imported⟩

/-- Placing a whole chain, by induction on its compounds. -/
theorem Resolved.places {later : List (Combinator × Compound)} {descriptors : List Descriptor}
    (paired : List.Forall₂
      (fun step descriptor => Descriptor.ofCompound step.2 step.1 = .ok descriptor)
      later descriptors)
    (lasting : ∀ step ∈ later, step.2.Lasting) (resolved : cursor.Resolved steps nodes)
    (imported : Bool) :
    ∃ more, (cursor.performAll options (descriptors.map (.place · imported))).Resolved
      (steps ++ later) more := by
  induction paired generalizing cursor steps nodes with
  | nil =>
      rw [List.append_nil]
      exact ⟨nodes, resolved⟩
  | @cons step descriptor later descriptors built _ ih =>
      have first := lasting step List.mem_cons_self
      obtain ⟨id, next⟩ := resolved.place preserves sound built first imported
      have proper : (Action.place descriptor imported).Proper :=
        Descriptor.proper_of_ofCompound built
      obtain ⟨more, done⟩ := ih (sound_perform options sound proper).1
        (fun other member => lasting other (List.mem_cons_of_mem step member)) next
      refine ⟨more, ?_⟩
      simpa using done

end Chain

/-- Once the chain of an alternative is placed, all of it is resolved. -/
theorem resolved_placing (preserves : options.duplicates = .preserve) {before : Builder}
    (sound : before.Sound) {alternative : ComplexSelector} {chain : List Descriptor}
    (built : Descriptor.chain alternative = .ok chain)
    (lasting : ∀ step ∈ alternative.chain, step.2.Lasting) (imported : Bool) :
    ∃ nodes, (placing options before imported chain).Resolved alternative.chain nodes := by
  have harmless : Action.beginAlternative.Proper := trivial
  have begun := (sound_perform options (sound_none sound) harmless).1
  have nothing : ((⟨before, none⟩ : Cursor).perform options .beginAlternative).Resolved [] [] :=
    ⟨.nil, by simp, rfl, by simp [perform]⟩
  exact nothing.places preserves begun (Descriptor.chain_eq_ok_iff.mp built) lasting imported

end Cursor

/-! ## Rules -/

/-- Where a run adds an alternative. -/
theorem exists_split_runActions {rules : List TreeRule} {rule : TreeRule}
    {alternative : ComplexSelector} (listed : rule ∈ rules)
    (inRule : alternative ∈ rule.selectors) :
    ∃ early late, runActions rules = early ++ (rule.alternativeActions alternative ++ late) := by
  obtain ⟨rulesBefore, rulesBehind, splitRules⟩ := List.append_of_mem listed
  obtain ⟨selectorsBefore, selectorsBehind, splitSelectors⟩ := List.append_of_mem inRule
  refine ⟨runActions rulesBefore ++
      .beginRule :: selectorsBefore.flatMap rule.alternativeActions,
    selectorsBehind.flatMap rule.alternativeActions ++ runActions rulesBehind, ?_⟩
  rw [splitRules, runActions, List.flatMap_append, List.flatMap_cons, TreeRule.actions,
    splitSelectors, List.flatMap_append, List.flatMap_cons]
  simp [runActions]

/-- A rule that was read from a text. -/
def TreeRule.Parsed (rule : TreeRule) : Prop :=
  ∃ text, SelectorList.ofText text = .ok rule.selectors

/-- A rule whose accepted alternatives have steady compounds only. -/
def TreeRule.Steady (rule : TreeRule) : Prop :=
  ∀ alternative ∈ rule.selectors, ∀ descriptors, Descriptor.chain alternative = .ok descriptors →
    ∀ step ∈ alternative.chain, step.2.Steady

section Satisfied

variable {options : Options} {rules : List TreeRule} (preserves : options.duplicates = .preserve)
  (parsed : ∀ rule ∈ rules, rule.Parsed) (unpositioned : ∀ rule ∈ rules, rule.Unpositioned)
  (steady : ∀ rule ∈ rules, rule.Steady)

include preserves parsed unpositioned steady

/-- The nodes of an alternative fit its chain as soon as they are placed, and
they still do so at the end of the run. -/
theorem exists_fits {rule : TreeRule} (listed : rule ∈ rules) {alternative : ComplexSelector}
    (inRule : alternative ∈ rule.selectors) {chain : List Descriptor}
    (built : Descriptor.chain alternative = .ok chain) :
    ∃ nodes id, Fits (Builder.ofRules options rules).tree alternative.chain nodes ∧
      nodes.getLast? = some id ∧ (Builder.ofRules options rules).Real id := by
  obtain ⟨text, read⟩ := parsed rule listed
  have lasting : ∀ step ∈ alternative.chain, step.2.Lasting := by
    intro step inChain
    exact ⟨(SelectorList.named_of_ofText read alternative inRule).of_mem_chain inChain,
      steady rule listed alternative inRule chain built step inChain,
      unpositioned rule listed alternative inRule chain built step inChain⟩
  obtain ⟨early, late, split⟩ := exists_split_runActions listed inRule
  have actions : runActions rules =
      early ++ (.beginAlternative :: chain.map (.place · rule.imported)) ++
        (.write rule.content :: late) := by
    rw [split, TreeRule.alternativeActions, built]
    simp
  have proper : ∀ action ∈ runActions rules, action.Proper := fun _ => proper_of_mem_runActions
  have free : ∀ action ∈ runActions rules, action.Unpositioned :=
    fun _ => unpositioned_of_mem_runActions unpositioned
  rw [actions] at proper free
  obtain ⟨properPlaced, properRest⟩ := List.forall_mem_append.mp proper
  have soundEarly : (Cursor.after options early).builder.Sound :=
    (Cursor.sound_after (List.forall_mem_append.mp properPlaced).1).builder
  have whole : Descriptor.chain alternative = .ok (chain ++ []) := by
    rw [List.append_nil]
    exact built
  have sound := Cursor.sound_placing options rule soundEarly whole
  obtain ⟨nodes, resolved⟩ :=
    Cursor.resolved_placing preserves soundEarly built lasting rule.imported
  have unmerged := Cursor.unmerged_performAll preserves sound properRest
    (List.forall_mem_append.mp free).2
  have finished : ((Cursor.placing options (Cursor.after options early).builder rule.imported
      chain).performAll options (.write rule.content :: late)).builder =
        Builder.ofRules options rules := by
    rw [← Cursor.builder_after_runActions, actions, Cursor.after_append, Cursor.after_append]
    rfl
  rw [finished] at unmerged
  obtain ⟨front, id, rfl⟩ := resolved.fits.exists_last ComplexSelector.chainFrom_ne_nil
  have last : (front ++ [id]).getLast? = some id := List.getLast?_concat
  exact ⟨front ++ [id], id, unmerged.fits sound.builder.linked resolved.immune resolved.fits, last,
    unmerged.real id (sound.node id (resolved.node.symm.trans last))⟩

/-- Every accepted alternative matches an element below the body, whatever rules
come before and behind, if duplicates are preserved. -/
theorem satisfied_synthesize :
    (∀ rule ∈ rules, ∀ alternative ∈ rule.selectors, ∀ chain,
      Descriptor.chain alternative = .ok chain →
        ∃ id ∈ (synthesize options rules).elements,
          alternative.selects (synthesize options rules).tree id = true) ∧
      (synthesize options rules).unmatched rules = [] := by
  have matched : ∀ rule ∈ rules, ∀ alternative ∈ rule.selectors, ∀ chain,
      Descriptor.chain alternative = .ok chain →
        ∃ id ∈ (synthesize options rules).elements,
          alternative.selects (synthesize options rules).tree id = true := by
    intro rule listed alternative inRule chain built
    obtain ⟨nodes, id, fits, last, real⟩ :=
      exists_fits preserves parsed unpositioned steady listed inRule built
    have linked := (Builder.sound_ofRules options rules).linked
    refine ⟨id, List.mem_filter.mpr ⟨?_, real.element⟩, ?_⟩
    · exact (Tree.mem_descendants_iff linked).mpr real.below
    · rw [ComplexSelector.selects, Bool.and_eq_true]
      exact (selected_iff linked).mpr ⟨nodes, fits, last⟩
  refine ⟨matched, ?_⟩
  rw [Synthesis.unmatched, List.flatMap_eq_nil_iff]
  intro rule listed
  rw [List.map_eq_nil_iff, List.filter_eq_nil_iff]
  intro alternative inRule missed
  rw [Synthesis.misses, Bool.and_eq_true, Bool.not_eq_true'] at missed
  cases built : Descriptor.chain alternative with
  | error reason => simp [built, Except.isOk, Except.toBool] at missed
  | ok chain =>
      obtain ⟨id, member, selects⟩ := matched rule listed alternative inRule chain built
      exact absurd (List.any_eq_true.mpr ⟨id, member, selects⟩) (by simp [missed.2])

end Satisfied

/-- The rules `ul.menu > li#first + li[title=x]` with a content and `li ~ b, *`.
The second alternative of the second one is not accepted. -/
def menuRules : List TreeRule :=
  [⟨[⟨⟨some (.name "li"), [], [], [⟨"title", some ⟨.equals, "x", false⟩⟩], [], none⟩,
      [(.nextSibling, ⟨some (.name "li"), ["first"], [], [], [], none⟩),
        (.child, ⟨some (.name "ul"), [], ["menu"], [], [], none⟩)]⟩], some "two", false⟩,
   ⟨[⟨.ofType? (some (.name "b")), [(.laterSibling, .ofType? (some (.name "li")))]⟩,
      ⟨.ofType? (some .wildcard), []⟩], none, false⟩]

theorem satisfied_menuRules :
    (∀ rule ∈ menuRules, rule.Parsed) ∧ (∀ rule ∈ menuRules, rule.Unpositioned) ∧
      (∀ rule ∈ menuRules, rule.Steady) ∧
      (synthesize { Options.standard with duplicates := .preserve } menuRules).unmatched
        menuRules = [] := by
  have texts : SelectorList.ofText "ul.menu > li#first + li[title=x]" =
        .ok (menuRules[0].selectors) ∧
      SelectorList.ofText "li ~ b, *" = .ok (menuRules[1].selectors) := by decide +kernel
  have parsed : ∀ rule ∈ menuRules, rule.Parsed := by
    intro rule listed
    rcases List.mem_pair.mp listed with rfl | rfl
    · exact ⟨_, texts.1⟩
    · exact ⟨_, texts.2⟩
  have bare : ∀ rule ∈ menuRules, ∀ alternative ∈ rule.selectors,
      ∀ step ∈ alternative.chain, step.2.pseudoClasses = [] := by decide
  have unpositioned : ∀ rule ∈ menuRules, rule.Unpositioned :=
    fun rule listed => unpositioned_of_bare (bare rule listed)
  have steadySteps : ∀ rule ∈ menuRules, ∀ alternative ∈ rule.selectors,
      ∀ step ∈ alternative.chain, step.2.Steady := by decide
  have steady : ∀ rule ∈ menuRules, rule.Steady :=
    fun rule listed alternative inRule _ _ => steadySteps rule listed alternative inRule
  exact ⟨parsed, unpositioned, steady, (satisfied_synthesize rfl parsed unpositioned steady).2⟩

end SelectorTree
