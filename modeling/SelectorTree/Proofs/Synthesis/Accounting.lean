import Mathlib
import SelectorTree.Proofs.Synthesis.Runs
import SelectorTree.Proofs.Tree.Descendants
import SelectorTree.Synthesis.Verify

/-!
# Reports add up

Every action raises one counter of the report, or none.  The counter of created
elements agrees with the tree as well: an element is real exactly from its
creation on, and fillers come in and go without being counted.
-/

namespace SelectorTree

/-- What a report counts while a tree is built. -/
inductive Counter where
  | rules
  | alternatives
  | skipped
  | placed
deriving DecidableEq

/-- An element counts as placed whether it was created or merged. -/
def Report.count (report : Report) : Counter → Nat
  | .rules => report.rules
  | .alternatives => report.alternatives
  | .skipped => report.skipped
  | .placed => report.created + report.merged

/-- The counter that an action raises. -/
def Action.counter? : Action → Option Counter
  | .beginRule => some .rules
  | .skipAlternative => some .skipped
  | .beginAlternative => some .alternatives
  | .place _ _ => some .placed
  | .write _ => none

/-- How often some actions raise a counter. -/
def raises (actions : List Action) (counter : Counter) : Nat :=
  actions.countP (·.counter? = some counter)

section Raises

variable {early late : List Action} {counter : Counter}

theorem raises_append :
    raises (early ++ late) counter = raises early counter + raises late counter :=
  List.countP_append

theorem raises_cons (action : Action) :
    raises (action :: late) counter =
      raises late counter + if action.counter? = some counter then 1 else 0 := by
  simp [raises, List.countP_cons]

theorem raises_flatMap {source : Type} (items : List source) (actions : source → List Action) :
    raises (items.flatMap actions) counter =
      (items.map fun item => raises (actions item) counter).sum :=
  List.countP_flatMap

end Raises

namespace Builder

variable {before after : Builder} {parent target : NodeId} {element : Element} {imported : Bool}
  {graft : Graft} {counter : Counter}

/-! ## Counters -/

theorem Outcome.count_report {result : Builder × NodeId}
    (outcome : Outcome before parent element imported result) :
    result.1.report.count counter =
      before.report.count counter + if some Counter.placed = some counter then 1 else 0 := by
  cases outcome with
  | merged _ _ success =>
      obtain ⟨_, _, _, _, rfl⟩ := tryMerge_eq_some_iff.mp success
      cases counter <;> simp [Report.count, Nat.add_assoc]
  | grown _ growth =>
      rw [growth.report_eq]
      cases counter <;> simp [Report.count]
      omega

/-! ## Real elements -/

theorem Grown.real_iff (grown : Grown before after element imported graft)
    (sound : before.Sound) (host : before.Host graft.parent) {id : NodeId} :
    after.Real id ↔ id = graft.node ∨ before.Real id := by
  constructor
  · intro real
    rcases grown.old_or_new (Tree.lt_size_of_below real.below) with old | rfl | lead
    · have below := grown.body_eq ▸ real.below
      have element := Tree.isElement_congr (grown.payload?_of_lt id old) ▸ real.element
      refine Or.inr ⟨grown.below_before sound.linked below old, element, ?_⟩
      refine Bool.eq_false_iff.mpr fun registered => ?_
      have gone : id ∈ graft.gone := by
        by_contra kept
        have still := (grown.contains_iff id).mpr (Or.inr ⟨registered, kept⟩)
        rw [real.unregistered] at still
        cases still
      obtain ⟨_, attached⟩ := Tree.Below.exists_parent real.below
      rw [grown.parent_of_gone sound.linked gone] at attached
      cases attached
    · exact Or.inl rfl
    · have registered := (grown.contains_iff id).mpr (Or.inl lead)
      rw [real.unregistered] at registered
      cases registered
  · rintro (rfl | real)
    · exact real_node_of_grown sound host grown
    · exact real.advance (advance_grown sound host grown)

theorem Rewritten.real_iff (rewritten : Rewritten before after target) (sound : before.Sound)
    (real : before.Real target) {id : NodeId} : after.Real id ↔ before.Real id := by
  constructor
  · intro realAfter
    have element := isElement_of_rewritten real rewritten id ▸ realAfter.element
    have old := Tree.lt_size_of_isElement element
    have below := rewritten.body_eq ▸ realAfter.below
    refine ⟨(rewritten.shown.below_iff sound.linked old).mp below, element, ?_⟩
    rw [← rewritten.fillers_eq]
    exact realAfter.unregistered
  · exact fun realBefore => realBefore.advance (advance_rewritten sound real rewritten)

open scoped Classical in
/-- The elements below the body that are no fillers. -/
noncomputable def realElements (builder : Builder) : Finset NodeId :=
  (Finset.range builder.tree.size).filter builder.Real

theorem mem_realElements {builder : Builder} {id : NodeId} :
    id ∈ builder.realElements ↔ builder.Real id := by
  classical
  rw [realElements, Finset.mem_filter, Finset.mem_range]
  constructor
  · exact fun member => member.2
  · exact fun real => ⟨Tree.lt_size_of_below real.below, real⟩

theorem realElements_congr (same : ∀ id, after.Real id ↔ before.Real id) :
    after.realElements = before.realElements := by
  ext id
  rw [mem_realElements, mem_realElements]
  exact same id

/-- The report has counted every real element once. -/
def Balanced (builder : Builder) : Prop :=
  builder.realElements.card = builder.report.created

theorem balanced_start : start.Balanced := by
  refine Finset.card_eq_zero.mpr (Finset.eq_empty_iff_forall_notMem.mpr fun id member => ?_)
  have real := mem_realElements.mp member
  have atBody := eq_body_of_start real.element
  subst atBody
  exact sound_start.linked.not_below_self _ real.below

theorem Balanced.report {builder : Builder} (balanced : builder.Balanced) {report : Report}
    (created : report.created = builder.report.created) :
    ({ builder with report } : Builder).Balanced := by
  have same : ({ builder with report } : Builder).realElements = builder.realElements :=
    realElements_congr fun id =>
      ⟨fun real => ⟨real.below, real.element, real.unregistered⟩,
        fun real => ⟨real.below, real.element, real.unregistered⟩⟩
  rw [Balanced, same, created]
  exact balanced

theorem Balanced.rewritten (balanced : before.Balanced) (sound : before.Sound)
    (real : before.Real target) (rewritten : Rewritten before after target)
    (created : after.report.created = before.report.created) : after.Balanced := by
  rw [Balanced, realElements_congr fun _ => rewritten.real_iff sound real, created]
  exact balanced

theorem Balanced.grown (balanced : before.Balanced) (sound : before.Sound)
    (host : before.Host graft.parent) (grown : Grown before after element imported graft) :
    after.Balanced := by
  have fresh : graft.node ∉ before.realElements := by
    intro member
    have old := Tree.lt_size_of_below (mem_realElements.mp member).below
    exact (grown.not_mem_lead_of_lt old).1 rfl
  have inserted : after.realElements = insert graft.node before.realElements := by
    ext id
    rw [Finset.mem_insert, mem_realElements, mem_realElements]
    exact grown.real_iff sound host
  rw [Balanced, inserted, Finset.card_insert_of_notMem fresh, grown.report_eq]
  exact congrArg (· + 1) balanced

theorem Outcome.balanced {result : Builder × NodeId}
    (outcome : Outcome before parent element imported result) (sound : before.Sound)
    (host : before.Host parent) (balanced : before.Balanced) : result.1.Balanced := by
  cases outcome with
  | merged listed unregistered success =>
      have real := Sound.child_real host listed sound.linked unregistered
      refine balanced.rewritten sound real (rewritten_of_tryMerge sound real success) ?_
      obtain ⟨_, _, _, _, rfl⟩ := tryMerge_eq_some_iff.mp success
      rfl
  | grown atParent growth =>
      subst atParent
      exact balanced.grown sound host growth

theorem balanced_showContent (balanced : before.Balanced) (sound : before.Sound)
    {node? : Option NodeId} (real : ∀ id, node? = some id → before.Real id)
    (content : Option String) : (before.showContent node? content).Balanced := by
  cases node? with
  | none => exact balanced
  | some target =>
      cases content with
      | none => exact balanced
      | some content =>
          have atTarget := real target rfl
          exact balanced.rewritten sound atTarget
            (rewritten_of_setContent sound atTarget (stripQuotes content)) rfl

end Builder

/-! ## Runs -/

namespace Cursor

variable {options : Options} {cursor : Cursor} {action : Action} {actions : List Action}
  {counter : Counter}

theorem count_perform (options : Options) (sound : cursor.Sound) (action : Action) :
    (cursor.perform options action).builder.report.count counter =
      cursor.builder.report.count counter +
        if action.counter? = some counter then 1 else 0 := by
  cases action with
  | place descriptor imported =>
      exact (outcome_placeDescriptor options sound descriptor imported).count_report
  | write content =>
      rw [perform, Builder.report_showContent]
      rfl
  | beginRule => cases counter <;> rfl
  | skipAlternative => cases counter <;> rfl
  | beginAlternative => cases counter <;> rfl

theorem count_performAll (options : Options) (sound : cursor.Sound)
    (proper : ∀ action ∈ actions, action.Proper) :
    (cursor.performAll options actions).builder.report.count counter =
      cursor.builder.report.count counter + raises actions counter := by
  induction actions generalizing cursor with
  | nil => rfl
  | cons action rest ih =>
      obtain ⟨properFirst, properRest⟩ := List.forall_mem_cons.mp proper
      have soundNext := (sound_perform options sound properFirst).1
      rw [performAll_cons, ih soundNext properRest, count_perform options sound, raises_cons]
      omega

theorem balanced_perform (options : Options) (sound : cursor.Sound)
    (balanced : cursor.builder.Balanced) (action : Action) :
    (cursor.perform options action).builder.Balanced := by
  cases action with
  | place descriptor imported =>
      exact (outcome_placeDescriptor options sound descriptor imported).balanced sound.builder
        (sound.host_parentFor descriptor) balanced
  | write content => exact Builder.balanced_showContent balanced sound.builder sound.node content
  | beginRule => exact balanced.report rfl
  | skipAlternative => exact balanced.report rfl
  | beginAlternative => exact balanced.report rfl

theorem balanced_performAll (options : Options) (sound : cursor.Sound)
    (balanced : cursor.builder.Balanced) (proper : ∀ action ∈ actions, action.Proper) :
    (cursor.performAll options actions).builder.Balanced := by
  refine relates_performAll (fun before after => before.Balanced → after.Balanced)
    (fun _ => True) (fun _ balanced => balanced) (fun first second => second ∘ first) ?_ sound
    proper (fun _ _ => trivial) balanced
  exact fun soundCursor _ _ balancedCursor =>
    balanced_perform options soundCursor balancedCursor _

end Cursor

/-! ## What the actions of a run raise -/

/-- Whether an alternative describes elements. -/
def accepted (alternative : ComplexSelector) : Bool := (Descriptor.chain alternative).isOk

/-- How often an alternative raises a counter. -/
def ComplexSelector.raises (alternative : ComplexSelector) : Counter → Nat
  | .rules => 0
  | .alternatives => if accepted alternative then 1 else 0
  | .skipped => if accepted alternative then 0 else 1
  | .placed => if accepted alternative then alternative.chain.length else 0

theorem raises_places (chain : List Descriptor) (imported : Bool) (counter : Counter) :
    raises (chain.map (.place · imported)) counter =
      if counter = .placed then chain.length else 0 := by
  rw [raises, List.countP_map]
  cases counter <;> simp [Function.comp_def, Action.counter?]

theorem raises_alternativeActions (rule : TreeRule) (alternative : ComplexSelector)
    (counter : Counter) :
    raises (rule.alternativeActions alternative) counter = alternative.raises counter := by
  cases result : Descriptor.chain alternative with
  | error reason =>
      have refused : accepted alternative = false := by simp [accepted, result, Except.isOk,
        Except.toBool]
      rw [TreeRule.alternativeActions, result]
      cases counter <;> simp [raises, ComplexSelector.raises, refused, Action.counter?]
  | ok chain =>
      have built : accepted alternative = true := by simp [accepted, result, Except.isOk,
        Except.toBool]
      have compounds : alternative.chain.length = chain.length :=
        (Descriptor.chain_eq_ok_iff.mp result).length_eq
      rw [TreeRule.alternativeActions, result]
      simp only [raises_append, raises_cons, raises_places]
      cases counter <;> simp [raises, ComplexSelector.raises, built, compounds, Action.counter?]

theorem raises_actions (rule : TreeRule) (counter : Counter) :
    raises rule.actions counter =
      (rule.selectors.map (·.raises counter)).sum + if counter = .rules then 1 else 0 := by
  rw [TreeRule.actions, raises_cons, raises_flatMap]
  simp only [raises_alternativeActions, Action.counter?, Option.some.injEq, eq_comm]

theorem raises_runActions (rules : List TreeRule) (counter : Counter) :
    raises (runActions rules) counter =
      ((rules.flatMap (·.selectors)).map (·.raises counter)).sum +
        if counter = .rules then rules.length else 0 := by
  induction rules with
  | nil => cases counter <;> rfl
  | cons rule rest ih =>
      rw [runActions, List.flatMap_cons, raises_append, ← runActions, ih, raises_actions,
        List.flatMap_cons, List.map_append, List.sum_append, List.length_cons]
      split <;> omega

theorem count_ofRules (options : Options) (rules : List TreeRule) (counter : Counter) :
    (Builder.ofRules options rules).report.count counter =
      raises (runActions rules) counter := by
  rw [← Cursor.builder_after_runActions, Cursor.after, Cursor.count_performAll options
    Cursor.sound_start fun _ member => proper_of_mem_runActions member]
  cases counter <;> exact Nat.zero_add _

theorem Builder.balanced_ofRules (options : Options) (rules : List TreeRule) :
    (ofRules options rules).Balanced := by
  rw [← Cursor.builder_after_runActions]
  exact Cursor.balanced_performAll options Cursor.sound_start balanced_start
    fun _ member => proper_of_mem_runActions member

/-! ## Sums over alternatives -/

section Sums

variable (alternatives : List ComplexSelector)

theorem sum_raises_rules : (alternatives.map (·.raises .rules)).sum = 0 := by
  simp [ComplexSelector.raises]

theorem sum_raises_alternatives :
    (alternatives.map (·.raises .alternatives)).sum = alternatives.countP accepted := by
  induction alternatives with
  | nil => rfl
  | cons first rest ih =>
      rw [List.map_cons, List.sum_cons, ih, List.countP_cons, ComplexSelector.raises]
      omega

theorem sum_raises_skipped :
    (alternatives.map (·.raises .skipped)).sum = alternatives.countP (!accepted ·) := by
  induction alternatives with
  | nil => rfl
  | cons first rest ih =>
      rw [List.map_cons, List.sum_cons, ih, List.countP_cons, ComplexSelector.raises]
      cases accepted first <;> simp [Nat.add_comm]

theorem sum_raises_placed :
    (alternatives.map (·.raises .placed)).sum =
      ((alternatives.filter accepted).map (·.chain.length)).sum := by
  induction alternatives with
  | nil => rfl
  | cons first rest ih =>
      rw [List.map_cons, List.sum_cons, ih, ComplexSelector.raises]
      cases built : accepted first <;> simp [built]

end Sums

/-! ## The tree and the report -/

namespace Builder.Sound

variable {builder : Builder} {id : NodeId}

theorem mem_elements_iff (sound : builder.Sound) :
    id ∈ builder.finish.elements ↔
      builder.tree.Below builder.body id ∧ builder.tree.isElement id = true := by
  rw [Synthesis.elements, List.mem_filter]
  exact and_congr_left' (Tree.mem_descendants_iff sound.linked)

theorem nodup_elements (sound : builder.Sound) : builder.finish.elements.Nodup :=
  (Tree.nodup_descendants sound.linked builder.body).filter _

/-- The registry lists the fillers below the body, each once. -/
theorem size_fillers (sound : builder.Sound) :
    builder.fillers.size = (builder.finish.elements.filter builder.fillers.contains).length := by
  apply List.Perm.length_eq
  rw [List.perm_ext_iff_of_nodup builder.fillers.nodup (sound.nodup_elements.filter _)]
  intro id
  have registered : id ∈ builder.fillers.nodes ↔ builder.fillers.contains id = true :=
    List.contains_iff_mem.symm
  rw [registered, List.mem_filter, sound.mem_elements_iff]
  constructor
  · intro known
    obtain ⟨data, found, -⟩ := sound.filler_bare id known
    exact ⟨⟨sound.filler_below id known, Tree.isElement_iff.mpr ⟨data, found⟩⟩, known⟩
  · exact fun member => member.2

theorem card_realElements (sound : builder.Sound) :
    builder.realElements.card =
      (builder.finish.elements.filter (!builder.fillers.contains ·)).length := by
  rw [← List.toFinset_card_of_nodup (sound.nodup_elements.filter _)]
  refine congrArg Finset.card (Finset.ext fun id => ?_)
  rw [mem_realElements, List.mem_toFinset, List.mem_filter, sound.mem_elements_iff,
    Bool.not_eq_true']
  constructor
  · exact fun real => ⟨⟨real.below, real.element⟩, real.unregistered⟩
  · exact fun ⟨⟨below, element⟩, unregistered⟩ => ⟨below, element, unregistered⟩

end Builder.Sound

/-- A report accounts for the rules of a run and for the tree that came of
them. -/
structure Synthesis.Accounted (synthesis : Synthesis) (rules : List TreeRule)
    (fillers : Fillers) : Prop where
  rules_eq : synthesis.report.rules = rules.length
  alternatives_eq :
    synthesis.report.alternatives = (rules.flatMap (·.selectors)).countP accepted
  skipped_eq : synthesis.report.skipped = (rules.flatMap (·.selectors)).countP (!accepted ·)
  alternatives_add_skipped : synthesis.report.alternatives + synthesis.report.skipped =
    (rules.flatMap (·.selectors)).length
  created_add_merged : synthesis.report.created + synthesis.report.merged =
    (((rules.flatMap (·.selectors)).filter accepted).map (·.chain.length)).sum
  nodup_elements : synthesis.elements.Nodup
  mem_elements_iff : ∀ id, id ∈ synthesis.elements ↔
    synthesis.tree.Below synthesis.body id ∧ synthesis.tree.isElement id = true
  fillers_eq : synthesis.report.fillers = (synthesis.elements.filter fillers.contains).length
  elements_length : synthesis.elements.length =
    synthesis.report.created + synthesis.report.fillers

/-- Whatever the options and the rules are, the report accounts for the run. -/
theorem accounted_synthesize (options : Options) (rules : List TreeRule) :
    (synthesize options rules).Accounted rules (Builder.ofRules options rules).fillers := by
  have count := count_ofRules options rules
  have sound := Builder.sound_ofRules options rules
  have alternatives : (synthesize options rules).report.alternatives =
      (rules.flatMap (·.selectors)).countP accepted :=
    (count .alternatives).trans <| (raises_runActions rules _).trans <|
      sum_raises_alternatives _
  have skipped : (synthesize options rules).report.skipped =
      (rules.flatMap (·.selectors)).countP (!accepted ·) :=
    (count .skipped).trans <| (raises_runActions rules _).trans <| sum_raises_skipped _
  have split := List.length_eq_countP_add_countP accepted (l := rules.flatMap (·.selectors))
  refine ⟨?_, alternatives, skipped, ?_, ?_, sound.nodup_elements, fun _ => sound.mem_elements_iff,
    sound.size_fillers, ?_⟩
  · refine (count .rules).trans ((raises_runActions rules _).trans ?_)
    rw [sum_raises_rules, Nat.zero_add, if_pos rfl]
  · rw [alternatives, skipped, split]
    simp
  · exact (count .placed).trans <| (raises_runActions rules _).trans <| sum_raises_placed _
  · have created := (Builder.balanced_ofRules options rules).symm.trans sound.card_realElements
    have parts := List.length_eq_length_filter_add
      (l := (synthesize options rules).elements) (Builder.ofRules options rules).fillers.contains
    have fillers : (synthesize options rules).report.fillers = _ := sound.size_fillers
    rw [fillers, parts, Nat.add_comm]
    exact congrArg (· + _) created.symm

end SelectorTree
