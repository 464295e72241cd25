import SelectorTree.Synthesis.Builder

/-!
# A run as a list of actions

Building a tree nests three loops: over rules, over their alternatives, and
over the descriptors of a chain.  Flattened, a run performs one action after
the other on a cursor, which holds the builder and the node that the last
descriptor resolved to.  What holds at every moment of a run is then proved for
one action and carried along the list.
-/

namespace SelectorTree

/-- A builder with the node of the descriptor that was placed last. -/
structure Cursor where
  builder : Builder
  node? : Option NodeId

/-- What a run does at one moment. -/
inductive Action where
  | beginRule
  | skipAlternative
  | beginAlternative
  | place (descriptor : Descriptor) (imported : Bool)
  | write (content : Option String)

namespace Cursor

def start : Cursor := ⟨.start, none⟩

def perform (options : Options) (cursor : Cursor) : Action → Cursor
  | .beginRule =>
      { cursor with
        builder.report := { cursor.builder.report with rules := cursor.builder.report.rules + 1 } }
  | .skipAlternative =>
      { cursor with
        builder.report :=
          { cursor.builder.report with skipped := cursor.builder.report.skipped + 1 } }
  | .beginAlternative =>
      ⟨{ cursor.builder with
          report :=
            { cursor.builder.report with alternatives := cursor.builder.report.alternatives + 1 } },
        none⟩
  | .place descriptor imported =>
      let placed := cursor.builder.placeDescriptor options cursor.node? descriptor imported
      ⟨placed.1, some placed.2⟩
  | .write content => { cursor with builder := cursor.builder.showContent cursor.node? content }

def performAll (options : Options) (actions : List Action) (cursor : Cursor) : Cursor :=
  actions.foldl (perform options) cursor

end Cursor

/-- The actions of one alternative; a chain starts anew at the body. -/
def TreeRule.alternativeActions (rule : TreeRule) (alternative : ComplexSelector) :
    List Action :=
  match Descriptor.chain alternative with
  | .error _ => [.skipAlternative]
  | .ok chain =>
      .beginAlternative :: chain.map (.place · rule.imported) ++ [.write rule.content]

def TreeRule.actions (rule : TreeRule) : List Action :=
  .beginRule :: rule.selectors.flatMap rule.alternativeActions

/-- All actions of a run. -/
def runActions (rules : List TreeRule) : List Action := rules.flatMap TreeRule.actions

/-- Every descriptor that a run places is in the chain of some alternative. -/
theorem exists_alternative_of_place {rules : List TreeRule} {descriptor : Descriptor}
    {imported : Bool} (member : .place descriptor imported ∈ runActions rules) :
    ∃ rule ∈ rules, rule.imported = imported ∧ ∃ alternative ∈ rule.selectors, ∃ chain,
      Descriptor.chain alternative = .ok chain ∧ descriptor ∈ chain := by
  obtain ⟨rule, listedRule, ofRule⟩ := List.mem_flatMap.mp member
  rcases List.mem_cons.mp ofRule with none | later
  · cases none
  · obtain ⟨alternative, listed, ofAlternative⟩ := List.mem_flatMap.mp later
    refine ⟨rule, listedRule, ?_⟩
    rw [TreeRule.alternativeActions] at ofAlternative
    split at ofAlternative
    · simp at ofAlternative
    · next chain built =>
        have placed : ∃ other ∈ chain, other = descriptor ∧ rule.imported = imported := by
          simpa using ofAlternative
        obtain ⟨_, inChain, rfl, sameImport⟩ := placed
        exact ⟨sameImport, alternative, listed, chain, built, inChain⟩

namespace Cursor

variable {options : Options} {cursor : Cursor}

@[simp] theorem performAll_cons (action : Action) (actions : List Action) :
    cursor.performAll options (action :: actions) =
      (cursor.perform options action).performAll options actions := rfl

/-- What placing a descriptor without a position does. -/
theorem perform_place {descriptor : Descriptor} (noPosition : descriptor.position? = none)
    (imported : Bool) :
    cursor.perform options (.place descriptor imported) =
      ⟨(cursor.builder.place options (cursor.builder.parentFor descriptor cursor.node?)
          descriptor.element imported).1,
        some (cursor.builder.place options (cursor.builder.parentFor descriptor cursor.node?)
          descriptor.element imported).2⟩ := by
  simp only [perform, Builder.placeDescriptor, noPosition]

theorem performAll_append (early late : List Action) :
    cursor.performAll options (early ++ late) =
      (cursor.performAll options early).performAll options late :=
  List.foldl_append

theorem performAll_places (builder : Builder) (previous : Option NodeId) (imported : Bool)
    (chain : List Descriptor) :
    performAll options (chain.map (.place · imported)) ⟨builder, previous⟩ =
      ⟨(builder.placeChain options imported previous chain).1,
        (builder.placeChain options imported previous chain).2⟩ := by
  induction chain generalizing builder previous with
  | nil => rfl
  | cons descriptor rest ih => exact ih _ _

theorem builder_performAll_alternative (rule : TreeRule) (alternative : ComplexSelector) :
    (cursor.performAll options (rule.alternativeActions alternative)).builder =
      Builder.addAlternative options rule cursor.builder alternative := by
  cases result : Descriptor.chain alternative with
  | error reason =>
      simp only [TreeRule.alternativeActions, Builder.addAlternative, result]
      rfl
  | ok chain =>
      simp only [TreeRule.alternativeActions, Builder.addAlternative, result, List.cons_append]
      rw [performAll_cons, performAll_append, perform, performAll_places]
      rfl

theorem builder_performAll_rule (rule : TreeRule) :
    (cursor.performAll options rule.actions).builder =
      Builder.addRule options cursor.builder rule := by
  have alternatives : ∀ (selectors : SelectorList) (cursor : Cursor),
      (cursor.performAll options (selectors.flatMap rule.alternativeActions)).builder =
        selectors.foldl (Builder.addAlternative options rule) cursor.builder := by
    intro selectors
    induction selectors with
    | nil => exact fun _ => rfl
    | cons alternative rest ih =>
        intro cursor
        rw [List.flatMap_cons, performAll_append, ih, builder_performAll_alternative]
        rfl
  exact alternatives rule.selectors _

/-- The actions of a run do what adding its rules does. -/
theorem builder_performAll_runActions (rules : List TreeRule) :
    (cursor.performAll options (runActions rules)).builder =
      rules.foldl (Builder.addRule options) cursor.builder := by
  induction rules generalizing cursor with
  | nil => rfl
  | cons rule rest ih =>
      rw [runActions, List.flatMap_cons, performAll_append, ← runActions, ih,
        builder_performAll_rule]
      rfl

end Cursor

/-- The builder after all of some rules. -/
def Builder.ofRules (options : Options) (rules : List TreeRule) : Builder :=
  rules.foldl (Builder.addRule options) .start

/-- The cursor after some of the actions of a run. -/
def Cursor.after (options : Options) (actions : List Action) : Cursor :=
  Cursor.start.performAll options actions

theorem Cursor.after_append (options : Options) (early late : List Action) :
    after options (early ++ late) = (after options early).performAll options late :=
  performAll_append early late

theorem Cursor.after_concat (options : Options) (early : List Action) (last : Action) :
    after options (early ++ [last]) = (after options early).perform options last :=
  performAll_append early [last]

theorem Cursor.builder_after_runActions (options : Options) (rules : List TreeRule) :
    (Cursor.after options (runActions rules)).builder = Builder.ofRules options rules :=
  Cursor.builder_performAll_runActions rules

/-- A builder at some moment of some run, between two of its actions. -/
def Builder.Reachable (options : Options) (builder : Builder) : Prop :=
  ∃ rules done left, runActions rules = done ++ left ∧
    builder = (Cursor.after options done).builder

end SelectorTree
