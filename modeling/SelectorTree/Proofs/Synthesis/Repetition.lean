import SelectorTree.Proofs.Synthesis.Deduplication
import SelectorTree.Proofs.Synthesis.Refreshing

/-!
# Adding a rule again

A rule without positions that is added once more finds every element where it
was found or made the first time, whatever other such rules have come between.
So nothing but its content can change the tree, and only at the elements its
alternatives end on.
-/

namespace SelectorTree

/-! ## What the actions of a run reach -/

namespace Cursor

/-- The nodes that the descriptors of some actions resolve to. -/
def resolved (options : Options) : Cursor → List Action → List NodeId
  | _, [] => []
  | cursor, .place descriptor imported :: rest =>
      (cursor.builder.placeDescriptor options cursor.node? descriptor imported).2 ::
        resolved options (cursor.perform options (.place descriptor imported)) rest
  | cursor, action :: rest => resolved options (cursor.perform options action) rest

/-- The nodes at which some actions show a content. -/
def targets (options : Options) : Cursor → List Action → List NodeId
  | _, [] => []
  | cursor, .write content :: rest =>
      cursor.node?.toList ++ targets options (cursor.perform options (.write content)) rest
  | cursor, action :: rest => targets options (cursor.perform options action) rest

end Cursor

namespace Builder

/-- The nodes that the descriptors of a rule resolve to when the rule is added. -/
def resolved (options : Options) (builder : Builder) (rule : TreeRule) : List NodeId :=
  Cursor.resolved options ⟨builder, none⟩ rule.actions

/-- The nodes that the alternatives of a rule end on when the rule is added. -/
def targets (options : Options) (builder : Builder) (rule : TreeRule) : List NodeId :=
  Cursor.targets options ⟨builder, none⟩ rule.actions

/-- A builder in which the elements of some actions are settled.  The last two
lists are the nodes that the descriptors resolve to, and those of them at which
a content is shown. -/
inductive Settles (builder : Builder) :
    Option NodeId → List Action → List NodeId → List NodeId → Prop where
  | nil {node?} : Settles builder node? [] [] []
  | beginRule {node? actions nodes shown} (rest : Settles builder node? actions nodes shown) :
      Settles builder node? (.beginRule :: actions) nodes shown
  | skipAlternative {node? actions nodes shown}
      (rest : Settles builder node? actions nodes shown) :
      Settles builder node? (.skipAlternative :: actions) nodes shown
  | beginAlternative {node? actions nodes shown}
      (rest : Settles builder none actions nodes shown) :
      Settles builder node? (.beginAlternative :: actions) nodes shown
  | place {node? actions nodes shown descriptor imported target}
      (settled : Settled builder (builder.parentFor descriptor node?) descriptor.element imported
        target)
      (rest : Settles builder (some target) actions nodes shown) :
      Settles builder node? (.place descriptor imported :: actions) (target :: nodes) shown
  | write {node? actions nodes shown content} (rest : Settles builder node? actions nodes shown) :
      Settles builder node? (.write content :: actions) nodes (node?.toList ++ shown)

variable {before after : Builder} {node? : Option NodeId} {actions : List Action}
  {nodes shown : List NodeId}

theorem Extended.parentFor_eq (extended : Extended before after)
    (known : ∀ id : Nat, node? = some id → id < before.tree.size) (descriptor : Descriptor) :
    after.parentFor descriptor node? = before.parentFor descriptor node? := by
  cases node? with
  | none => exact extended.body_eq
  | some previous =>
      rw [parentFor, parentFor, extended.body_eq, extended.parent_eq previous (known previous rfl)]

theorem Settled.lt_size {parent target : NodeId} {element : Element} {imported : Bool}
    (settled : Settled before parent element imported target) : target < before.tree.size := by
  obtain ⟨data, found, -⟩ := settled.data
  exact Tree.lt_size_of_element? found

/-- What is settled stays settled without positions. -/
theorem Settles.preserved (settles : before.Settles node? actions nodes shown)
    (linked : before.tree.Linked) (preserved : Preserved before after)
    (known : ∀ id : Nat, node? = some id → id < before.tree.size) :
    after.Settles node? actions nodes shown := by
  induction settles with
  | nil => exact .nil
  | beginRule _ ih => exact .beginRule (ih known)
  | skipAlternative _ ih => exact .skipAlternative (ih known)
  | beginAlternative _ ih => exact .beginAlternative (ih (by simp))
  | @place _ _ _ _ descriptor _ target settled _ ih =>
      apply Settles.place
      · rw [preserved.toExtended.parentFor_eq known]
        exact settled.preserved linked preserved
      · apply ih
        rintro id same
        cases same
        exact settled.lt_size
  | write _ ih => exact .write (ih known)

end Builder

namespace Cursor

variable {options : Options} {cursor : Cursor} {action : Action} {actions : List Action}

theorem Sound.node_lt_size (sound : cursor.Sound) :
    ∀ id : Nat, cursor.node? = some id → id < cursor.builder.tree.size :=
  fun id found => Tree.lt_size_of_below (sound.node id found).below

section Run

variable (removes : options.duplicates = .remove)

include removes

/-- Once some actions are done, all their elements are settled. -/
theorem settles_performAll (sound : cursor.Sound) (proper : ∀ action ∈ actions, action.Proper)
    (unpositioned : ∀ action ∈ actions, action.Unpositioned) :
    (cursor.performAll options actions).builder.Settles cursor.node? actions
      (cursor.resolved options actions) (cursor.targets options actions) := by
  induction actions generalizing cursor with
  | nil => exact .nil
  | cons action rest ih =>
      obtain ⟨properFirst, properRest⟩ := List.forall_mem_cons.mp proper
      obtain ⟨unpositionedFirst, unpositionedRest⟩ := List.forall_mem_cons.mp unpositioned
      have soundNext := (sound_perform options sound properFirst).1
      have others := ih soundNext properRest unpositionedRest
      rw [performAll_cons]
      cases action with
      | beginRule => exact .beginRule others
      | skipAlternative => exact .skipAlternative others
      | beginAlternative => exact .beginAlternative others
      | write content => exact .write others
      | place descriptor imported =>
          have first := preserved_perform removes sound properFirst unpositionedFirst
          have later := preserved_performAll removes soundNext properRest unpositionedRest
          have noPosition : descriptor.position? = none := unpositionedFirst
          have settled := (Builder.settled_place sound.builder (sound.host_parentFor descriptor)
            removes properFirst.classes imported).2
          have placed : cursor.builder.placeDescriptor options cursor.node? descriptor imported =
              cursor.builder.place options (cursor.builder.parentFor descriptor cursor.node?)
                descriptor.element imported := by
            rw [Builder.placeDescriptor, noPosition]
          rw [← placed] at settled
          apply Builder.Settles.place
          · rw [(first.trans later).toExtended.parentFor_eq sound.node_lt_size]
            exact settled.preserved soundNext.builder.linked later
          · exact others

end Run

end Cursor

/-! ## Doing the actions once more -/

/-- The action with another content, if it shows one. -/
def Action.withContent (content : Option String) : Action → Action
  | .beginRule => .beginRule
  | .skipAlternative => .skipAlternative
  | .beginAlternative => .beginAlternative
  | .place descriptor imported => .place descriptor imported
  | .write _ => .write content

theorem TreeRule.actions_withContent (rule : TreeRule) (content : Option String) :
    ({ rule with content } : TreeRule).actions = rule.actions.map (.withContent content) := by
  have alternatives : ∀ alternative,
      ({ rule with content } : TreeRule).alternativeActions alternative =
        (rule.alternativeActions alternative).map (.withContent content) := by
    intro alternative
    rw [alternativeActions, alternativeActions]
    split
    · rfl
    · simp [Action.withContent, Function.comp_def]
  rw [actions, actions, List.map_cons, List.map_flatMap]
  exact congrArg (Action.beginRule :: rule.selectors.flatMap ·) (funext alternatives)

/-- Every content that a rule shows is its own. -/
theorem TreeRule.withContent_of_mem_actions {rule : TreeRule} {action : Action}
    (member : action ∈ rule.actions) : action.withContent rule.content = action := by
  have same : rule.actions.map (.withContent rule.content) =
      rule.actions.map fun action => action :=
    (rule.actions_withContent rule.content).symm.trans (List.map_id' _).symm
  exact List.map_inj_left.mp same action member

theorem Builder.tree_showContent (builder : Builder) (node? content : Option _) :
    (builder.showContent node? content).tree =
      node?.toList.foldl (Tree.showAt · content) builder.tree := by
  cases node? with
  | none => rfl
  | some target => cases content <;> rfl

namespace Cursor

variable {options : Options} {cursor : Cursor} {actions : List Action} {nodes shown : List NodeId}

/-- What doing some actions once more amounts to: the content is shown at the
nodes it was shown at, and nothing else happens. -/
structure Redone (options : Options) (cursor : Cursor) (actions : List Action)
    (content : Option String) (nodes shown : List NodeId) : Prop where
  resolved_eq : cursor.resolved options actions = nodes
  targets_eq : cursor.targets options actions = shown
  tree_eq : (cursor.performAll options actions).builder.tree =
    shown.foldl (Tree.showAt · content) cursor.builder.tree
  fillers_eq : (cursor.performAll options actions).builder.fillers = cursor.builder.fillers
  created_eq : (cursor.performAll options actions).builder.report.created =
    cursor.builder.report.created

theorem perform_of_settled (removes : options.duplicates = .remove) (sound : cursor.Sound)
    {descriptor : Descriptor} {imported : Bool} {target : NodeId} (proper : descriptor.Proper)
    (noPosition : descriptor.position? = none)
    (settled : cursor.builder.Settled (cursor.builder.parentFor descriptor cursor.node?)
      descriptor.element imported target) :
    cursor.builder.placeDescriptor options cursor.node? descriptor imported =
      ({ cursor.builder with
          report :=
            { cursor.builder.report with merged := cursor.builder.report.merged + 1 } },
        target) := by
  rw [Builder.placeDescriptor, noPosition]
  exact Builder.place_of_settled sound.builder (sound.host_parentFor descriptor) removes
    proper.classes settled

theorem redone_of_settles (removes : options.duplicates = .remove) (sound : cursor.Sound)
    (proper : ∀ action ∈ actions, action.Proper)
    (unpositioned : ∀ action ∈ actions, action.Unpositioned)
    (settles : cursor.builder.Settles cursor.node? actions nodes shown)
    (content : Option String) :
    Redone options cursor (actions.map (.withContent content)) content nodes shown := by
  induction actions generalizing cursor nodes shown with
  | nil =>
      cases settles
      exact ⟨rfl, rfl, rfl, rfl, rfl⟩
  | cons action rest ih =>
      obtain ⟨properOwn, properRest⟩ := List.forall_mem_cons.mp proper
      obtain ⟨unpositionedFirst, unpositionedRest⟩ := List.forall_mem_cons.mp unpositioned
      have properFirst : (action.withContent content).Proper := by
        cases action with
        | place _ _ => exact properOwn
        | _ => trivial
      have soundNext := (sound_perform options sound properFirst).1
      -- Whatever the first action is, the others are settled after it.
      have goOn : ∀ {node? later others}, cursor.builder.Settles node? rest later others →
          (∀ id : Nat, node? = some id → id < cursor.builder.tree.size) →
          (cursor.perform options (action.withContent content)).node? = node? →
          cursor.builder.Preserved
            (cursor.perform options (action.withContent content)).builder →
          Redone options (cursor.perform options (action.withContent content))
            (rest.map (.withContent content)) content later others := by
        intro node? later others settlesRest known sameNode preserved
        apply ih soundNext properRest unpositionedRest
        rw [sameNode]
        exact settlesRest.preserved sound.builder.linked preserved known
      cases settles with
      | beginRule settlesRest =>
          have others := goOn settlesRest sound.node_lt_size rfl (Builder.preserved_report _ _)
          exact ⟨others.resolved_eq, others.targets_eq, others.tree_eq, others.fillers_eq,
            others.created_eq⟩
      | skipAlternative settlesRest =>
          have others := goOn settlesRest sound.node_lt_size rfl (Builder.preserved_report _ _)
          exact ⟨others.resolved_eq, others.targets_eq, others.tree_eq, others.fillers_eq,
            others.created_eq⟩
      | beginAlternative settlesRest =>
          have others := goOn settlesRest (by simp) rfl (Builder.preserved_report _ _)
          exact ⟨others.resolved_eq, others.targets_eq, others.tree_eq, others.fillers_eq,
            others.created_eq⟩
      | @place _ _ _ _ descriptor imported target settled settlesRest =>
          have again := perform_of_settled removes sound properFirst unpositionedFirst settled
          have next : cursor.perform options (.place descriptor imported) =
              ⟨{ cursor.builder with
                  report :=
                    { cursor.builder.report with merged := cursor.builder.report.merged + 1 } },
                some target⟩ := by
            rw [perform, again]
          have known : ∀ id : Nat, some target = some id → id < cursor.builder.tree.size := by
            rintro id same
            cases same
            exact settled.lt_size
          have others := goOn settlesRest known (congrArg Cursor.node? next)
            (by
              rw [Action.withContent, next]
              exact Builder.preserved_report _ _)
          rw [Action.withContent, next] at others
          refine ⟨?_, ?_, ?_, ?_, ?_⟩
          · change (cursor.builder.placeDescriptor options cursor.node? descriptor imported).2 ::
              resolved options (cursor.perform options (.place descriptor imported)) _ = _
            rw [again, next, others.resolved_eq]
          · change targets options (cursor.perform options (.place descriptor imported)) _ = _
            rw [next, others.targets_eq]
          · rw [List.map_cons, Action.withContent, performAll_cons, next, others.tree_eq]
          · rw [List.map_cons, Action.withContent, performAll_cons, next, others.fillers_eq]
          · rw [List.map_cons, Action.withContent, performAll_cons, next, others.created_eq]
      | @write _ _ _ _ old settlesRest =>
          have others := goOn settlesRest sound.node_lt_size rfl
            (Builder.preserved_showContent sound.builder sound.node content)
          refine ⟨others.resolved_eq, ?_, ?_, ?_, ?_⟩
          · exact congrArg (cursor.node?.toList ++ ·) others.targets_eq
          · refine others.tree_eq.trans ?_
            rw [List.foldl_append, ← Builder.tree_showContent]
            rfl
          · exact others.fillers_eq.trans (Builder.fillers_showContent _ _ _)
          · exact others.created_eq.trans
              (congrArg Report.created (Builder.report_showContent _ _ _))

end Cursor

/-! ## Contents that stay -/

/-- An action that asks for no position and shows one content only. -/
def Action.Shows (content : String) (action : Action) : Prop :=
  action.Unpositioned ∧ action.withContent (some content) = action

namespace Builder

variable {before : Builder} {options : Options} {parent id : NodeId} {element : Element}
  {content : String}

theorem displays_place (sound : before.Sound) (host : before.Host parent)
    (removes : options.duplicates = .remove) (proper : element.ProperClasses) (imported : Bool)
    (displays : before.tree.Displays id content) :
    (before.place options parent element imported).1.tree.Displays id content := by
  obtain ⟨data, found, holds, texts⟩ := displays
  cases first : (before.tree.elementChildren parent).find? (before.takes element) with
  | none =>
      have grown := grown_append sound.linked (sound.host_lt_size host) element imported
      rw [place_of_find_none sound host removes proper first]
      have old := Tree.lt_size_of_element? found
      have sameData := Tree.element?_congr (grown.payload?_of_lt id old)
      have sameTexts := grown.texts_eq sound.linked (sound.gone_textless grown) id
      refine ⟨data, sameData.trans found, holds, fun usesText => ?_⟩
      rw [sameTexts, texts usesText]
  | some target =>
      obtain ⟨after, taken, placed⟩ := place_of_find sound host removes proper first imported
      obtain ⟨old, foundOld, -, -, treeEq⟩ := taken.data
      rw [placed, treeEq]
      by_cases same : id = target
      · subst same
        cases found.symm.trans foundOld
        have keeps := Element.keeps_takeKind data element
        refine ⟨_, Tree.element?_setElement_self found _, ?_, ?_⟩
        · exact ⟨(holds.takeKind element).inAttribute, (holds.takeKind element).inValue⟩
        · intro usesText
          rw [keeps.tag_eq] at usesText
          rw [Tree.texts_setElement, texts usesText]
      · refine ⟨data, ?_, holds, fun usesText => ?_⟩
        · rw [Tree.element?_setElement_of_ne (Ne.symm same), found]
        · rw [Tree.texts_setElement, texts usesText]

end Builder

namespace Cursor

variable {options : Options} {cursor : Cursor} {action : Action} {actions : List Action}
  {content : String}

section Run

variable (removes : options.duplicates = .remove)

include removes

theorem displays_perform (sound : cursor.Sound) (proper : action.Proper)
    (shows : action.Shows content) {id : NodeId}
    (displays : cursor.builder.tree.Displays id (stripQuotes content)) :
    (cursor.perform options action).builder.tree.Displays id (stripQuotes content) := by
  cases action with
  | beginRule => exact displays
  | skipAlternative => exact displays
  | beginAlternative => exact displays
  | place descriptor imported =>
      have noPosition : descriptor.position? = none := shows.1
      simp only [perform, Builder.placeDescriptor, noPosition]
      exact Builder.displays_place sound.builder (sound.host_parentFor descriptor) removes
        proper.classes imported displays
  | write other =>
      cases shows.2
      cases found : cursor.node? with
      | none =>
          rw [perform, found]
          exact displays
      | some target =>
          have real := sound.node target found
          rw [perform, found]
          by_cases same : id = target
          · subst same
            exact Tree.displays_setContent sound.builder.linked real.element _
              (sound.builder.texts id)
          · have rewritten :=
              Builder.rewritten_of_setContent sound.builder real (stripQuotes content)
            exact rewritten.shown.displays same displays

theorem displays_performAll (sound : cursor.Sound) (proper : ∀ action ∈ actions, action.Proper)
    (shows : ∀ action ∈ actions, action.Shows content) (id : NodeId)
    (displays : cursor.builder.tree.Displays id (stripQuotes content)) :
    (cursor.performAll options actions).builder.tree.Displays id (stripQuotes content) := by
  refine relates_performAll
    (fun before after => before.tree.Displays id (stripQuotes content) →
      after.tree.Displays id (stripQuotes content))
    (Action.Shows content) (fun _ displays => displays) (fun first second => second ∘ first) ?_
    sound proper shows displays
  exact fun soundCursor properAction shown =>
    displays_perform removes soundCursor properAction shown

/-- Where a content was shown, it is shown in the end. -/
theorem displays_targets (sound : cursor.Sound) (proper : ∀ action ∈ actions, action.Proper)
    (shows : ∀ action ∈ actions, action.Shows content) :
    ∀ id ∈ cursor.targets options actions,
      (cursor.performAll options actions).builder.tree.Displays id (stripQuotes content) := by
  induction actions generalizing cursor with
  | nil => exact fun id member => absurd member List.not_mem_nil
  | cons action rest ih =>
      obtain ⟨properFirst, properRest⟩ := List.forall_mem_cons.mp proper
      obtain ⟨showsFirst, showsRest⟩ := List.forall_mem_cons.mp shows
      have soundNext := (sound_perform options sound properFirst).1
      have others := ih soundNext properRest showsRest
      cases action with
      | beginRule => exact others
      | skipAlternative => exact others
      | beginAlternative => exact others
      | place descriptor imported => exact others
      | write other =>
          intro id member
          rcases List.mem_append.mp member with here | later
          · have found := Option.mem_toList.mp here
            cases showsFirst.2
            apply displays_performAll removes soundNext properRest showsRest
            rw [perform, found]
            exact Tree.displays_setContent sound.builder.linked (sound.node id found).element _
              (sound.builder.texts id)
          · exact others id later

end Run

end Cursor

/-! ## Rules -/

namespace Builder

variable {before : Builder} {node? : Option NodeId} {actions : List Action}
  {nodes shown : List NodeId} {options : Options} {later : List TreeRule} {rule : TreeRule}

theorem Settles.isElement_of_shown (settles : before.Settles node? actions nodes shown)
    (known : ∀ id, node? = some id → before.tree.isElement id = true) :
    ∀ id ∈ shown, before.tree.isElement id = true := by
  induction settles with
  | nil => exact fun id member => absurd member List.not_mem_nil
  | beginRule _ ih => exact ih known
  | skipAlternative _ ih => exact ih known
  | beginAlternative _ ih => exact ih (by simp)
  | place settled _ ih =>
      apply ih
      rintro id same
      cases same
      obtain ⟨data, found, -⟩ := settled.data
      exact Tree.isElement_iff.mpr ⟨data, found⟩
  | write _ ih =>
      intro id member
      rcases List.mem_append.mp member with here | other
      · exact known id (Option.mem_toList.mp here)
      · exact ih known id other

theorem ofRules_append (options : Options) (early later : List TreeRule) :
    ofRules options (early ++ later) = later.foldl (addRule options) (ofRules options early) :=
  List.foldl_append

theorem ofRules_concat (options : Options) (early : List TreeRule) (rule : TreeRule) :
    ofRules options (early ++ [rule]) = addRule options (ofRules options early) rule :=
  ofRules_append options early [rule]

theorem sound_atRule (options : Options) (rules : List TreeRule) :
    Cursor.Sound ⟨ofRules options rules, none⟩ :=
  ⟨sound_ofRules options rules, by simp⟩

/-- A rule that has been added is settled, and other rules do not change that. -/
theorem settles_ofRules (early : List TreeRule) (removes : options.duplicates = .remove)
    (unpositioned : rule.Unpositioned)
    (laterUnpositioned : ∀ other ∈ later, other.Unpositioned) :
    (ofRules options (early ++ rule :: later)).Settles none rule.actions
      ((ofRules options early).resolved options rule)
      ((ofRules options early).targets options rule) := by
  have atFirst := sound_atRule options early
  have atLater := sound_atRule options (early ++ [rule])
  have settles := Cursor.settles_performAll removes atFirst (fun _ => proper_of_mem_actions)
    fun _ => unpositioned_of_mem_actions unpositioned
  rw [Cursor.builder_performAll_rule, ← ofRules_concat] at settles
  have preserved := Cursor.preserved_performAll removes atLater
    (fun _ => proper_of_mem_runActions)
    fun _ => unpositioned_of_mem_runActions laterUnpositioned
  rw [Cursor.builder_performAll_runActions, ← ofRules_append, List.append_assoc] at preserved
  exact settles.preserved atLater.builder.linked preserved (by simp)

/-- What adding a rule a second time does, perhaps with another content.  Every
descriptor resolves to the node of the first time, no element comes, moves or
becomes a filler, and the content is shown at the targets of the first time. -/
structure Repeats (options : Options) (first : Builder) (rule : TreeRule) (before : Builder)
    (repeated : TreeRule) : Prop where
  resolved_eq : before.resolved options repeated = first.resolved options rule
  targets_eq : before.targets options repeated = first.targets options rule
  created_eq : (addRule options before repeated).report.created = before.report.created
  fillers_eq : (addRule options before repeated).fillers = before.fillers
  tree_eq : repeated.content = none → (addRule options before repeated).tree = before.tree
  refreshed : ∀ content, repeated.content = some content →
    before.tree.Refreshed (addRule options before repeated).tree (first.targets options rule)
      (stripQuotes content)

/-- With duplicates removed, adding a rule without positions again changes
nothing but the content of its targets, whatever rules were there before and
whatever other rules without positions have come since.  With the content that
it left there, it changes nothing at all. -/
theorem repeats_addRule (options : Options) (removes : options.duplicates = .remove)
    (early later : List TreeRule) (rule : TreeRule) (unpositioned : rule.Unpositioned)
    (laterUnpositioned : ∀ other ∈ later, other.Unpositioned) (content : Option String) :
    Repeats options (ofRules options early) rule (ofRules options (early ++ rule :: later))
        { rule with content } ∧
      (later = [] → content = rule.content →
        (addRule options (ofRules options (early ++ rule :: later)) { rule with content }).tree =
          (ofRules options (early ++ rule :: later)).tree) := by
  have sound := sound_atRule options (early ++ rule :: later)
  have settles := settles_ofRules early removes unpositioned laterUnpositioned
  have redone := Cursor.redone_of_settles removes sound (fun _ => proper_of_mem_actions)
    (fun _ => unpositioned_of_mem_actions unpositioned) settles content
  rw [← TreeRule.actions_withContent] at redone
  have treeEq := redone.tree_eq
  have fillersEq := redone.fillers_eq
  have createdEq := redone.created_eq
  rw [Cursor.builder_performAll_rule] at treeEq fillersEq createdEq
  constructor
  · refine ⟨redone.resolved_eq, redone.targets_eq, createdEq, fillersEq, ?_, ?_⟩
    · rintro rfl
      rw [treeEq, Tree.foldl_showAt_none]
    · rintro text rfl
      rw [treeEq]
      exact Tree.refreshed_foldl sound.builder.linked
        (settles.isElement_of_shown (by simp)) sound.builder.texts _
  · rintro rfl rfl
    rw [treeEq]
    cases shownContent : rule.content with
    | none => exact Tree.foldl_showAt_none _ _
    | some text =>
        have atFirst := sound_atRule options early
        have shows : ∀ action ∈ rule.actions, action.Shows text := by
          intro action member
          exact ⟨unpositioned_of_mem_actions unpositioned member,
            shownContent ▸ TreeRule.withContent_of_mem_actions member⟩
        have displays := Cursor.displays_targets removes atFirst
          (fun _ => proper_of_mem_actions) shows
        rw [Cursor.builder_performAll_rule, ← ofRules_concat] at displays
        exact Tree.foldl_showAt_eq_self displays

/-- The rule `ul > li` with a content. -/
def listItemRule : TreeRule :=
  ⟨[⟨.ofType? (some (.name "li")), [(.child, .ofType? (some (.name "ul")))]⟩], some "one", false⟩

/-- The rule `ul > li + b` without a content. -/
def boldItemRule : TreeRule :=
  ⟨[⟨.ofType? (some (.name "b")), [(.nextSibling, .ofType? (some (.name "li"))),
    (.child, .ofType? (some (.name "ul")))]⟩], none, false⟩

/-- Added with another content, the rule resolves to the same list and item, creates no fifth
element and leaves the new text in the item. -/
theorem repeats_listItem :
    Options.standard.duplicates = .remove ∧ listItemRule.Unpositioned ∧
      (∀ other ∈ [boldItemRule], other.Unpositioned) ∧
      let before := ofRules .standard ([thirdItemRule] ++ listItemRule :: [boldItemRule])
      let repeated := { listItemRule with content := some "two" }
      Repeats .standard (ofRules .standard [thirdItemRule]) listItemRule before repeated ∧
        before.resolved .standard repeated = [6, 7] ∧
        (addRule .standard before repeated).report.created = 4 ∧
        (addRule .standard before repeated).tree.texts 7 = ["two"] := by
  have unpositioned : listItemRule.Unpositioned := unpositioned_of_bare (by decide)
  have laterUnpositioned : ∀ other ∈ [boldItemRule], other.Unpositioned := by
    intro other listed
    cases List.mem_singleton.mp listed
    exact unpositioned_of_bare (by decide)
  have repeats := (repeats_addRule .standard rfl [thirdItemRule] [boldItemRule] listItemRule
    unpositioned laterUnpositioned (some "two")).1
  have nodes : (ofRules .standard [thirdItemRule]).resolved .standard listItemRule = [6, 7] := by
    decide +kernel
  have created : (ofRules .standard
      ([thirdItemRule] ++ listItemRule :: [boldItemRule])).report.created = 4 := by decide +kernel
  refine ⟨rfl, unpositioned, laterUnpositioned, repeats, ?_, ?_, ?_⟩
  · exact repeats.resolved_eq.trans nodes
  · rw [repeats.created_eq, created]
  · decide +kernel

end Builder

end SelectorTree
