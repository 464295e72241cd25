import SelectorTree.Proofs.Element.Keeping
import SelectorTree.Proofs.Synthesis.Runs

/-!
# Trees only grow

Adding a rule moves no node and loses no data.  A filler may give way to a new
element, which then stands where the filler stood: its heir.  `Succession`
follows the heirs through a run, and every child list keeps the order of the
heirs of its nodes.  Without positions no node gives way, and `Extended` says
that every child list is only extended.
-/

namespace SelectorTree

/-- Who stands where a node stood, after one element came in. -/
def Graft.heir (graft : Graft) (id : NodeId) : NodeId :=
  if id ∈ graft.gone then graft.node else id

namespace Builder

variable {before middle after : Builder} {parent target : NodeId} {element : Element}
  {imported : Bool} {graft : Graft} {heir laterHeir : NodeId → NodeId}

/-! ## Extensions of child lists -/

/-- All nodes stay where they are, and further children come in behind. -/
structure Extended (before after : Builder) : Prop where
  body_eq : after.body = before.body
  size_le : before.tree.size ≤ after.tree.size
  contains_eq : ∀ id, after.fillers.contains id = before.fillers.contains id
  real : ∀ id, before.Real id → after.Real id
  parent_eq : ∀ id : Nat, id < before.tree.size → after.tree.parent id = before.tree.parent id
  children : ∀ parent, before.tree.children parent <+: after.tree.children parent
  isElement_eq : ∀ id : Nat, id < before.tree.size →
    after.tree.isElement id = before.tree.isElement id
  element : ∀ id data, before.tree.element? id = some data →
    ∃ changed, after.tree.element? id = some changed ∧ data.Keeps changed

theorem extended_report (before : Builder) (report : Report) :
    Extended before { before with report } where
  body_eq := rfl
  size_le := Nat.le_refl _
  contains_eq _ := rfl
  real _ real := ⟨real.below, real.element, real.unregistered⟩
  parent_eq _ _ := rfl
  children _ := List.prefix_refl _
  isElement_eq _ _ := rfl
  element _ data found := ⟨data, found, .refl data⟩

theorem Extended.trans (first : Extended before middle) (second : Extended middle after) :
    Extended before after where
  body_eq := second.body_eq.trans first.body_eq
  size_le := Nat.le_trans first.size_le second.size_le
  contains_eq id := (second.contains_eq id).trans (first.contains_eq id)
  real id real := second.real id (first.real id real)
  parent_eq id old :=
    (second.parent_eq id (Nat.lt_of_lt_of_le old first.size_le)).trans (first.parent_eq id old)
  children parent := (first.children parent).trans (second.children parent)
  isElement_eq id old :=
    (second.isElement_eq id (Nat.lt_of_lt_of_le old first.size_le)).trans
      (first.isElement_eq id old)
  element id data found := by
    obtain ⟨between, foundBetween, keeps⟩ := first.element id data found
    obtain ⟨changed, foundAfter, keepsOn⟩ := second.element id between foundBetween
    exact ⟨changed, foundAfter, keeps.trans keepsOn⟩

/-- A change of one element extends the tree if the element keeps its data. -/
theorem extended_of_rewritten (sound : before.Sound) (real : before.Real target)
    (rewritten : Rewritten before after target) {data changed : Element}
    (found : before.tree.element? target = some data)
    (foundAfter : after.tree.element? target = some changed) (keeps : data.Keeps changed) :
    Extended before after where
  body_eq := rewritten.body_eq
  size_le := rewritten.shown.size_le
  contains_eq id := by rw [rewritten.fillers_eq]
  real id realBefore := realBefore.advance (advance_rewritten sound real rewritten)
  parent_eq := rewritten.shown.parent_of_lt
  children parent := by
    by_cases same : parent = target
    · subst same
      rcases rewritten.shown.children_self with equal | longer
      · rw [equal]
      · rw [longer]
        exact List.prefix_append _ _
    · rw [rewritten.shown.children_of_ne parent same]
  isElement_eq id _ := isElement_of_rewritten real rewritten id
  element id other foundOther := by
    by_cases same : id = target
    · subst same
      cases found.symm.trans foundOther
      exact ⟨changed, foundAfter, keeps⟩
    · exact ⟨other, (rewritten.shown.element?_of_ne id same).trans foundOther, .refl other⟩

theorem extended_of_tryMerge (sound : before.Sound) (real : before.Real target)
    (success : before.tryMerge element target imported = some after) :
    Extended before after := by
  have rewritten := rewritten_of_tryMerge sound real success
  obtain ⟨data, merged, found, mergedEq, rfl⟩ := tryMerge_eq_some_iff.mp success
  have keeps : data.Keeps { merged with imported := merged.imported || imported } :=
    (Element.keeps_mergeInto mergedEq).trans (Element.keeps_markImported merged imported)
  exact extended_of_rewritten sound real rewritten found
    (Tree.element?_setElement_self found _) keeps

theorem extended_showContent (sound : before.Sound) {node? : Option NodeId}
    (real : ∀ id, node? = some id → before.Real id) (content : Option String) :
    Extended before (before.showContent node? content) := by
  cases node? with
  | none => exact extended_report before before.report
  | some target =>
      cases content with
      | none => exact extended_report before before.report
      | some content =>
          have atTarget := real target rfl
          obtain ⟨data, found⟩ := Tree.isElement_iff.mp atTarget.element
          exact extended_of_rewritten sound atTarget
            (rewritten_of_setContent sound atTarget (stripQuotes content)) found
            (Tree.element?_setContent_self sound.linked found _)
            (Element.keeps_withContent data _)

theorem extended_of_last (sound : before.Sound) (host : before.Host graft.parent)
    (grown : Grown before after element imported graft) (last : graft.Last) :
    Extended before after := by
  have kept : ∀ id : NodeId, id ∉ graft.gone := by
    intro id
    rw [last.gone_eq]
    exact List.not_mem_nil
  have relisted : after.tree.children graft.parent =
      before.tree.children graft.parent ++ [graft.node] := by
    have listed := grown.listed
    have relisted := grown.relisted
    rw [last.side_eq, last.gone_eq, last.back_eq] at listed
    rw [last.side_eq, last.lead_eq, last.back_eq] at relisted
    simp only [Side.orient, List.append_nil] at listed relisted
    rw [relisted, listed]
  refine ⟨grown.body_eq, grown.size_le, ?_, ?_, ?_, ?_, ?_, ?_⟩
  · intro id
    rw [Bool.eq_iff_iff, grown.contains_iff, last.lead_eq]
    simp [kept id]
  · exact fun id real => real.advance (advance_grown sound host grown)
  · exact fun id old => grown.parent_of_kept sound.linked old (kept id)
  · intro parent
    by_cases same : parent = graft.parent
    · rw [same, relisted]
      exact List.prefix_append _ _
    · rw [grown.children_of_ne parent same]
  · exact fun id old => Tree.isElement_congr (grown.payload?_of_lt id old)
  · intro id data found
    have old := Tree.lt_size_of_element? found
    exact ⟨data, (Tree.element?_congr (grown.payload?_of_lt id old)).trans found, .refl data⟩

/-! ## Heirs -/

/-- Every node has an heir, which stands where the node stood.  It is the node
itself, unless that was a filler and gave way to a new element. -/
structure Succession (before after : Builder) (heir : NodeId → NodeId) : Prop where
  size_le : before.tree.size ≤ after.tree.size
  real : ∀ id, before.Real id → after.Real id
  unregistered : ∀ id : Nat, id < before.tree.size → before.fillers.contains id = false →
    after.fillers.contains id = false
  detached : ∀ id : Nat, id < before.tree.size → before.tree.parent id = none →
    after.tree.parent id = none
  children : ∀ parent,
    ((before.tree.children parent).map heir).Sublist (after.tree.children parent)
  kept : ∀ id : Nat, id < before.tree.size → before.fillers.contains id = false → heir id = id
  replaced : ∀ id : Nat, id < before.tree.size → heir id ≠ id →
    after.tree.parent id = none ∧ before.tree.size ≤ heir id ∧ after.Real (heir id)
  element : ∀ id data, before.tree.element? id = some data →
    ∃ changed, after.tree.element? id = some changed ∧ data.Keeps changed

/-- In an extension every node is its own heir. -/
theorem Extended.succession (extended : Extended before after) :
    Succession before after fun id => id where
  size_le := extended.size_le
  real := extended.real
  unregistered id _ outside := by rw [extended.contains_eq, outside]
  detached id old outside := by rw [extended.parent_eq id old, outside]
  children parent := by
    rw [List.map_id']
    exact (extended.children parent).sublist
  kept _ _ _ := rfl
  replaced _ _ different := absurd rfl different
  element := extended.element

theorem Succession.trans (first : Succession before middle heir)
    (second : Succession middle after laterHeir) :
    Succession before after (laterHeir ∘ heir) where
  size_le := Nat.le_trans first.size_le second.size_le
  real id real := second.real id (first.real id real)
  unregistered id old outside :=
    second.unregistered id (Nat.lt_of_lt_of_le old first.size_le)
      (first.unregistered id old outside)
  detached id old outside :=
    second.detached id (Nat.lt_of_lt_of_le old first.size_le) (first.detached id old outside)
  children parent := by
    rw [← List.map_map]
    exact ((first.children parent).map laterHeir).trans (second.children parent)
  kept id old outside := by
    rw [Function.comp_apply, first.kept id old outside]
    exact second.kept id (Nat.lt_of_lt_of_le old first.size_le)
      (first.unregistered id old outside)
  replaced id old different := by
    rw [Function.comp_apply] at different ⊢
    by_cases early : heir id = id
    · rw [early] at different ⊢
      obtain ⟨detached, new, real⟩ :=
        second.replaced id (Nat.lt_of_lt_of_le old first.size_le) different
      exact ⟨detached, Nat.le_trans first.size_le new, real⟩
    · obtain ⟨detached, new, real⟩ := first.replaced id old early
      -- An heir is no filler, so it does not give way in turn.
      have stays : laterHeir (heir id) = heir id :=
        second.kept _ (Tree.lt_size_of_below real.below) real.unregistered
      rw [stays]
      exact ⟨second.detached id (Nat.lt_of_lt_of_le old first.size_le) detached, new,
        second.real _ real⟩
  element id data found := by
    obtain ⟨between, foundBetween, keeps⟩ := first.element id data found
    obtain ⟨changed, foundAfter, keepsOn⟩ := second.element id between foundBetween
    exact ⟨changed, foundAfter, keeps.trans keepsOn⟩

/-- The heirs of a list of children are in the list afterwards, in order. -/
private theorem heirs_of_single (linked : before.tree.Linked)
    (grown : Grown before after element imported graft) (single : graft.Single)
    (parent : NodeId) :
    ((before.tree.children parent).map graft.heir).Sublist (after.tree.children parent) := by
  have own : ∀ part : List NodeId, (∀ id ∈ part, id ∉ graft.gone) →
      part.map graft.heir = part := by
    intro part kept
    exact (List.map_congr_left fun id member => if_neg (kept id member)).trans (List.map_id part)
  by_cases same : parent = graft.parent
  · subst same
    have front := own graft.front fun id member => grown.kept_of_beside linked (Or.inl member)
    have back := own graft.back fun id member => grown.kept_of_beside linked (Or.inr member)
    have replaced : (graft.gone.map graft.heir).Sublist [graft.node] := by
      have allNode : graft.gone.map graft.heir = List.replicate graft.gone.length graft.node :=
        List.map_eq_replicate_iff.mpr fun id gone => if_pos gone
      rw [allNode]
      exact (List.replicate_sublist_replicate graft.node).mpr single
    have joined : (graft.front ++ graft.gone.map graft.heir ++ graft.back).Sublist
        (graft.front ++ graft.lead ++ graft.node :: graft.back) := by
      have inner := (replaced.append_right graft.back).trans
        (List.sublist_append_right graft.lead _)
      simpa using inner.append_left graft.front
    rw [← Side.sublist_orient graft.side, Side.map_orient, grown.listed, grown.relisted]
    simpa [front, back] using joined
  · rw [grown.children_of_ne parent same, own]
    intro id listed gone
    have elsewhere := grown.mem_children_parent_before.mpr (Or.inr (Or.inl gone))
    exact same (linked.parent_unique listed elsewhere)

theorem succession_of_single (sound : before.Sound) (host : before.Host graft.parent)
    (grown : Grown before after element imported graft) (single : graft.Single) :
    Succession before after graft.heir := by
  have linked := sound.linked
  have ownHeir : ∀ {id : NodeId}, id ∉ graft.gone → graft.heir id = id := fun kept => if_neg kept
  have stays : ∀ {id : NodeId}, before.fillers.contains id = false → id ∉ graft.gone := by
    intro id outside gone
    rw [grown.gone_registered id gone] at outside
    cases outside
  refine ⟨grown.size_le, ?_, ?_, ?_, ?_, ?_, ?_, ?_⟩
  · exact fun id real => real.advance (advance_grown sound host grown)
  · exact fun id old outside => grown.contains_eq_false old outside
  · intro id old outside
    by_cases gone : id ∈ graft.gone
    · exact grown.parent_of_gone linked gone
    · exact (grown.parent_of_kept linked old gone).trans outside
  · exact heirs_of_single linked grown single
  · exact fun id _ outside => ownHeir (stays outside)
  · intro id _ different
    have gone : id ∈ graft.gone := by
      by_contra kept
      exact different (ownHeir kept)
    have takesOver : graft.heir id = graft.node := if_pos gone
    rw [takesOver]
    exact ⟨grown.parent_of_gone linked gone, ((grown.new_iff graft.node).mp (Or.inl rfl)).1,
      real_node_of_grown sound host grown⟩
  · intro id data found
    have old := Tree.lt_size_of_element? found
    exact ⟨data, (Tree.element?_congr (grown.payload?_of_lt id old)).trans found, .refl data⟩

/-! ## Placing an element -/

section Placed

variable {result : Builder × NodeId} (sound : before.Sound) (host : before.Host parent)

include sound host

theorem Placed.extended (placed : Placed Graft.Last before parent element imported result) :
    Extended before result.1 := by
  cases placed with
  | merged listed unregistered success =>
      have real := Sound.child_real host listed sound.linked unregistered
      exact extended_of_tryMerge sound real success
  | grown atParent last growth =>
      subst atParent
      exact extended_of_last sound host growth last

theorem Placed.succession (placed : Placed Graft.Single before parent element imported result) :
    ∃ heir, Succession before result.1 heir := by
  cases placed with
  | merged listed unregistered success =>
      have real := Sound.child_real host listed sound.linked unregistered
      exact ⟨_, (extended_of_tryMerge sound real success).succession⟩
  | grown atParent single growth =>
      subst atParent
      exact ⟨_, succession_of_single sound host growth single⟩

end Placed

end Builder

/-! ## Runs -/

/-- An action that asks for no position. -/
def Action.Unpositioned : Action → Prop
  | .place descriptor _ => descriptor.position? = none
  | .beginRule | .skipAlternative | .beginAlternative | .write _ => True

/-- A rule whose accepted alternatives have no positional pseudo-class. -/
def TreeRule.Unpositioned (rule : TreeRule) : Prop :=
  ∀ alternative ∈ rule.selectors, ∀ descriptors, Descriptor.chain alternative = .ok descriptors →
    ∀ step ∈ alternative.chain, ∀ pseudoClass ∈ step.2.pseudoClasses,
      isPositional pseudoClass.name = false

variable {options : Options} {rule : TreeRule} {action : Action} {actions : List Action}

/-- A rule without any pseudo-class has no position. -/
theorem unpositioned_of_bare (bare : ∀ alternative ∈ rule.selectors,
    ∀ step ∈ alternative.chain, step.2.pseudoClasses = []) : rule.Unpositioned := by
  intro alternative listed _ _ step inChain pseudoClass asked
  rw [bare alternative listed step inChain] at asked
  cases asked

theorem mem_runActions_of_mem_actions (member : action ∈ rule.actions) :
    action ∈ runActions [rule] := by
  rw [runActions, List.flatMap_singleton]
  exact member

theorem proper_of_mem_actions (member : action ∈ rule.actions) : action.Proper :=
  proper_of_mem_runActions (mem_runActions_of_mem_actions member)

theorem unpositioned_of_mem_runActions {rules : List TreeRule}
    (unpositioned : ∀ rule ∈ rules, rule.Unpositioned) (member : action ∈ runActions rules) :
    action.Unpositioned := by
  cases action with
  | place descriptor imported =>
      obtain ⟨rule, listedRule, -, alternative, listed, chain, built, step, inChain, single⟩ :=
        exists_compound_of_place member
      exact Descriptor.position?_of_ofCompound single
        (unpositioned rule listedRule alternative listed chain built step inChain)
  | _ => trivial

theorem unpositioned_of_mem_actions (unpositioned : rule.Unpositioned)
    (member : action ∈ rule.actions) : action.Unpositioned := by
  apply unpositioned_of_mem_runActions _ (mem_runActions_of_mem_actions member)
  rintro other listed
  cases List.mem_singleton.mp listed
  exact unpositioned

namespace Cursor

variable {cursor : Cursor}

theorem extended_perform (options : Options) (sound : cursor.Sound)
    (unpositioned : action.Unpositioned) :
    Builder.Extended cursor.builder (cursor.perform options action).builder := by
  cases action with
  | beginRule => exact Builder.extended_report cursor.builder _
  | skipAlternative => exact Builder.extended_report cursor.builder _
  | beginAlternative => exact Builder.extended_report cursor.builder _
  | write content => exact Builder.extended_showContent sound.builder sound.node content
  | place descriptor imported =>
      have host := sound.host_parentFor descriptor
      have placed := Builder.placed_place sound.builder.linked (sound.builder.host_lt_size host)
        options descriptor.element imported
      have noPosition : descriptor.position? = none := unpositioned
      simp only [perform, Builder.placeDescriptor, noPosition]
      exact placed.extended sound.builder host

theorem succession_perform (options : Options) (sound : cursor.Sound) (action : Action) :
    ∃ heir, Builder.Succession cursor.builder (cursor.perform options action).builder heir := by
  cases action with
  | place descriptor imported =>
      exact (placed_placeDescriptor options sound descriptor imported).succession sound.builder
        (sound.host_parentFor descriptor)
  | beginRule => exact ⟨_, (Builder.extended_report cursor.builder _).succession⟩
  | skipAlternative => exact ⟨_, (Builder.extended_report cursor.builder _).succession⟩
  | beginAlternative => exact ⟨_, (Builder.extended_report cursor.builder _).succession⟩
  | write content =>
      exact ⟨_, (Builder.extended_showContent sound.builder sound.node content).succession⟩

section Run

variable (options : Options) (sound : cursor.Sound) (proper : ∀ action ∈ actions, action.Proper)

include sound proper

theorem extended_performAll (unpositioned : ∀ action ∈ actions, action.Unpositioned) :
    Builder.Extended cursor.builder (cursor.performAll options actions).builder := by
  refine relates_performAll Builder.Extended Action.Unpositioned ?_ Builder.Extended.trans ?_
    sound proper unpositioned
  · exact fun builder => Builder.extended_report builder builder.report
  · exact fun soundCursor _ free => extended_perform options soundCursor free

theorem succession_performAll :
    ∃ heir, Builder.Succession cursor.builder (cursor.performAll options actions).builder
      heir := by
  refine relates_performAll (fun before after => ∃ heir, before.Succession after heir)
    (fun _ => True) ?_ ?_ ?_ sound proper fun _ _ => trivial
  · exact fun builder => ⟨_, (Builder.extended_report builder builder.report).succession⟩
  · rintro _ _ _ ⟨heir, first⟩ ⟨laterHeir, second⟩
    exact ⟨laterHeir ∘ heir, first.trans second⟩
  · exact fun soundCursor _ _ => succession_perform options soundCursor _

end Run

end Cursor

/-! ## Rules -/

namespace Builder

variable {before after : Builder} {heir : NodeId → NodeId} {earlier : Options}

/-- What is left of a tree after more has come in.  Nodes that are no fillers
keep their parents, elements keep their data, and the children that stay keep
their order.  Only fillers go, and each has a new element in its place. -/
structure OnlyGrows (before after : Builder) : Prop where
  real : ∀ id, before.Real id → after.Real id
  attached : ∀ id parent, before.tree.parent id = some parent →
    before.fillers.contains id = false → after.tree.parent id = some parent
  element : ∀ id data, before.tree.element? id = some data →
    ∃ changed, after.tree.element? id = some changed ∧ data.Keeps changed
  ordered : ∀ parent,
    ((before.tree.children parent).filter fun id => after.tree.parent id = some parent).Sublist
      (after.tree.children parent)
  replaced : ∃ heir : NodeId → NodeId,
    (∀ parent, ((before.tree.children parent).map heir).Nodup ∧
      ((before.tree.children parent).map heir).Sublist (after.tree.children parent)) ∧
    ∀ id parent, before.tree.parent id = some parent →
      (after.tree.parent id = some parent ∧ heir id = id) ∨
        (before.fillers.contains id = true ∧ after.tree.parent id = none ∧
          before.tree.size ≤ heir id ∧ after.Real (heir id))

theorem Succession.parent_eq (succession : Succession before after heir)
    (linked : before.tree.Linked) (linkedAfter : after.tree.Linked) {id parent : NodeId}
    (attached : before.tree.parent id = some parent) (own : heir id = id) :
    after.tree.parent id = some parent := by
  apply linkedAfter.parent_of_mem
  have listed := List.mem_map_of_mem (f := heir) (linked.mem_children attached)
  rw [own] at listed
  exact (succession.children parent).subset listed

theorem Succession.onlyGrows (succession : Succession before after heir)
    (linked : before.tree.Linked) (linkedAfter : after.tree.Linked) :
    OnlyGrows before after where
  real := succession.real
  attached id parent attached unregistered :=
    succession.parent_eq linked linkedAfter attached
      (succession.kept id (Tree.lt_size_of_parent attached) unregistered)
  element := succession.element
  ordered parent := by
    have own : ∀ id ∈ (before.tree.children parent).filter
        fun id => after.tree.parent id = some parent, heir id = id := by
      intro id member
      obtain ⟨listed, stays⟩ := List.mem_filter.mp member
      by_contra different
      have gone := (succession.replaced id (linked.lt_size_of_mem listed) different).1
      rw [gone] at stays
      simp at stays
    have survivors := (List.filter_sublist (p := fun id => after.tree.parent id = some parent)
      (l := before.tree.children parent)).map heir
    rw [(List.map_congr_left own).trans (List.map_id' _)] at survivors
    exact survivors.trans (succession.children parent)
  replaced := by
    refine ⟨heir, fun parent => ⟨?_, succession.children parent⟩, ?_⟩
    · exact (linkedAfter.nodup_children parent).sublist (succession.children parent)
    · intro id parent attached
      by_cases own : heir id = id
      · exact Or.inl ⟨succession.parent_eq linked linkedAfter attached own, own⟩
      · have old := Tree.lt_size_of_parent attached
        have registered : before.fillers.contains id = true := by
          by_contra unregistered
          exact own (succession.kept id old (Bool.eq_false_iff.mpr unregistered))
        exact Or.inr ⟨registered, succession.replaced id old own⟩

/-- At every moment of every run and whatever the options are, adding a rule
only grows the tree; without positions it only extends the lists of
children. -/
theorem onlyGrows_addRule (reachable : before.Reachable earlier) (options : Options)
    (rule : TreeRule) :
    OnlyGrows before (addRule options before rule) ∧
      (rule.Unpositioned →
        (∀ id parent, before.tree.parent id = some parent →
          (addRule options before rule).tree.parent id = some parent) ∧
        ∀ parent, before.tree.children parent <+:
          (addRule options before rule).tree.children parent) := by
  have sound : Cursor.Sound ⟨before, none⟩ := ⟨reachable.sound, by simp⟩
  have proper : ∀ action ∈ rule.actions, action.Proper := fun _ => proper_of_mem_actions
  have soundAfter := (Cursor.sound_performAll options sound proper).1.builder
  have builderEq : (Cursor.performAll options rule.actions ⟨before, none⟩).builder =
      addRule options before rule := Cursor.builder_performAll_rule rule
  rw [← builderEq]
  constructor
  · obtain ⟨heir, succession⟩ := Cursor.succession_performAll options sound proper
    exact succession.onlyGrows sound.builder.linked soundAfter.linked
  · intro unpositioned
    have extended := Cursor.extended_performAll options sound proper
      fun _ => unpositioned_of_mem_actions unpositioned
    refine ⟨fun id parent attached => ?_, extended.children⟩
    rw [extended.parent_eq id (Tree.lt_size_of_parent attached)]
    exact attached

/-- The rule `li:nth-child(3)` with a content. -/
def thirdItemRule : TreeRule :=
  ⟨[⟨⟨some (.name "li"), [], [], [], [⟨"nth-child", some (.formula ⟨0, 3⟩)⟩], none⟩, []⟩],
    some "three", false⟩

/-- The rule `p:first-child`, which takes the place of a filler. -/
def firstParagraphRule : TreeRule :=
  ⟨[⟨⟨some (.name "p"), [], [], [], [⟨"first-child", none⟩], none⟩, []⟩], none, false⟩

/-- The rule `p` without a content. -/
def paragraphRule : TreeRule := ⟨[⟨.ofType? (some (.name "p")), []⟩], none, false⟩

/-- The first paragraph takes the place of the first filler; a paragraph without a position comes
last. -/
theorem onlyGrows_paragraphs :
    (ofRules .standard [thirdItemRule]).Reachable .standard ∧
      OnlyGrows (ofRules .standard [thirdItemRule])
        (addRule .standard (ofRules .standard [thirdItemRule]) firstParagraphRule) ∧
      paragraphRule.Unpositioned ∧
      (∀ parent, (ofRules .standard [thirdItemRule]).tree.children parent <+:
        (addRule .standard (ofRules .standard [thirdItemRule]) paragraphRule).tree.children
          parent) ∧
      (ofRules .standard [thirdItemRule]).tree.children 1 = [3, 4, 2] ∧
      (addRule .standard (ofRules .standard [thirdItemRule]) firstParagraphRule).tree.children
        1 = [6, 4, 2] ∧
      (addRule .standard (ofRules .standard [thirdItemRule]) paragraphRule).tree.children
        1 = [3, 4, 2, 6] := by
  have reachable := reachable_ofRules .standard [thirdItemRule]
  have unpositioned : paragraphRule.Unpositioned := unpositioned_of_bare (by decide)
  have kept := ((onlyGrows_addRule reachable .standard paragraphRule).2 unpositioned).2
  exact ⟨reachable, (onlyGrows_addRule reachable .standard firstParagraphRule).1, unpositioned,
    kept, by decide +kernel, by decide +kernel, by decide +kernel⟩

end Builder

end SelectorTree
