import SelectorTree.Proofs.Synthesis.Runs

/-!
# What all elements carry

A condition on the data of elements, perhaps another one for fillers than for real
elements, holds at the end of a run if every descriptor puts suitable elements into
the tree, and merging and showing contents keep to it.  No tree has to be looked at
to check that.  It is a condition on what is below the body: no rule reaches the body
itself.
-/

namespace SelectorTree

variable {suits : Bool → Element → Prop} {options : Options} {rules : List TreeRule}

/-- Contents never matter to a condition on real elements. -/
def Lasting (suits : Bool → Element → Prop) : Prop :=
  ∀ data content, suits false data → suits false (data.withContent content)

/-- Wherever an element is put, as a new one, behind new fillers or into an element that
is there, the condition on fillers and real elements stays true. -/
structure Element.Brings (element : Element) (imported : Bool) (suits : Bool → Element → Prop) :
    Prop where
  made : suits false { element with imported }
  filler : suits true element.filler
  merged : ∀ target merged, suits false target → element.mergeInto target = .ok merged →
    suits false { merged with imported := merged.imported || imported }

namespace Builder

/-- All elements below the body meet a condition, which may tell fillers from the others. -/
def Carries (suits : Bool → Element → Prop) (builder : Builder) : Prop :=
  ∀ id data, builder.tree.Below builder.body id → builder.tree.element? id = some data →
    suits (builder.fillers.contains id) data

variable {before after : Builder} {parent target : NodeId} {element data changed : Element}
  {imported : Bool} {graft : Graft}

theorem carries_start : start.Carries suits := by
  intro id data below found
  have atBody := eq_body_of_start (Tree.isElement_iff.mpr ⟨data, found⟩)
  subst atBody
  exact absurd below (sound_start.linked.not_below_self _)

/-- A report says nothing about the elements. -/
theorem Carries.report (carries : before.Carries suits) (report : Report) :
    ({ before with report } : Builder).Carries suits := carries

theorem Carries.rewritten (carries : before.Carries suits) (sound : before.Sound)
    (real : before.Real target) (rewritten : Rewritten before after target)
    (found : before.tree.element? target = some data)
    (foundAfter : after.tree.element? target = some changed)
    (keeps : suits false data → suits false changed) : after.Carries suits := by
  intro id other below foundOther
  have old : id < before.tree.size := by
    refine Tree.lt_size_of_isElement (?_ : before.tree.isElement id = true)
    rw [← isElement_of_rewritten real rewritten]
    exact Tree.isElement_iff.mpr ⟨other, foundOther⟩
  rw [rewritten.body_eq, rewritten.shown.below_iff sound.linked old] at below
  rw [rewritten.fillers_eq]
  by_cases same : id = target
  · subst same
    have suited := carries id data below found
    rw [real.unregistered] at suited ⊢
    cases foundOther.symm.trans foundAfter
    exact keeps suited
  · rw [rewritten.shown.element?_of_ne id same] at foundOther
    exact carries id other below foundOther

/-- An old node that is still below the body is a filler if it was one. -/
theorem Grown.contains_eq (grown : Grown before after element imported graft)
    (sound : before.Sound) {id : Nat} (old : id < before.tree.size)
    (below : after.tree.Below after.body id) :
    after.fillers.contains id = before.fillers.contains id := by
  have kept : id ∉ graft.gone := by
    intro gone
    obtain ⟨above, attached⟩ := Tree.Below.exists_parent below
    rw [grown.parent_of_gone sound.linked gone] at attached
    cases attached
  rw [Bool.eq_iff_iff, grown.contains_iff]
  simp [(grown.not_mem_lead_of_lt old).2, kept]

theorem Carries.grown (carries : before.Carries suits) (sound : before.Sound)
    (host : before.Host graft.parent) (grown : Grown before after element imported graft)
    (made : suits false { element with imported }) (filler : suits true element.filler) :
    after.Carries suits := by
  intro id data below found
  rcases grown.old_or_new (Tree.lt_size_of_below below) with old | rfl | lead
  · rw [grown.contains_eq sound old below]
    rw [grown.body_eq] at below
    rw [Tree.element?_congr (grown.payload?_of_lt id old)] at found
    exact carries id data (grown.below_before sound.linked below old) found
  · rw [(real_node_of_grown sound host grown).unregistered]
    cases found.symm.trans grown.element_node
    exact made
  · rw [(grown.contains_iff id).mpr (Or.inl lead)]
    cases found.symm.trans (grown.element_lead id lead)
    exact filler

theorem Outcome.carries {result : Builder × NodeId}
    (outcome : Outcome before parent element imported result) (carries : before.Carries suits)
    (sound : before.Sound) (host : before.Host parent) (brings : element.Brings imported suits) :
    result.1.Carries suits := by
  cases outcome with
  | merged listed unregistered success =>
      have real := Sound.child_real host listed sound.linked unregistered
      have rewritten := rewritten_of_tryMerge sound real success
      obtain ⟨data, merged, found, mergedEq, rfl⟩ := tryMerge_eq_some_iff.mp success
      exact carries.rewritten sound real rewritten found (Tree.element?_setElement_self found _)
        fun suited => brings.merged data merged suited mergedEq
  | grown atParent growth =>
      subst atParent
      exact carries.grown sound host growth brings.made brings.filler

theorem Carries.showContent (carries : before.Carries suits) (sound : before.Sound)
    {node? : Option NodeId} (real : ∀ id, node? = some id → before.Real id)
    (lasting : Lasting suits) (content : Option String) :
    (before.showContent node? content).Carries suits := by
  cases node? with
  | none => exact carries
  | some target =>
      cases content with
      | none => exact carries
      | some content =>
          have atTarget := real target rfl
          obtain ⟨data, found⟩ := Tree.isElement_iff.mp atTarget.element
          exact carries.rewritten sound atTarget
            (rewritten_of_setContent sound atTarget (stripQuotes content)) found
            (Tree.element?_setContent_self sound.linked found _)
            (lasting data (stripQuotes content))

end Builder

/-- An action that puts nothing unsuitable into the tree. -/
def Action.Brings (suits : Bool → Element → Prop) : Action → Prop
  | .place descriptor imported => descriptor.element.Brings imported suits
  | .beginRule | .skipAlternative | .beginAlternative | .write _ => True

namespace Cursor

variable {cursor : Cursor} {action : Action} {actions : List Action}

theorem carries_perform (options : Options) (sound : cursor.Sound) (lasting : Lasting suits)
    (brings : action.Brings suits) (carries : cursor.builder.Carries suits) :
    (cursor.perform options action).builder.Carries suits := by
  cases action with
  | beginRule => exact carries.report _
  | skipAlternative => exact carries.report _
  | beginAlternative => exact carries.report _
  | place descriptor imported =>
      exact (outcome_placeDescriptor options sound descriptor imported).carries carries
        sound.builder (sound.host_parentFor descriptor) brings
  | write content => exact carries.showContent sound.builder sound.node lasting content

theorem carries_performAll (options : Options) (sound : cursor.Sound)
    (proper : ∀ action ∈ actions, action.Proper) (lasting : Lasting suits)
    (brings : ∀ action ∈ actions, action.Brings suits) (carries : cursor.builder.Carries suits) :
    (cursor.performAll options actions).builder.Carries suits := by
  refine relates_performAll (fun before after => before.Carries suits → after.Carries suits)
    (Action.Brings suits) (fun _ carries => carries) (fun first second => second ∘ first) ?_ sound
    proper brings carries
  exact fun soundCursor _ bringsAction => carries_perform options soundCursor lasting bringsAction

end Cursor

/-- Whatever every compound of every rule brings along is all that a run puts into the tree. -/
theorem Builder.carries_ofRules (options : Options) (lasting : Lasting suits)
    (brings : ∀ rule ∈ rules, ∀ alternative ∈ rule.selectors, ∀ step ∈ alternative.chain,
      ∀ descriptor, Descriptor.ofCompound step.2 step.1 = .ok descriptor →
        descriptor.element.Brings rule.imported suits) :
    (ofRules options rules).Carries suits := by
  rw [← Cursor.builder_after_runActions]
  refine Cursor.carries_performAll options Cursor.sound_start
    (fun _ member => proper_of_mem_runActions member) lasting ?_ carries_start
  intro action member
  cases action with
  | place descriptor imported =>
      obtain ⟨rule, listedRule, rfl, alternative, listed, _, -, step, inChain, single⟩ :=
        exists_compound_of_place member
      exact brings rule listedRule alternative listed step inChain descriptor single
  | _ => trivial

/-! ## The body -/

namespace Builder

/-- The body and its data are the same. -/
structure SameBody (before after : Builder) : Prop where
  body_eq : after.body = before.body
  element?_eq : after.tree.element? before.body = before.tree.element? before.body

variable {before middle after : Builder} {parent target : NodeId} {element : Element}
  {imported : Bool}

theorem SameBody.refl (builder : Builder) : SameBody builder builder := ⟨rfl, rfl⟩

theorem SameBody.trans (first : SameBody before middle) (second : SameBody middle after) :
    SameBody before after where
  body_eq := second.body_eq.trans first.body_eq
  element?_eq := by
    have later := second.element?_eq
    rw [first.body_eq] at later
    exact later.trans first.element?_eq

/-- Real elements are below the body, and so another one. -/
theorem sameBody_rewritten (sound : before.Sound) (real : before.Real target)
    (rewritten : Rewritten before after target) : SameBody before after where
  body_eq := rewritten.body_eq
  element?_eq := by
    apply rewritten.shown.element?_of_ne
    rintro rfl
    exact sound.linked.not_below_self _ real.below

theorem Outcome.sameBody {result : Builder × NodeId}
    (outcome : Outcome before parent element imported result) (sound : before.Sound)
    (host : before.Host parent) : SameBody before result.1 := by
  cases outcome with
  | merged listed unregistered success =>
      have real := Sound.child_real host listed sound.linked unregistered
      exact sameBody_rewritten sound real (rewritten_of_tryMerge sound real success)
  | grown atParent growth =>
      exact ⟨growth.body_eq, Tree.element?_congr (growth.payload?_of_lt _ sound.body_lt_size)⟩

theorem sameBody_showContent (sound : before.Sound) {node? : Option NodeId}
    (real : ∀ id, node? = some id → before.Real id) (content : Option String) :
    SameBody before (before.showContent node? content) := by
  cases node? with
  | none => exact .refl before
  | some target =>
      cases content with
      | none => exact .refl before
      | some content =>
          have atTarget := real target rfl
          exact sameBody_rewritten sound atTarget
            (rewritten_of_setContent sound atTarget (stripQuotes content))

end Builder

theorem Cursor.sameBody_perform {cursor : Cursor} {action : Action} (options : Options)
    (sound : cursor.Sound) :
    Builder.SameBody cursor.builder (cursor.perform options action).builder := by
  cases action with
  | place descriptor imported =>
      exact (outcome_placeDescriptor options sound descriptor imported).sameBody sound.builder
        (sound.host_parentFor descriptor)
  | write content => exact Builder.sameBody_showContent sound.builder sound.node content
  | _ => exact ⟨rfl, rfl⟩

/-- No rule reaches the body: it stays a bare element. -/
theorem Builder.element?_body_ofRules (options : Options) (rules : List TreeRule) :
    (ofRules options rules).tree.element? (ofRules options rules).body =
      some (Element.ofTag "body") := by
  have same : SameBody start (ofRules options rules) := by
    rw [← Cursor.builder_after_runActions]
    refine Cursor.relates_performAll SameBody (fun _ => True) SameBody.refl SameBody.trans ?_
      Cursor.sound_start (fun _ member => proper_of_mem_runActions member) (fun _ _ => trivial)
    exact fun sound _ _ => Cursor.sameBody_perform options sound
  rw [same.body_eq, same.element?_eq]
  rfl

end SelectorTree
