import Mathlib.Data.List.Induction
import SelectorTree.Proofs.Synthesis.Descriptors
import SelectorTree.Proofs.Synthesis.Soundness

/-!
# Soundness along runs

Every action of a run keeps the builder sound, and the node it resolves to is a
real element that stays one.  So the invariants hold at every moment, and an
element outside the body was a filler at an earlier one.
-/

namespace SelectorTree

variable {options : Options} {cursor : Cursor} {action : Action} {actions : List Action}
  {rules : List TreeRule}

/-- An action whose descriptor is built from a compound. -/
def Action.Proper : Action → Prop
  | .place descriptor _ => descriptor.Proper
  | .beginRule | .skipAlternative | .beginAlternative | .write _ => True

/-- Every descriptor that a run places is built from a compound of an accepted
alternative. -/
theorem exists_compound_of_place {descriptor : Descriptor} {imported : Bool}
    (member : .place descriptor imported ∈ runActions rules) :
    ∃ rule ∈ rules, rule.imported = imported ∧ ∃ alternative ∈ rule.selectors, ∃ chain,
      Descriptor.chain alternative = .ok chain ∧
        ∃ step ∈ alternative.chain, Descriptor.ofCompound step.2 step.1 = .ok descriptor := by
  obtain ⟨rule, listedRule, sameImport, alternative, listed, chain, built, placed⟩ :=
    exists_alternative_of_place member
  exact ⟨rule, listedRule, sameImport, alternative, listed, chain, built,
    Descriptor.exists_compound_of_mem (Descriptor.chain_eq_ok_iff.mp built) placed⟩

theorem proper_of_mem_runActions (member : action ∈ runActions rules) : action.Proper := by
  cases action with
  | place descriptor imported =>
      obtain ⟨_, -, -, _, -, _, -, _, -, single⟩ := exists_compound_of_place member
      exact Descriptor.proper_of_ofCompound single
  | _ => trivial

namespace Builder

variable {before after : Builder} {parent : NodeId} {element : Element} {imported : Bool}

/-- A report says nothing about the tree. -/
theorem Sound.report (sound : before.Sound) (report : Report) :
    ({ before with report } : Builder).Sound :=
  ⟨sound.linked, sound.body_element, sound.body_unregistered, sound.body_textless,
    sound.attached, sound.inner, sound.filler_below, sound.filler_childless,
    sound.filler_bare, sound.classes, sound.texts⟩

theorem advance_report (before : Builder) (report : Report) :
    Advance before { before with report } where
  body_eq := rfl
  size_le := Nat.le_refl _
  kept _ below unregistered := ⟨below, unregistered⟩
  filler_payload _ _ := rfl
  filler_children _ _ := rfl
  isElement_of_lt _ _ := rfl
  new_below _ new element :=
    absurd (Tree.lt_size_of_isElement element) (Nat.not_lt_of_le new)

theorem Real.advance {id : NodeId} (real : before.Real id) (advance : Advance before after) :
    after.Real id := by
  obtain ⟨below, unregistered⟩ := advance.kept id real.below real.unregistered
  refine ⟨below, ?_, unregistered⟩
  rw [advance.isElement_of_lt id (Tree.lt_size_of_below real.below), real.element]

/-- Wherever an element is placed, the builder stays sound. -/
theorem Outcome.sound {result : Builder × NodeId}
    (outcome : Outcome before parent element imported result) (sound : before.Sound)
    (host : before.Host parent) (proper : element.ProperClasses) :
    result.1.Sound ∧ Advance before result.1 ∧ result.1.Real result.2 ∧
      before.fillers.contains result.2 = false := by
  cases outcome with
  | merged listed unregistered success =>
      have real := Sound.child_real host listed sound.linked unregistered
      have rewritten := rewritten_of_tryMerge sound real success
      have advance := advance_rewritten sound real rewritten
      exact ⟨sound_rewritten sound real rewritten, advance, real.advance advance, unregistered⟩
  | @grown _ graft atParent growth =>
      subst atParent
      refine ⟨sound_grown sound host growth proper, advance_grown sound host growth,
        real_node_of_grown sound host growth, Bool.eq_false_iff.mpr fun registered => ?_⟩
      have new := (growth.new_iff graft.node).mp (Or.inl rfl)
      exact Nat.not_le_of_lt (sound.lt_size_of_registered registered) new.1

theorem report_showContent (builder : Builder) (node? : Option NodeId)
    (content : Option String) : (builder.showContent node? content).report = builder.report := by
  cases node? with
  | none => rfl
  | some target => cases content <;> rfl

theorem fillers_showContent (builder : Builder) (node? : Option NodeId)
    (content : Option String) :
    (builder.showContent node? content).fillers = builder.fillers := by
  cases node? with
  | none => rfl
  | some target => cases content <;> rfl

theorem sound_showContent (sound : before.Sound) {node? : Option NodeId}
    (real : ∀ id, node? = some id → before.Real id) (content : Option String) :
    (before.showContent node? content).Sound ∧
      Advance before (before.showContent node? content) := by
  have unchanged : before.Sound ∧ Advance before before :=
    ⟨sound, advance_report before before.report⟩
  cases node? with
  | none => exact unchanged
  | some target =>
      cases content with
      | none => exact unchanged
      | some content =>
          have atTarget := real target rfl
          have rewritten := rewritten_of_setContent sound atTarget (stripQuotes content)
          exact ⟨sound_rewritten sound atTarget rewritten,
            advance_rewritten sound atTarget rewritten⟩

end Builder

/-- A cursor whose builder is sound and whose node is a real element. -/
structure Cursor.Sound (cursor : Cursor) : Prop where
  builder : cursor.builder.Sound
  node : ∀ id, cursor.node? = some id → cursor.builder.Real id

namespace Cursor

theorem sound_start : start.Sound := ⟨Builder.sound_start, by simp [start]⟩

/-- Where an alternative begins, there is no node yet. -/
theorem sound_none {builder : Builder} (sound : builder.Sound) : Cursor.Sound ⟨builder, none⟩ :=
  ⟨sound, by simp⟩

theorem Sound.host_parentFor (sound : cursor.Sound) (descriptor : Descriptor) :
    cursor.builder.Host (cursor.builder.parentFor descriptor cursor.node?) := by
  cases found : cursor.node? with
  | none => exact Or.inl rfl
  | some previous =>
      have real := sound.node previous found
      rw [Builder.parentFor]
      split
      · cases above : cursor.builder.tree.parent previous with
        | none => exact Or.inl rfl
        | some parent => exact sound.builder.host_of_parent real.below above
      · exact Or.inr real

theorem placed_placeDescriptor (options : Options) (sound : cursor.Sound)
    (descriptor : Descriptor) (imported : Bool) :
    Builder.Placed Graft.Single cursor.builder
      (cursor.builder.parentFor descriptor cursor.node?) descriptor.element imported
      (cursor.builder.placeDescriptor options cursor.node? descriptor imported) := by
  have allocated := sound.builder.host_lt_size (sound.host_parentFor descriptor)
  rw [Builder.placeDescriptor]
  split
  · exact (Builder.placed_place sound.builder.linked allocated options _ imported).imp
      fun _ last => last.single
  · exact Builder.placed_placeAt sound.builder.linked allocated options _ _ imported

theorem outcome_placeDescriptor (options : Options) (sound : cursor.Sound)
    (descriptor : Descriptor) (imported : Bool) :
    Builder.Outcome cursor.builder (cursor.builder.parentFor descriptor cursor.node?)
      descriptor.element imported
      (cursor.builder.placeDescriptor options cursor.node? descriptor imported) :=
  (placed_placeDescriptor options sound descriptor imported).outcome

/-- One action keeps a cursor sound. -/
theorem sound_perform (options : Options) (sound : cursor.Sound) (proper : action.Proper) :
    (cursor.perform options action).Sound ∧
      Builder.Advance cursor.builder (cursor.perform options action).builder := by
  cases action with
  | beginRule =>
      have advance := Builder.advance_report cursor.builder
      exact ⟨⟨sound.builder.report _, fun id found => (sound.node id found).advance (advance _)⟩,
        advance _⟩
  | skipAlternative =>
      have advance := Builder.advance_report cursor.builder
      exact ⟨⟨sound.builder.report _, fun id found => (sound.node id found).advance (advance _)⟩,
        advance _⟩
  | beginAlternative =>
      exact ⟨⟨sound.builder.report _, by simp [perform]⟩,
        Builder.advance_report cursor.builder _⟩
  | place descriptor imported =>
      obtain ⟨stillSound, advance, real, -⟩ :=
        (outcome_placeDescriptor options sound descriptor imported).sound
          sound.builder (sound.host_parentFor descriptor) proper.classes
      refine ⟨⟨stillSound, fun id found => ?_⟩, advance⟩
      cases found
      exact real
  | write content =>
      obtain ⟨stillSound, advance⟩ :=
        Builder.sound_showContent sound.builder sound.node content
      exact ⟨⟨stillSound, fun id found => (sound.node id found).advance advance⟩, advance⟩

/-- Runs keep cursors sound and real elements real. -/
theorem sound_performAll (options : Options) (sound : cursor.Sound)
    (proper : ∀ action ∈ actions, action.Proper) :
    (cursor.performAll options actions).Sound ∧
      ∀ id, cursor.builder.Real id → (cursor.performAll options actions).builder.Real id := by
  induction actions generalizing cursor with
  | nil => exact ⟨sound, fun _ real => real⟩
  | cons action rest ih =>
      obtain ⟨stillSound, advance⟩ := sound_perform options sound (proper action List.mem_cons_self)
      obtain ⟨atEnd, kept⟩ :=
        ih stillSound fun later member => proper later (List.mem_cons_of_mem action member)
      exact ⟨atEnd, fun id real => kept id (real.advance advance)⟩

/-- What every step does to a builder, a run does, if it adds up. -/
theorem relates_performAll (Relates : Builder → Builder → Prop) (suits : Action → Prop)
    (refl : ∀ builder, Relates builder builder)
    (trans : ∀ {first second third}, Relates first second → Relates second third →
      Relates first third)
    (step : ∀ {cursor : Cursor} {action}, cursor.Sound → action.Proper → suits action →
      Relates cursor.builder (cursor.perform options action).builder)
    (sound : cursor.Sound) (proper : ∀ action ∈ actions, action.Proper)
    (suited : ∀ action ∈ actions, suits action) :
    Relates cursor.builder (cursor.performAll options actions).builder := by
  induction actions generalizing cursor with
  | nil => exact refl cursor.builder
  | cons action rest ih =>
      have properFirst := proper action List.mem_cons_self
      apply trans (step sound properFirst (suited action List.mem_cons_self))
      apply ih (sound_perform options sound properFirst).1
      · exact fun later member => proper later (List.mem_cons_of_mem action member)
      · exact fun later member => suited later (List.mem_cons_of_mem action member)

theorem sound_after (proper : ∀ action ∈ actions, action.Proper) :
    (after options actions).Sound :=
  (sound_performAll options sound_start proper).1

/-- An element outside the body was a filler before. -/
theorem below_or_registered (proper : ∀ action ∈ actions, action.Proper) {id : NodeId}
    (element : (after options actions).builder.tree.isElement id = true)
    (different : id ≠ (after options actions).builder.body) :
    (after options actions).builder.tree.Below (after options actions).builder.body id ∨
      ∃ early, early <+: actions ∧
        (after options early).builder.fillers.contains id = true := by
  induction actions using List.reverseRecOn with
  | nil => exact absurd (Builder.eq_body_of_start element) different
  | append_singleton early last ih =>
      have properEarly : ∀ action ∈ early, action.Proper :=
        fun action member => proper action (List.mem_append_left _ member)
      have properLast := proper last (by simp)
      have soundEarly : (after options early).Sound := sound_after properEarly
      have advance := (sound_perform options soundEarly properLast).2
      rw [after_concat] at element different ⊢
      have earlier : ∀ {known}, known <+: early → known <+: early ++ [last] :=
        fun inside => inside.trans (List.prefix_append early [last])
      by_cases old : id < (after options early).builder.tree.size
      · rw [advance.isElement_of_lt id old] at element
        rw [advance.body_eq] at different
        rcases ih properEarly element different with below | ⟨known, inside, registered⟩
        · by_cases registered :
              (after options early).builder.fillers.contains id = true
          · exact Or.inr ⟨early, List.prefix_append early [last], registered⟩
          · exact Or.inl (advance.kept id below (Bool.eq_false_iff.mpr registered)).1
        · exact Or.inr ⟨known, earlier inside, registered⟩
      · exact Or.inl (advance.new_below id (Nat.le_of_not_lt old) element)

end Cursor

/-- At every moment of every run, the builder is sound. -/
theorem Builder.Reachable.sound {builder : Builder} (reachable : builder.Reachable options) :
    builder.Sound := by
  obtain ⟨rules, done, left, split, rfl⟩ := reachable
  refine (Cursor.sound_after fun action member => ?_).builder
  exact proper_of_mem_runActions (split ▸ List.mem_append_left left member)

theorem Builder.reachable_ofRules (options : Options) (rules : List TreeRule) :
    (ofRules options rules).Reachable options :=
  ⟨rules, runActions rules, [], (List.append_nil _).symm,
    (Cursor.builder_after_runActions options rules).symm⟩

theorem Builder.sound_ofRules (options : Options) (rules : List TreeRule) :
    (ofRules options rules).Sound :=
  (reachable_ofRules options rules).sound

end SelectorTree
