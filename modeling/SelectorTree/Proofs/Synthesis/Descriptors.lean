import Mathlib.Data.List.Forall2
import SelectorTree.Proofs.Element.Classes

/-!
# Descriptors that are built

A chain has one descriptor for every compound, in the same order.  Each carries
the element of its compound, and a position that a rule can ask for.
-/

namespace SelectorTree.Descriptor

/-- What every descriptor that is built from a compound satisfies. -/
structure Proper (descriptor : Descriptor) : Prop where
  classes : descriptor.element.ProperClasses
  positive : ∀ position, descriptor.position? = some position → 0 < position.index

variable {compound : Compound} {combinator : Combinator} {descriptor : Descriptor}
  {selector : ComplexSelector} {descriptors : List Descriptor}

theorem index_pos_of_positionOf {pseudoClass : PseudoClass} {position : Position}
    (asked : positionOf pseudoClass = .ok position) : 0 < position.index := by
  rw [positionOf] at asked
  split at asked
  · split at asked
    · cases asked
    · dsimp only at asked
      split at asked
      · next single =>
          cases asked
          exact Int.pos_iff_toNat_pos.mp single.2
      · cases asked
  · cases asked

theorem index_pos_of_positionOf? {pseudoClasses : List PseudoClass} {position : Position}
    (asked : positionOf? pseudoClasses = .ok (some position)) : 0 < position.index := by
  match pseudoClasses with
  | [] => cases asked
  | [pseudoClass] =>
      rw [positionOf?] at asked
      cases single : positionOf pseudoClass with
      | error reason =>
          rw [single] at asked
          cases asked
      | ok found =>
          rw [single] at asked
          cases asked
          exact index_pos_of_positionOf single
  | _ :: _ :: _ => cases asked

theorem ofCompound_eq_ok_iff :
    ofCompound compound combinator = .ok descriptor ↔
      ∃ tag position?, tagOf compound.type? = .ok tag ∧ compound.pseudoElement? = none ∧
        positionOf? compound.pseudoClasses = .ok position? ∧
        descriptor = ⟨elementOf tag compound, combinator, position?⟩ := by
  rw [ofCompound]
  cases tagEq : tagOf compound.type? with
  | error reason => simp [bind, Except.bind]
  | ok tag =>
      cases elementEq : compound.pseudoElement? with
      | some name => simp [bind, Except.bind, throw, throwThe, MonadExceptOf.throw]
      | none =>
          cases positionEq : positionOf? compound.pseudoClasses with
          | error reason => simp [bind, Except.bind]
          | ok position? => simp [bind, Except.bind, pure, Except.pure, eq_comm]

theorem proper_of_ofCompound (built : ofCompound compound combinator = .ok descriptor) :
    descriptor.Proper := by
  obtain ⟨tag, position?, -, -, asked, rfl⟩ := ofCompound_eq_ok_iff.mp built
  refine ⟨Element.properClasses_elementOf tag compound, ?_⟩
  rintro position rfl
  exact index_pos_of_positionOf? asked

theorem imported_applyAttribute (element : Element) (selector : AttributeSelector) :
    (applyAttribute element selector).imported = element.imported := by
  simp only [applyAttribute]
  split
  · rfl
  · split
    · exact Element.imported_addClasses element _
    · rfl

/-- What a compound describes is not marked yet. -/
theorem imported_elementOf (tag : String) (compound : Compound) :
    (elementOf tag compound).imported = false := by
  rw [elementOf]
  refine List.foldlRecOn (motive := fun element : Element => element.imported = false) _ _ ?_ ?_
  · rw [Element.imported_addClasses]
    split <;> rfl
  · intro element unmarked selector _
    rw [imported_applyAttribute, unmarked]

theorem combinator_of_ofCompound (built : ofCompound compound combinator = .ok descriptor) :
    descriptor.combinator = combinator := by
  obtain ⟨tag, position?, -, -, -, rfl⟩ := ofCompound_eq_ok_iff.mp built
  rfl

/-- A compound that is built has no pseudo-classes but positional ones. -/
theorem pseudoClasses_eq_nil (built : ofCompound compound combinator = .ok descriptor)
    (noPositions : ∀ pseudoClass ∈ compound.pseudoClasses,
      isPositional pseudoClass.name = false) : compound.pseudoClasses = [] := by
  obtain ⟨tag, position?, -, -, asked, -⟩ := ofCompound_eq_ok_iff.mp built
  match pseudoClasses : compound.pseudoClasses with
  | [] => rfl
  | [pseudoClass] =>
      rw [pseudoClasses] at asked
      have notPositional := noPositions pseudoClass (by simp [pseudoClasses])
      rw [positionOf?, positionOf, notPositional] at asked
      cases asked
  | _ :: _ :: _ =>
      rw [pseudoClasses] at asked
      cases asked

/-- Only a positional pseudo-class asks for a position. -/
theorem position?_of_ofCompound (built : ofCompound compound combinator = .ok descriptor)
    (noPositions : ∀ pseudoClass ∈ compound.pseudoClasses,
      isPositional pseudoClass.name = false) : descriptor.position? = none := by
  obtain ⟨tag, position?, -, -, asked, rfl⟩ := ofCompound_eq_ok_iff.mp built
  rw [pseudoClasses_eq_nil built noPositions] at asked
  cases asked
  rfl

theorem chain_eq_ok_iff :
    chain selector = .ok descriptors ↔
      List.Forall₂ (fun step descriptor => ofCompound step.2 step.1 = .ok descriptor)
        selector.chain descriptors := by
  rw [chain]
  generalize selector.chain = steps
  induction steps generalizing descriptors with
  | nil => cases descriptors <;> simp [pure, Except.pure]
  | cons step steps ih =>
      rw [List.mapM_cons]
      cases first : ofCompound step.2 step.1 with
      | error reason => cases descriptors <;> simp [bind, Except.bind, first]
      | ok descriptor =>
          cases rest : steps.mapM fun step => ofCompound step.2 step.1 with
          | error reason => cases descriptors <;> simp [bind, Except.bind, ← ih, rest, first]
          | ok others =>
              cases descriptors <;>
                simp [bind, Except.bind, pure, Except.pure, ← ih, rest, first]

theorem exists_compound_of_mem {steps : List (Combinator × Compound)}
    (paired : List.Forall₂ (fun step descriptor => ofCompound step.2 step.1 = .ok descriptor)
      steps descriptors) (member : descriptor ∈ descriptors) :
    ∃ step ∈ steps, ofCompound step.2 step.1 = .ok descriptor := by
  induction paired with
  | nil => cases member
  | @cons step _ _ _ first _ ih =>
      rcases List.mem_cons.mp member with rfl | later
      · exact ⟨step, List.mem_cons_self, first⟩
      · obtain ⟨other, listed, built⟩ := ih later
        exact ⟨other, List.mem_cons_of_mem step listed, built⟩

theorem imported_of_mem_chain (built : chain selector = .ok descriptors)
    (listed : descriptor ∈ descriptors) : descriptor.element.imported = false := by
  obtain ⟨step, -, single⟩ := exists_compound_of_mem (chain_eq_ok_iff.mp built) listed
  obtain ⟨tag, _, -, -, -, rfl⟩ := ofCompound_eq_ok_iff.mp single
  exact imported_elementOf tag step.2

end SelectorTree.Descriptor
