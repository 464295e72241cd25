import SelectorTree.Proofs.Selector.Mirror
import SelectorTree.Proofs.Synthesis.Runs

/-!
# Runs of mirrored rules

A mirrored rule has the chains of the rule itself, with every position counted
from the other side.  So the run of mirrored rules takes the same actions in the
same order, each of them mirrored.
-/

namespace SelectorTree

def Position.mirror (position : Position) : Position :=
  { position with side := position.side.mirror }

def Descriptor.mirror (descriptor : Descriptor) : Descriptor :=
  { descriptor with position? := descriptor.position?.map Position.mirror }

def TreeRule.mirror (rule : TreeRule) : TreeRule :=
  { rule with selectors := rule.selectors.map ComplexSelector.mirror }

def Action.mirror : Action → Action
  | .beginRule => .beginRule
  | .skipAlternative => .skipAlternative
  | .beginAlternative => .beginAlternative
  | .place descriptor imported => .place descriptor.mirror imported
  | .write content => .write content

namespace Descriptor

variable {compound : Compound} {combinator : Combinator} {descriptor : Descriptor}
  {descriptors : List Descriptor} {selector : ComplexSelector}

theorem positionOf_mirror (pseudoClass : PseudoClass) :
    (positionOf pseudoClass.mirror).toOption =
      (positionOf pseudoClass).toOption.map Position.mirror := by
  have name : pseudoClass.mirror.name = mirrorName pseudoClass.name := rfl
  rw [positionOf, positionOf, name, isPositional_mirrorName, PseudoClass.positions?_mirror]
  cases isPositional pseudoClass.name with
  | false => rfl
  | true =>
      cases pseudoClass.positions? with
      | none => rfl
      | some set =>
          simp only [if_true, Option.map_some, PositionSet.mirror]
          split
          · rfl
          · rfl

theorem positionOf?_mirror (pseudoClasses : List PseudoClass) :
    (positionOf? (pseudoClasses.map PseudoClass.mirror)).toOption =
      (positionOf? pseudoClasses).toOption.map (Option.map Position.mirror) := by
  match pseudoClasses with
  | [] => rfl
  | [pseudoClass] =>
      have same := positionOf_mirror pseudoClass
      rw [List.map_singleton, positionOf?, positionOf?]
      cases found : positionOf pseudoClass with
      | error reason =>
          rw [found] at same
          cases mirrored : positionOf pseudoClass.mirror with
          | error _ => rfl
          | ok _ =>
              rw [mirrored] at same
              cases same
      | ok position =>
          rw [found] at same
          cases mirrored : positionOf pseudoClass.mirror with
          | error _ =>
              rw [mirrored] at same
              cases same
          | ok _ =>
              rw [mirrored] at same
              cases same
              rfl
  | _ :: _ :: _ => rfl

theorem toOption_eq_some_iff {error value : Type} {result : Except error value} {found : value} :
    result.toOption = some found ↔ result = .ok found := by
  cases result <;> simp [Except.toOption]

theorem ofCompound_mirror :
    ofCompound compound.mirror combinator = .ok descriptor ↔
      ∃ original, ofCompound compound combinator = .ok original ∧
        descriptor = original.mirror := by
  have positions : ∀ {position?}, positionOf? (compound.pseudoClasses.map PseudoClass.mirror) =
      .ok position? ↔ ∃ original?, positionOf? compound.pseudoClasses = .ok original? ∧
        position? = original?.map Position.mirror := by
    intro position?
    rw [← toOption_eq_some_iff, positionOf?_mirror, Option.map_eq_some_iff]
    exact exists_congr fun original? => and_congr toOption_eq_some_iff eq_comm
  constructor
  · intro built
    obtain ⟨tag, position?, tagEq, noElement, asked, rfl⟩ := ofCompound_eq_ok_iff.mp built
    obtain ⟨original?, askedOriginal, rfl⟩ := positions.mp asked
    exact ⟨⟨elementOf tag compound, combinator, original?⟩,
      ofCompound_eq_ok_iff.mpr ⟨tag, original?, tagEq, noElement, askedOriginal, rfl⟩, rfl⟩
  · rintro ⟨original, built, rfl⟩
    obtain ⟨tag, original?, tagEq, noElement, asked, rfl⟩ := ofCompound_eq_ok_iff.mp built
    exact ofCompound_eq_ok_iff.mpr
      ⟨tag, _, tagEq, noElement, positions.mpr ⟨original?, asked, rfl⟩, rfl⟩

theorem chain_mirror :
    chain selector.mirror = .ok descriptors ↔
      ∃ original, chain selector = .ok original ∧ descriptors = original.map mirror := by
  rw [chain_eq_ok_iff, ComplexSelector.chain_mirror, List.forall₂_map_left_iff]
  simp only [chain_eq_ok_iff, ofCompound_mirror]
  generalize selector.chain = steps
  constructor
  · intro paired
    induction paired with
    | nil => exact ⟨[], .nil, rfl⟩
    | cons first _ ih =>
        obtain ⟨original, built, rfl⟩ := first
        obtain ⟨others, rest, rfl⟩ := ih
        exact ⟨original :: others, .cons built rest, rfl⟩
  · rintro ⟨original, paired, rfl⟩
    induction paired with
    | nil => exact .nil
    | cons built _ ih => exact .cons ⟨_, built, rfl⟩ ih

end Descriptor

/-! ## Actions -/

theorem TreeRule.alternativeActions_mirror (rule : TreeRule) (alternative : ComplexSelector) :
    rule.mirror.alternativeActions alternative.mirror =
      (rule.alternativeActions alternative).map Action.mirror := by
  cases original : Descriptor.chain alternative with
  | ok chain =>
      have mirrored := Descriptor.chain_mirror.mpr ⟨chain, original, rfl⟩
      simp [alternativeActions, original, mirrored, Action.mirror, mirror, Function.comp_def]
  | error reason =>
      cases mirrored : Descriptor.chain alternative.mirror with
      | error _ =>
          rw [alternativeActions, alternativeActions, original, mirrored]
          rfl
      | ok descriptors =>
          obtain ⟨chain, built, -⟩ := Descriptor.chain_mirror.mp mirrored
          rw [original] at built
          cases built

theorem TreeRule.actions_mirror (rule : TreeRule) :
    rule.mirror.actions = rule.actions.map Action.mirror := by
  have alternatives : ∀ selectors : SelectorList,
      (selectors.map ComplexSelector.mirror).flatMap rule.mirror.alternativeActions =
        (selectors.flatMap rule.alternativeActions).map Action.mirror := by
    intro selectors
    rw [List.flatMap_map, List.map_flatMap]
    exact congrArg (selectors.flatMap ·) (funext rule.alternativeActions_mirror)
  rw [actions, actions, List.map_cons, ← alternatives]
  rfl

/-- The run of mirrored rules. -/
theorem runActions_mirror (rules : List TreeRule) :
    runActions (rules.map TreeRule.mirror) = (runActions rules).map Action.mirror := by
  rw [runActions, runActions, List.flatMap_map, List.map_flatMap]
  exact congrArg (rules.flatMap ·) (funext TreeRule.actions_mirror)

theorem Descriptor.Proper.mirror {descriptor : Descriptor} (proper : descriptor.Proper) :
    descriptor.mirror.Proper where
  classes := proper.classes
  positive := by
    intro position asked
    obtain ⟨original, found, rfl⟩ := Option.map_eq_some_iff.mp asked
    exact proper.positive original found

theorem Action.Proper.mirror {action : Action} (proper : action.Proper) :
    action.mirror.Proper := by
  cases action with
  | place descriptor imported => exact Descriptor.Proper.mirror proper
  | _ => trivial

/-! ## Positions everywhere -/

/-- A rule whose compounds all have a pseudo-class. -/
def TreeRule.Positional (rule : TreeRule) : Prop :=
  ∀ alternative ∈ rule.selectors, ∀ step ∈ alternative.chain, step.2.pseudoClasses ≠ []

instance (rule : TreeRule) : Decidable rule.Positional :=
  inferInstanceAs (Decidable (∀ alternative ∈ rule.selectors, ∀ step ∈ alternative.chain,
    step.2.pseudoClasses ≠ []))

/-- An action that asks for a position if it places an element. -/
def Action.Positional : Action → Prop
  | .place descriptor _ => ∃ position, descriptor.position? = some position
  | .beginRule | .skipAlternative | .beginAlternative | .write _ => True

/-- A pseudo-class of a compound that has a descriptor asks for a position. -/
theorem Descriptor.position?_ne_none {compound : Compound} {combinator : Combinator}
    {descriptor : Descriptor} (built : ofCompound compound combinator = .ok descriptor)
    (asks : compound.pseudoClasses ≠ []) : ∃ position, descriptor.position? = some position := by
  obtain ⟨tag, position?, -, -, asked, rfl⟩ := ofCompound_eq_ok_iff.mp built
  match pseudoClasses : compound.pseudoClasses with
  | [] => exact absurd pseudoClasses asks
  | [pseudoClass] =>
      rw [pseudoClasses, positionOf?] at asked
      cases found : positionOf pseudoClass with
      | error reason =>
          rw [found] at asked
          cases asked
      | ok position =>
          rw [found] at asked
          cases asked
          exact ⟨position, rfl⟩
  | _ :: _ :: _ =>
      rw [pseudoClasses] at asked
      cases asked

theorem positional_of_mem_runActions {rules : List TreeRule} {action : Action}
    (positional : ∀ rule ∈ rules, rule.Positional) (member : action ∈ runActions rules) :
    action.Positional := by
  cases action with
  | place descriptor imported =>
      obtain ⟨rule, listedRule, -, alternative, listed, _, -, step, inChain, single⟩ :=
        exists_compound_of_place member
      exact Descriptor.position?_ne_none single
        (positional rule listedRule alternative listed step inChain)
  | _ => trivial

end SelectorTree
