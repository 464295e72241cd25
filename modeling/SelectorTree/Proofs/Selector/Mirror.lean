import SelectorTree.Selector.Positional

/-!
# Mirrored selectors

Every positional pseudo-class has a counterpart that counts the same siblings
from the other end.  Mirroring a selector exchanges each for its counterpart and
leaves everything else as it is; the positions that are asked for are then the
same, seen from the other side.
-/

namespace SelectorTree

open Text

def Side.mirror : Side → Side
  | .start => .finish
  | .finish => .start

def PositionSet.mirror (set : PositionSet) : PositionSet := { set with side := set.side.mirror }

/-- The positional pseudo-classes, each with its counterpart. -/
def mirroredNames : List (String × String) :=
  [("first-child", "last-child"), ("last-child", "first-child"),
   ("nth-child", "nth-last-child"), ("nth-last-child", "nth-child"),
   ("first-of-type", "last-of-type"), ("last-of-type", "first-of-type"),
   ("nth-of-type", "nth-last-of-type"), ("nth-last-of-type", "nth-of-type")]

/-- The name of the counterpart; other names stay. -/
def mirrorName (name : String) : String :=
  ((mirroredNames.find? (sameLetters ·.1 name)).map Prod.snd).getD name

namespace PseudoClass

def mirror (pseudoClass : PseudoClass) : PseudoClass :=
  { pseudoClass with name := mirrorName pseudoClass.name }

end PseudoClass

def Compound.mirror (compound : Compound) : Compound :=
  { compound with pseudoClasses := compound.pseudoClasses.map PseudoClass.mirror }

def ComplexSelector.mirror (selector : ComplexSelector) : ComplexSelector :=
  ⟨selector.subject.mirror, selector.outer.map fun step => (step.1, step.2.mirror)⟩

/-! ## Names -/

theorem mirrorName_cases (name : String) :
    (∃ pair ∈ mirroredNames, sameLetters pair.1 name = true ∧ mirrorName name = pair.2) ∨
      (mirrorName name = name ∧ ∀ pair ∈ mirroredNames, sameLetters pair.1 name = false) := by
  cases found : mirroredNames.find? (sameLetters ·.1 name) with
  | some pair =>
      left
      refine ⟨pair, List.mem_of_find?_eq_some found, ?_, ?_⟩
      · exact List.find?_some (p := fun pair : String × String => sameLetters pair.1 name)
          found
      · rw [mirrorName, found]
        rfl
  | none =>
      right
      refine ⟨?_, fun pair listed => ?_⟩
      · rw [mirrorName, found]
        rfl
      · exact Bool.eq_false_iff.mpr (List.find?_eq_none.mp found pair listed)

example : mirrorName "nth-last-child" = "nth-child" ∧ mirrorName "First-Of-Type" = "last-of-type" ∧
    mirrorName "hover" = "hover" := by decide

/-- The case of a name does not count. -/
theorem positionalName?_congr {left right : String} (same : sameLetters left right = true) :
    positionalName? left = positionalName? right := by
  have equal : left.toList.map Char.toLower = right.toList.map Char.toLower :=
    beq_iff_eq.mp same
  have sameTest : (fun entry : PositionalName => sameLetters entry.name left) =
      fun entry => sameLetters entry.name right := by
    funext entry
    rw [sameLetters, sameLetters, equal]
  rw [positionalName?, positionalName?, sameTest]

/-- What a counterpart counts. -/
theorem positionalName?_of_pair : ∀ pair ∈ mirroredNames,
    (positionalName? pair.2).map (fun entry => (entry.side, entry.scope, entry.takesFormula)) =
      (positionalName? pair.1).map fun entry =>
        (entry.side.mirror, entry.scope, entry.takesFormula) := by
  decide

theorem positionalName?_mirrorName (name : String) :
    (positionalName? (mirrorName name)).map
        (fun entry => (entry.side, entry.scope, entry.takesFormula)) =
      (positionalName? name).map fun entry =>
        (entry.side.mirror, entry.scope, entry.takesFormula) := by
  rcases mirrorName_cases name with ⟨pair, listed, same, mirrored⟩ | ⟨unchanged, outside⟩
  · rw [mirrored, ← positionalName?_congr same]
    exact positionalName?_of_pair pair listed
  · have every : ∀ entry ∈ positionalNames, entry.name ∈ mirroredNames.map Prod.fst := by decide
    have noPosition : positionalName? name = none := by
      refine List.find?_eq_none.mpr fun entry listed same => ?_
      obtain ⟨pair, inTable, equal⟩ := List.mem_map.mp (every entry listed)
      rw [← equal, outside pair inTable] at same
      cases same
    rw [unchanged, noPosition]
    rfl

theorem isPositional_mirrorName (name : String) :
    isPositional (mirrorName name) = isPositional name := by
  have same := congrArg Option.isSome (positionalName?_mirrorName name)
  simpa [isPositional] using same

theorem PseudoClass.positions?_mirror (pseudoClass : PseudoClass) :
    pseudoClass.mirror.positions? = pseudoClass.positions?.map PositionSet.mirror := by
  have same := positionalName?_mirrorName pseudoClass.name
  rw [positions?, positions?, mirror]
  cases entryEq : positionalName? pseudoClass.name with
  | none =>
      rw [entryEq, Option.map_none, Option.map_eq_none_iff] at same
      rw [same]
      rfl
  | some entry =>
      rw [entryEq, Option.map_some, Option.map_eq_some_iff] at same
      obtain ⟨other, otherEq, reading⟩ := same
      simp only [Prod.mk.injEq] at reading
      obtain ⟨side, scope, takesFormula⟩ := reading
      rw [otherEq, Option.bind_some, Option.bind_some, side, scope, takesFormula]
      rcases pseudoClass.argument? with _ | _ | _ <;> cases entry.takesFormula <;> rfl

/-! ## Chains -/

theorem ComplexSelector.chainFrom_mirror (subject : Compound)
    (outer : List (Combinator × Compound)) :
    chainFrom subject.mirror (outer.map fun step => (step.1, step.2.mirror)) =
      (chainFrom subject outer).map fun step => (step.1, step.2.mirror) := by
  induction outer generalizing subject with
  | nil => rfl
  | cons step rest ih =>
      obtain ⟨combinator, compound⟩ := step
      rw [List.map_cons, chainFrom, chainFrom, ih, List.map_append]
      rfl

theorem ComplexSelector.chain_mirror (selector : ComplexSelector) :
    selector.mirror.chain = selector.chain.map fun step => (step.1, step.2.mirror) :=
  chainFrom_mirror selector.subject selector.outer

end SelectorTree
