import Mathlib.Data.List.Perm.Basic
import SelectorTree.Proofs.Element.Keys

/-!
# Comparable elements

Comparing counts the classes on both sides and looks up those of one side only.  As long as
no list repeats a class that is enough: the lists are permutations of each other.  So being
comparable is an equivalence that sees neither the order of the classes nor the attributes.
-/

namespace SelectorTree.Element

variable {left middle right : Element}

/-- Two descriptions of one element: the case of the tag and the order of the classes do not
count, and an absent id is an empty one. -/
structure SameIdentity (left right : Element) : Prop where
  tag : Text.lower left.tag = Text.lower right.tag
  id : left.id?.getD "" = right.id?.getD ""
  classes : left.classes.Perm right.classes

namespace SameIdentity

theorem refl (element : Element) : SameIdentity element element :=
  ⟨rfl, rfl, .refl _⟩

theorem symm (same : SameIdentity left right) : SameIdentity right left :=
  ⟨same.tag.symm, same.id.symm, same.classes.symm⟩

theorem trans (first : SameIdentity left middle) (second : SameIdentity middle right) :
    SameIdentity left right :=
  ⟨first.tag.trans second.tag, first.id.trans second.id, first.classes.trans second.classes⟩

theorem nodup (same : SameIdentity left right) (distinct : left.classes.Nodup) :
    right.classes.Nodup :=
  same.classes.nodup_iff.mp distinct

end SameIdentity

/-- The stored id and the id that counts differ in the empty one alone. -/
theorem id_getD (element : Element) : element.id.getD "" = element.id?.getD "" := by
  rw [Element.id]
  cases element.id? with
  | none => rfl
  | some name =>
      by_cases empty : name = "" <;> simp [Option.filter, empty]

theorem comparable_iff_sameIdentity (distinctLeft : left.classes.Nodup)
    (distinctRight : right.classes.Nodup) :
    left.comparable right = true ↔ SameIdentity left right := by
  rw [comparable_iff_of_nodup distinctLeft distinctRight, key, key, Key.mk.injEq, id_getD, id_getD]
  constructor
  · rintro ⟨tag, id, classes⟩
    exact ⟨tag, id, List.perm_of_nodup_nodup_toFinset_eq distinctLeft distinctRight classes⟩
  · intro same
    exact ⟨same.tag, same.id, List.toFinset_eq_of_perm _ _ same.classes⟩

/-- Only the identities of the two sides matter. -/
theorem comparable_congr {left' right' : Element} (distinctLeft : left.classes.Nodup)
    (distinctRight : right.classes.Nodup) (sameLeft : SameIdentity left left')
    (sameRight : SameIdentity right right') :
    left'.comparable right' = left.comparable right := by
  rw [Bool.eq_iff_iff, comparable_iff_sameIdentity distinctLeft distinctRight,
    comparable_iff_sameIdentity (sameLeft.nodup distinctLeft) (sameRight.nodup distinctRight)]
  constructor
  · intro same
    exact (sameLeft.trans same).trans sameRight.symm
  · intro same
    exact (sameLeft.symm.trans same).trans sameRight

/-- Among elements that repeat no class, being comparable is having one identity; hence it is
reflexive, symmetric and transitive, and nothing but the identities of its sides decides it. -/
theorem comparable_laws (distinctLeft : left.classes.Nodup) (distinctMiddle : middle.classes.Nodup)
    (distinctRight : right.classes.Nodup) :
    (left.comparable right = true ↔ SameIdentity left right) ∧
      left.comparable left = true ∧
      left.comparable right = right.comparable left ∧
      (left.comparable middle = true → middle.comparable right = true →
        left.comparable right = true) ∧
      ∀ left' right', SameIdentity left left' → SameIdentity right right' →
        left'.comparable right' = left.comparable right := by
  have characterized := comparable_iff_sameIdentity distinctLeft distinctRight
  refine ⟨characterized, ?_, ?_, ?_, ?_⟩
  · exact (comparable_iff_sameIdentity distinctLeft distinctLeft).mpr (.refl left)
  · rw [Bool.eq_iff_iff, characterized, comparable_iff_sameIdentity distinctRight distinctLeft]
    exact ⟨.symm, .symm⟩
  · intro first second
    have sameFirst := (comparable_iff_sameIdentity distinctLeft distinctMiddle).mp first
    have sameSecond := (comparable_iff_sameIdentity distinctMiddle distinctRight).mp second
    exact characterized.mpr (sameFirst.trans sameSecond)
  · intro left' right' sameLeft sameRight
    exact comparable_congr distinctLeft distinctRight sameLeft sameRight

/-- Where a list repeats a class, comparing is not symmetric: what the other list has beside
that class is not looked up. -/
example :
    ({ ofTag "p" with classes := ["a", "a"] } : Element).comparable
        { ofTag "p" with classes := ["a", "b"] } = true ∧
      ({ ofTag "p" with classes := ["a", "b"] } : Element).comparable
        { ofTag "p" with classes := ["a", "a"] } = false := by
  decide

/-- An `input` with an empty id and the classes `a`, `b` and `c`. -/
def taggedInput : Element := { ofTag "input" with id? := some "", classes := ["a", "b", "c"] }

/-- An `INPUT` with the same classes in another order and a `type`. -/
def typedInput : Element :=
  { (ofTag "input").setAttribute "type" "text" with tag := "INPUT", classes := ["c", "a", "b"] }

/-- An `input` with one class less. -/
def barerInput : Element := { ofTag "input" with classes := ["b", "a"] }

/-- Two descriptions of one element, in a third element's sight. -/
theorem comparable_taggedInput :
    taggedInput.classes.Nodup ∧ typedInput.classes.Nodup ∧ barerInput.classes.Nodup ∧
      SameIdentity taggedInput typedInput ∧
      taggedInput.comparable typedInput = typedInput.comparable taggedInput ∧
      typedInput.comparable barerInput = taggedInput.comparable barerInput ∧
      taggedInput.comparable barerInput = false := by
  have distinct : taggedInput.classes.Nodup := by decide
  have distinctTyped : typedInput.classes.Nodup := by decide
  have distinctBarer : barerInput.classes.Nodup := by decide
  obtain ⟨characterized, -, symmetric, -, -⟩ :=
    comparable_laws distinct distinctBarer distinctTyped
  have same : SameIdentity taggedInput typedInput := characterized.mp (by decide)
  obtain ⟨-, -, -, -, congruent⟩ := comparable_laws distinct distinctTyped distinctBarer
  exact ⟨distinct, distinctTyped, distinctBarer, same, symmetric,
    congruent typedInput barerInput same (.refl barerInput), by decide⟩

end SelectorTree.Element
