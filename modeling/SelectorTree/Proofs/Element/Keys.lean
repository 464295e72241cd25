import Mathlib.Data.Finset.Card
import Mathlib.Data.List.Perm.Subperm
import SelectorTree.Proofs.Element.Classes

/-!
# Keys of elements

The key of an element is its tag, its id and the set of its classes.  Elements
with no class twice are comparable if and only if their keys are equal, and
merging an element without a `type` into a comparable one changes nothing.
-/

namespace SelectorTree

structure Key where
  tag : String
  id : String
  classes : Finset String
deriving DecidableEq

namespace Element

/-- The key of an element; the case of its tag does not count, and an absent id
is an empty one. -/
def key (element : Element) : Key :=
  ⟨Text.lower element.tag, element.id.getD "", element.classes.toFinset⟩

variable {left right source target : Element}

/-- An id is never empty, so the key determines it. -/
theorem id_eq_iff : left.id = right.id ↔ left.id.getD "" = right.id.getD "" := by
  have nonempty : ∀ (element : Element), element.id ≠ some "" := by
    intro element
    simp [Element.id, Option.filter_eq_some_iff]
  refine ⟨congrArg fun id : Option String => id.getD "", fun same => ?_⟩
  cases leftId : left.id with
  | none =>
      cases rightId : right.id with
      | none => rfl
      | some name =>
          rw [leftId, rightId] at same
          exact absurd (rightId.trans (congrArg some same.symm)) (nonempty right)
  | some name =>
      cases rightId : right.id with
      | none =>
          rw [leftId, rightId] at same
          exact absurd (leftId.trans (congrArg some same)) (nonempty left)
      | some other =>
          rw [leftId, rightId] at same
          exact congrArg some same

/-- For lists without repetitions, comparing lengths and members compares
sets. -/
theorem same_classes_iff (distinctLeft : left.classes.Nodup)
    (distinctRight : right.classes.Nodup) :
    (left.classes.length = right.classes.length ∧
        ∀ name ∈ left.classes, name ∈ right.classes) ↔
      left.classes.toFinset = right.classes.toFinset := by
  constructor
  · rintro ⟨length, subset⟩
    have inside : left.classes.Subperm right.classes :=
      distinctLeft.subperm subset
    exact List.toFinset_eq_of_perm _ _ (inside.perm_of_length_le (Nat.le_of_eq length.symm))
  · intro same
    refine ⟨?_, fun name member => ?_⟩
    · rw [← List.toFinset_card_of_nodup distinctLeft,
        ← List.toFinset_card_of_nodup distinctRight, same]
    · rw [← List.mem_toFinset, ← same, List.mem_toFinset]
      exact member

theorem comparable_iff_of_nodup (distinctLeft : left.classes.Nodup)
    (distinctRight : right.classes.Nodup) :
    left.comparable right = true ↔ left.key = right.key := by
  simp only [comparable, Bool.and_eq_true, beq_iff_eq, List.all_eq_true, hasClass_iff,
    Text.sameLetters_iff, key, Key.mk.injEq, id_eq_iff,
    ← same_classes_iff distinctLeft distinctRight, and_assoc]

theorem ProperClasses.comparable_iff (properLeft : left.ProperClasses)
    (properRight : right.ProperClasses) :
    left.comparable right = true ↔ left.key = right.key :=
  comparable_iff_of_nodup properLeft.nodup properRight.nodup

@[simp] theorem key_takeKind : (target.takeKind source).key = target.key := by
  rw [takeKind]
  split <;> rfl

/-- Elements with one key merge unless their types conflict, and only a missing
`type` is taken over. -/
theorem mergeInto_eq_ok_iff_of_key (same : target.key = source.key) {merged : Element} :
    source.mergeInto target = .ok merged ↔
      conflicting source.kind target.kind = false ∧ merged = target.takeKind source := by
  have sameClasses : source.classes.toFinset = target.classes.toFinset :=
    congrArg Key.classes same.symm
  have sameTag : Text.sameLetters source.tag target.tag = true :=
    Text.sameLetters_iff.mpr (congrArg Key.tag same.symm)
  have sameId : source.id = target.id := id_eq_iff.mpr (congrArg Key.id same.symm)
  have noConflict : conflicting source.id target.id = false := by
    rw [sameId]
    cases target.id <;> simp [conflicting]
  have sameIdTaken : target.takeId source = target := by
    rw [takeId, sameId]
    cases target.id <;> rfl
  have known : ∀ name ∈ source.classes, name ∈ (target.takeKind source).classes := by
    intro name member
    rw [classes_takeKind, ← List.mem_toFinset, ← sameClasses, List.mem_toFinset]
    exact member
  rw [mergeInto_eq_ok_iff, sameIdTaken, addClasses_of_subset known]
  simp [conflict?, sameTag, noConflict]

/-- An element that has a key already and no `type` merges without a trace. -/
theorem mergeInto_of_key (same : target.key = source.key) (noType : source.kind = none) :
    source.mergeInto target = .ok target := by
  refine (mergeInto_eq_ok_iff_of_key same).mpr ⟨?_, ?_⟩
  · simp [noType, conflicting]
  · rw [takeKind, noType]
    cases target.kind <;> rfl

@[simp] theorem key_withImported (element : Element) (imported : Bool) :
    ({ element with imported } : Element).key = element.key := rfl

end Element

end SelectorTree
