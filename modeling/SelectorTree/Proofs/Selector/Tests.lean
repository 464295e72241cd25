import Mathlib.Data.List.TakeWhile
import SelectorTree.Proofs.Text.Spelling
import SelectorTree.Selector.Matching

/-!
# Values that pass their own test

An attribute selector compares an attribute with a value.  An attribute that has
just this value passes the comparison, unless the operator can be met by no value
of the kind: an empty one, or one of several words where a word is asked for.
-/

namespace SelectorTree

open Text

namespace Text

variable {separator : Char → Bool} {chars word : List Char}

/-- Characters without a separator among them are one run. -/
theorem runs_of_visible (filled : chars ≠ []) (visible : ∀ c ∈ chars, separator c = false) :
    runs separator chars = [chars] := by
  cases chars with
  | nil => exact absurd rfl filled
  | cons c rest =>
      obtain ⟨first, others⟩ := List.forall_mem_cons.mp visible
      have kept : ∀ c ∈ rest, (!separator c) = true := fun c member => by simp [others c member]
      have here : rest.takeWhile (!separator ·) = rest := List.takeWhile_eq_self_iff.mpr kept
      have behind : rest.dropWhile (!separator ·) = [] := List.dropWhile_eq_nil_iff.mpr kept
      rw [runs, if_neg (Bool.eq_false_iff.mp first), here, behind, runs]

/-- A run has characters, and no separator is among them. -/
theorem visible_of_mem_runs (member : word ∈ runs separator chars) :
    word ≠ [] ∧ ∀ c ∈ word, separator c = false := by
  fun_induction runs separator chars with
  | case1 => cases member
  | case2 c rest _ ih => exact ih member
  | case3 c rest visible here ih =>
      rcases List.mem_cons.mp member with rfl | later
      · refine ⟨List.cons_ne_nil c here, List.forall_mem_cons.mpr ⟨?_, ?_⟩⟩
        · exact Bool.eq_false_iff.mpr visible
        · intro other inside
          simpa using List.mem_takeWhile_imp inside
      · exact ih later

theorem mem_runs_self_iff :
    chars ∈ runs separator chars ↔ chars ≠ [] ∧ ∀ c ∈ chars, separator c = false := by
  constructor
  · exact visible_of_mem_runs
  · rintro ⟨filled, visible⟩
    rw [runs_of_visible filled visible]
    exact List.mem_singleton_self chars

theorem isWordBlank_toLower (c : Char) : isWordBlank c.toLower = isWordBlank c := by
  simp only [isWordBlank, beq_toLower (show Char.isAlpha ' ' = false from rfl),
    beq_toLower (show Char.isAlpha '\t' = false from rfl),
    beq_toLower (show Char.isAlpha '\n' = false from rfl),
    beq_toLower (show Char.isAlpha '\x0c' = false from rfl),
    beq_toLower (show Char.isAlpha '\r' = false from rfl)]

end Text

namespace AttributeOperator

/-- Whether an operator can be met with a value at all: an attribute contains a word only
if the value is one, and a part only if the value has characters. -/
def Meetable (operator : AttributeOperator) (value : List Char) : Prop :=
  match operator with
  | equals | dashMatch => True
  | includes => value ≠ [] ∧ ∀ c ∈ value, isWordBlank c = false
  | beginsWith | endsWith | contains => value ≠ []

instance : ∀ (operator : AttributeOperator) (value : List Char), Decidable (operator.Meetable value)
  | equals, _ | dashMatch, _ => isTrue trivial
  | includes, value =>
      -- Going through the characters of the value, not through all that there are.
      have : Decidable (∀ c ∈ value, isWordBlank c = false) := List.decidableBAll _ value
      inferInstanceAs (Decidable (value ≠ [] ∧ ∀ c ∈ value, isWordBlank c = false))
  | beginsWith, value | endsWith, value | contains, value =>
      inferInstanceAs (Decidable (value ≠ []))

variable {operator : AttributeOperator} {value : List Char}

theorem holds_self_iff : operator.holds value value = true ↔ operator.Meetable value := by
  cases operator with
  | equals => simp [holds, Meetable]
  | includes => rw [holds, List.contains_iff_mem, mem_runs_self_iff, Meetable]
  | dashMatch => simp [holds, Meetable]
  | beginsWith => simp [holds, Meetable]
  | endsWith => simp [holds, Meetable]
  | contains => simp [holds, Meetable]

/-- The case of letters does not matter for that. -/
theorem meetable_map_toLower :
    operator.Meetable (value.map Char.toLower) ↔ operator.Meetable value := by
  cases operator <;> simp [Meetable, isWordBlank_toLower]

end AttributeOperator

namespace AttributeTest

/-- Whether a test can be passed. -/
def Meetable (test : AttributeTest) : Prop := test.operator.Meetable test.value.toList

instance (test : AttributeTest) : Decidable test.Meetable :=
  inferInstanceAs (Decidable (AttributeOperator.Meetable _ _))

/-- A test accepts the value that it names if and only if it can be passed. -/
theorem accepts_value_iff {test : AttributeTest} :
    test.accepts test.value = true ↔ test.Meetable := by
  rw [accepts, Meetable]
  split
  · rw [toList_lower, AttributeOperator.holds_self_iff, AttributeOperator.meetable_map_toLower]
  · exact AttributeOperator.holds_self_iff

theorem meetable_of_equals {test : AttributeTest} (equality : test.operator = .equals) :
    test.Meetable := by
  rw [Meetable, equality]
  trivial

end AttributeTest

end SelectorTree
