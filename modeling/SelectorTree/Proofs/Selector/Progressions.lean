import Mathlib.Algebra.Group.Nat.Defs
import SelectorTree.Selector.Formula

/-!
# The positions that a formula selects

A formula `An+B` selects the positions of the form `A * n + B`.  One remainder and one quotient,
rounded toward zero, decide whether a position has that form.  The words of 64 bits in which they
are worked out hold the distance, the remainder and the quotient as they are, as long as the
position leaves room for an offset of 32 bits.
-/

namespace SelectorTree.Formula

variable {formula : Formula} {index : Nat} {value distance step : Int}

/-! ## Steps that may fail -/

/-- A number, if a word of 64 bits holds it. -/
def fits? (value : Int) : Option Int :=
  if -9223372036854775808 ≤ value ∧ value < 9223372036854775808 then some value else none

/-- The quotient rounded toward zero; it can be missing and it can be too large. -/
def quotient? (dividend divisor : Int) : Option Int :=
  if divisor = 0 then none else fits? (dividend.tdiv divisor)

/-- The remainder to the quotient; it is missing where the quotient is. -/
def remainder? (dividend divisor : Int) : Option Int :=
  (quotient? dividend divisor).map fun _ => dividend.tmod divisor

/-- Whether a formula selects a position, worked out in numbers of any size.  There is no answer
if a step on the way has none, or one that is too large for its word. -/
def selectsChecked? (formula : Formula) (index : Nat) : Option Bool :=
  if index < 9223372036854775808 then
    (fits? (index - formula.offset.toInt)).bind fun distance =>
      if formula.step = 0 then some (distance == 0)
      else
        (remainder? distance formula.step.toInt).bind fun remainder =>
          if remainder = 0 then
            (quotient? distance formula.step.toInt).map fun quotient => decide (0 ≤ quotient)
          else some false
  else some false

theorem fits?_of_bounds (low : -9223372036854775808 ≤ value) (high : value < 9223372036854775808) :
    fits? value = some value :=
  if_pos ⟨low, high⟩

/-- Dividing by a word leads away from zero only from the least word, divided by minus one. -/
theorem quotient?_of_bounds (moves : step ≠ 0) (low : -9223372036854775808 < distance)
    (high : distance < 9223372036854775808) :
    quotient? distance step = some (distance.tdiv step) := by
  have shrinks := Int.natAbs_tdiv_le_natAbs distance step
  rw [quotient?, if_neg moves]
  exact fits?_of_bounds (by omega) (by omega)

/-! ## Positions and multiples of the step -/

/-- The remainder and the sign of the quotient tell whether a distance is reached by steps that
all go in one direction. -/
theorem tmod_eq_zero_and_tdiv_nonneg_iff (moves : step ≠ 0) :
    distance.tmod step = 0 ∧ 0 ≤ distance.tdiv step ↔ ∃ n : Nat, step * n = distance := by
  constructor
  · rintro ⟨divides, forward⟩
    refine ⟨(distance.tdiv step).toNat, ?_⟩
    rw [Int.toNat_of_nonneg forward, Int.mul_tdiv_cancel' (Int.dvd_of_tmod_eq_zero divides)]
  · rintro ⟨n, rfl⟩
    rw [Int.mul_tdiv_cancel_left _ moves]
    exact ⟨Int.mul_tmod_right step n, Int.natCast_nonneg n⟩

theorem step_toInt_eq_zero_iff : formula.step.toInt = 0 ↔ formula.step = 0 := by
  rw [← Int32.toInt_inj, Int32.toInt_zero]

/-- Without steps only the offset itself is reached. -/
theorem exists_step_iff : (∃ n : Nat, formula.step.toInt * n = distance) ↔
    if formula.step = 0 then distance = 0
    else distance.tmod formula.step.toInt = 0 ∧ 0 ≤ distance.tdiv formula.step.toInt := by
  split
  · next stays =>
      rw [step_toInt_eq_zero_iff.mpr stays]
      simp [eq_comm]
  · next moves =>
      rw [tmod_eq_zero_and_tdiv_nonneg_iff (mt step_toInt_eq_zero_iff.mp moves)]

/-! ## Words of 64 bits -/

section near

variable (formula) (near : index ≤ 2 ^ 63 - 1 - 2 ^ 31)
include near

/-- The distance stays off the least word, the one that has no negation. -/
theorem distance_bounds :
    -9223372036854775808 < index - formula.offset.toInt ∧
      index - formula.offset.toInt < 9223372036854775808 := by
  have low := formula.offset.le_toInt
  have high := formula.offset.toInt_lt
  omega

theorem toInt_distance :
    (Int64.ofInt index - formula.offset.toInt64).toInt = index - formula.offset.toInt := by
  obtain ⟨low, high⟩ := distance_bounds formula near
  have word : Int64.ofInt index - formula.offset.toInt64 =
      Int64.ofInt (index - formula.offset.toInt) := by
    rw [Int64.ofInt_sub, ← Int32.toInt_toInt64, Int64.ofInt_toInt]
  rw [word]
  exact Int64.toInt_ofInt_of_le (Int.le_of_lt low) high

theorem distance_ne_minValue :
    Int64.ofInt index - formula.offset.toInt64 ≠ Int64.minValue := by
  obtain ⟨low, -⟩ := distance_bounds formula near
  intro least
  have value := toInt_distance formula near
  rw [least, Int64.toInt_minValue] at value
  omega

/-- In words a position is tested as it is in numbers of any size. -/
theorem selects_iff_of_near : formula.selects index = true ↔
    if formula.step = 0 then index - formula.offset.toInt = 0
    else (index - formula.offset.toInt).tmod formula.step.toInt = 0 ∧
      0 ≤ (index - formula.offset.toInt).tdiv formula.step.toInt := by
  have inRange : index < 9223372036854775808 := by omega
  have distance := toInt_distance formula near
  have stays : formula.step.toInt64 = 0 ↔ formula.step = 0 := by
    rw [← Int64.toInt_inj, Int32.toInt_toInt64, Int64.toInt_zero, step_toInt_eq_zero_iff]
  simp only [selects, if_pos inRange, stays]
  split
  · rw [beq_iff_eq, ← Int64.toInt_inj, distance, Int64.toInt_zero]
  · rw [Bool.and_eq_true, beq_iff_eq, decide_eq_true_eq, ← Int64.toInt_inj,
      Int64.le_iff_toInt_le, Int64.toInt_mod,
      Int64.toInt_div_of_ne_left _ _ (distance_ne_minValue formula near), distance,
      Int32.toInt_toInt64, Int64.toInt_zero]

/-- No step on the way overflows or divides by zero. -/
theorem selectsChecked?_of_near :
    formula.selectsChecked? index = some (formula.selects index) := by
  obtain ⟨low, high⟩ := distance_bounds formula near
  have inRange : index < 9223372036854775808 := by omega
  have words := selects_iff_of_near formula near
  rw [selectsChecked?, if_pos inRange, fits?_of_bounds (Int.le_of_lt low) high, Option.bind_some]
  split
  · next stays =>
      rw [if_pos stays] at words
      rw [Option.some_inj, Bool.eq_iff_iff, beq_iff_eq, words]
  · next moves =>
      have divides := quotient?_of_bounds (mt step_toInt_eq_zero_iff.mp moves) low high
      rw [if_neg moves] at words
      rw [remainder?, divides, Option.map_some, Option.bind_some, Option.map_some]
      split
      · next even =>
          rw [Option.some_inj, Bool.eq_iff_iff, decide_eq_true_eq, words]
          exact (and_iff_right even).symm
      · next odd =>
          rw [Option.some_inj, eq_comm, ← Bool.not_eq_true, words]
          exact fun both => odd both.1

end near

/-- A formula selects the values of `A * n + B`, and to find that out no word overflows and
nothing is divided by zero. -/
theorem selects_iff_exists (formula : Formula) (index : Nat)
    (near : index ≤ 2 ^ 63 - 1 - 2 ^ 31) :
    formula.selectsChecked? index = some (formula.selects index) ∧
      (formula.selects index = true ↔
        ∃ n : Nat, formula.step.toInt * n + formula.offset.toInt = index) := by
  refine ⟨selectsChecked?_of_near formula near, ?_⟩
  rw [selects_iff_of_near formula near, ← exists_step_iff]
  exact exists_congr fun n => by omega

/-- The greatest distance that there is: from the least offset to the last position that leaves
room for it, in steps of seven. -/
theorem selects_farthest :
    2 ^ 63 - 1 - 2 ^ 31 ≤ 2 ^ 63 - 1 - 2 ^ 31 ∧
      selectsChecked? ⟨7, -2147483648⟩ (2 ^ 63 - 1 - 2 ^ 31) = some true ∧
      ∃ n : Nat, (7 : Int32).toInt * n + (-2147483648 : Int32).toInt =
        ((2 ^ 63 - 1 - 2 ^ 31 : Nat) : Int) := by
  have selected : selects ⟨7, -2147483648⟩ (2 ^ 63 - 1 - 2 ^ 31) = true := by decide
  obtain ⟨checked, multiple⟩ :=
    selects_iff_exists ⟨7, -2147483648⟩ (2 ^ 63 - 1 - 2 ^ 31) (Nat.le_refl _)
  exact ⟨Nat.le_refl _, checked.trans (congrArg some selected), multiple.mp selected⟩

end SelectorTree.Formula
