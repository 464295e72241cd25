import SelectorTree.Proofs.Selector.Matching
import SelectorTree.Proofs.Synthesis.Descriptors
import SelectorTree.Proofs.Synthesis.Sides

/-!
# Probing and matching agree

A position is looked up in two ways.  Whoever places an element takes the sibling with an
index from the counted ones; whoever matches a pseudo-class looks for a given sibling among
those that count with it, and asks a formula about the place.  Both find the same sibling.
-/

namespace SelectorTree

open Text

/-- A formula without a step selects its offset alone. -/
theorem Formula.selects_iff_of_constant {formula : Formula} {target : Nat}
    (constant : formula.step = 0) (offset : formula.offset.toInt = target) (index : Nat) :
    formula.selects index = true ↔ index = target := by
  have wide : formula.offset.toInt64.toInt = target := by rw [Int32.toInt_toInt64, offset]
  have small : (target : Int) < 2 ^ 31 := offset ▸ Int32.toInt_lt formula.offset
  have stepZero : formula.step.toInt64 = 0 := by rw [constant]; rfl
  rw [selects]
  split
  · next inRange =>
      have word : (Int64.ofInt index).toInt = index :=
        Int64.toInt_ofInt_of_le (by omega) (by omega)
      simp only [if_pos stepZero]
      rw [beq_iff_eq, Int64.sub_eq_iff_eq_add, Int64.zero_add, ← Int64.toInt_inj, word, wide]
      exact Int.ofNat_inj
  · next beyond =>
      refine iff_of_false Bool.false_ne_true ?_
      omega

namespace Descriptor

/-- A position that is asked for is a formula without a step, with the index as its
offset. -/
theorem positions?_of_positionOf {pseudoClass : PseudoClass} {position : Position}
    (asked : positionOf pseudoClass = .ok position) :
    ∃ formula : Formula, pseudoClass.positions? = some ⟨position.side, position.scope, formula⟩ ∧
      formula.step = 0 ∧ formula.offset.toInt = position.index := by
  rw [positionOf] at asked
  split at asked
  · split at asked
    · cases asked
    · next set found =>
        dsimp only at asked
        split at asked
        · next single =>
            cases asked
            refine ⟨set.formula, found, single.1, ?_⟩
            exact (Int.toNat_of_nonneg (by omega)).symm
        · cases asked
  · cases asked

/-- A compound with one pseudo-class asks for the position of that pseudo-class. -/
theorem positionOf_of_ofCompound {compound : Compound} {combinator : Combinator}
    {descriptor : Descriptor} (built : ofCompound compound combinator = .ok descriptor)
    {pseudoClass : PseudoClass} (single : compound.pseudoClasses = [pseudoClass])
    {position : Position} (asked : descriptor.position? = some position) :
    positionOf pseudoClass = .ok position := by
  obtain ⟨_, position?, -, -, positioned, rfl⟩ := ofCompound_eq_ok_iff.mp built
  cases asked
  rw [single, positionOf?] at positioned
  cases result : positionOf pseudoClass with
  | error reason =>
      rw [result] at positioned
      cases positioned
  | ok place =>
      rw [result] at positioned
      cases positioned
      rfl

end Descriptor

namespace Tree

variable {tree : Tree} {parent id : NodeId} {position : Position} {tag other : String}

/-- Only positions among elements with one tag look at the tag. -/
theorem counts_congr {scope : Scope} (same : scope = .sameTag → sameLetters other tag = true) :
    tree.counts scope other = tree.counts scope tag := by
  funext id
  cases scope with
  | anyTag => rfl
  | sameTag =>
      have lowered : other.toList.map Char.toLower = tag.toList.map Char.toLower :=
        beq_iff_eq.mp (same rfl)
      simp only [counts, sameLetters, lowered]

/-- A probe finds a sibling if and only if a search for the sibling ends at the index. -/
theorem probe_eq_some_iff_idxOf? (distinct : (tree.siblingsAt parent position tag).Nodup) :
    tree.probe parent position tag = some id ↔
      ∃ index, (tree.siblingsAt parent position tag).idxOf? id = some index ∧
        index + 1 = position.index := by
  rw [probe]
  split
  · next zero => simp [zero]
  · next nonzero =>
      constructor
      · intro found
        have member := List.mem_of_getElem? found
        obtain ⟨inside, same⟩ := List.getElem?_eq_some_iff.mp found
        refine ⟨position.index - 1, List.idxOf?_eq_some_iff.mpr ⟨inside, same, ?_⟩, by omega⟩
        intro early before atEarly
        have equal := (distinct.getElem_inj_iff).mp (atEarly.trans same.symm)
        omega
      · rintro ⟨index, searched, counted⟩
        obtain ⟨inside, same, -⟩ := List.idxOf?_eq_some_iff.mp searched
        have place : position.index - 1 = index := by omega
        rw [place]
        exact List.getElem?_eq_some_iff.mpr ⟨inside, same⟩

theorem Consistent.nodup_siblingsAt (consistent : tree.Consistent) (parent : NodeId)
    (position : Position) (tag : String) : (tree.siblingsAt parent position tag).Nodup := by
  rw [siblingsAt, countedChildren_eq, Side.nodup_orient]
  exact ((consistent.nodup_children parent).filter _).filter _

end Tree

/-- A pseudo-class by itself matches the elements that it accepts. -/
theorem Compound.selects_pseudoClass {tree : Tree} {id : NodeId} {data : Element}
    (found : tree.element? id = some data) (pseudoClass : PseudoClass) :
    ((ofType? none).add (.pseudoClass pseudoClass)).selects tree id =
      pseudoClass.accepts tree id data := by
  simp [selects, found, accepts, ofType?, add]

/-- The element that is probed at a position is the one that the pseudo-class of the position
matches, whatever other children its parent has. -/
theorem probe_eq_some_iff_selects {tree : Tree} (consistent : tree.Consistent)
    {compound : Compound} {combinator : Combinator} {descriptor : Descriptor}
    (built : Descriptor.ofCompound compound combinator = .ok descriptor)
    {pseudoClass : PseudoClass} (single : compound.pseudoClasses = [pseudoClass])
    {position : Position} (asked : descriptor.position? = some position)
    {parent id : NodeId} (listed : id ∈ tree.elementChildren parent)
    {data : Element} (found : tree.element? id = some data)
    {tag : String} (tagged : position.scope = .sameTag → sameLetters data.tag tag = true) :
    tree.probe parent position tag = some id ↔
      ((Compound.ofType? none).add (.pseudoClass pseudoClass)).selects tree id = true := by
  obtain ⟨formula, positions, constant, offset⟩ :=
    Descriptor.positions?_of_positionOf (Descriptor.positionOf_of_ofCompound built single asked)
  have attached : tree.parent id = some parent :=
    consistent.parent_of_mem (List.mem_filter.mp listed).1
  have sameSiblings : tree.countedChildren parent position.side position.scope data.tag =
      tree.siblingsAt parent position tag := by
    rw [Tree.siblingsAt, Tree.countedChildren_eq, Tree.countedChildren_eq,
      Tree.counts_congr tagged]
  rw [Tree.probe_eq_some_iff_idxOf? (consistent.nodup_siblingsAt parent position tag),
    Compound.selects_pseudoClass found, PseudoClass.accepts, positions, Option.any_some, attached,
    Option.any_some, sameSiblings, Option.any_eq_true]
  refine exists_congr fun index => and_congr_right fun _ => ?_
  exact (Formula.selects_iff_of_constant constant offset (index + 1)).symm

/-- The pseudo-class `:nth-last-of-type(1)`. -/
def lastOfType : PseudoClass := ⟨"nth-last-of-type", some (.formula ⟨0, 1⟩)⟩

/-- In `<ul><li></li>text<b></b></ul>` the last `b` is probed for the tag `B` as it is
matched. -/
theorem probe_lastOfType :
    (synthesize .standard noteRules).tree.probe 2 ⟨.finish, .sameTag, 1⟩ "B" = some 5 ∧
      ((Compound.ofType? none).add (.pseudoClass lastOfType)).selects
        (synthesize .standard noteRules).tree 5 = true := by
  have consistent : (synthesize .standard noteRules).tree.Consistent :=
    (Builder.sound_ofRules .standard noteRules).linked.consistent
  have built : Descriptor.ofCompound ((Compound.ofType? none).add (.pseudoClass lastOfType))
      .child = .ok ⟨.ofTag "div", .child, some ⟨.finish, .sameTag, 1⟩⟩ := by decide
  have probed : (synthesize .standard noteRules).tree.probe 2 ⟨.finish, .sameTag, 1⟩ "B" =
      some 5 := by decide
  have found : (synthesize .standard noteRules).tree.element? 5 = some (.ofTag "b") := by decide
  refine ⟨probed, ?_⟩
  exact (probe_eq_some_iff_selects consistent built rfl rfl (by decide) found
    fun _ => by decide).mp probed

end SelectorTree
