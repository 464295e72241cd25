import SelectorTree.Proofs.Text.Trimming
import SelectorTree.Selector.Parser

/-!
# What the selector reader does at one class

A class is a point and a name, and the classes of a compound are kept in the order in
which they are read.  So the first class of the first compound can be told from the
beginning of the text, whatever the reader makes of the rest.
-/

namespace SelectorTree

open Text

variable {chars rest behind : List Char} {compound result : Compound} {name : List Char}

/-! ## Compounds -/

namespace Compound

/-- The compound of one class. -/
def ofClass (name : String) : Compound := (ofType? none).add (.className name)

theorem readConditions_nil : readConditions compound [] = .ok (compound, []) := by
  rw [readConditions]

theorem readConditions_other {c : Char} (other : SimpleSelector.starts c = false) :
    readConditions compound (c :: rest) = .ok (compound, c :: rest) := by
  rw [readConditions, if_neg (Bool.eq_false_iff.mp other)]

/-- Conditions are read one after the other. -/
theorem readConditions_of_read {c : Char} {condition : SimpleSelector} {behind : List Char}
    (begins : SimpleSelector.starts c = true)
    (read : SimpleSelector.read c rest = .ok (condition, behind)) :
    readConditions compound (c :: rest) = readConditions (compound.add condition) behind := by
  rw [readConditions.eq_def]
  simp only [begins, if_true]
  split
  · next failed =>
      rw [read] at failed
      cases failed
  · next found =>
      rw [read] at found
      cases found
      rfl

theorem readConditions_class (starts : startsIdentifier chars = true) :
    readConditions compound ('.' :: chars) =
      readConditions (compound.add (.className (String.ofList (readName isBlank chars).1)))
        (readName isBlank chars).2 := by
  have condition : SimpleSelector.read '.' chars =
      .ok (.className (String.ofList (readName isBlank chars).1), (readName isBlank chars).2) := by
    simp [SimpleSelector.read, SimpleSelector.readClass, starts]
  exact readConditions_of_read rfl condition

/-- Where a condition begins one is read, and the others behind it. -/
theorem exists_read_of_readConditions {c : Char} (begins : SimpleSelector.starts c = true)
    (read : readConditions compound (c :: chars) = .ok (result, rest)) :
    ∃ condition behind, SimpleSelector.read c chars = .ok (condition, behind) ∧
      readConditions (compound.add condition) behind = .ok (result, rest) := by
  rw [readConditions.eq_def] at read
  simp only [begins, if_true] at read
  split at read
  · cases read
  · next found => exact ⟨_, _, found, read⟩

theorem startsIdentifier_of_readConditions
    (read : readConditions compound ('.' :: chars) = .ok (result, rest)) :
    startsIdentifier chars = true := by
  rw [← Bool.not_eq_false]
  intro unnamed
  have failed : SimpleSelector.read '.' chars = .error (.expectedIdentifier '.') := by
    simp [SimpleSelector.read, SimpleSelector.readClass, unnamed]
  obtain ⟨_, _, condition, -⟩ := exists_read_of_readConditions rfl read
  rw [failed] at condition
  cases condition

theorem classes_prefix_add (condition : SimpleSelector) :
    compound.classes <+: (compound.add condition).classes := by
  cases condition with
  | className name => exact List.prefix_append _ _
  | _ => exact List.prefix_rfl

/-- What conditions only add to is kept while further conditions are read. -/
theorem prefix_of_readConditions {kind : Type} {view : Compound → List kind}
    (grows : ∀ compound condition, view compound <+: view (compound.add condition))
    (read : readConditions compound chars = .ok (result, rest)) :
    view compound <+: view result := by
  fun_induction readConditions compound chars with
  | case1 =>
      cases read
      exact List.prefix_rfl
  | case2 => cases read
  | case3 compound c chars _ condition behind conditionRead ih =>
      exact (grows compound condition).trans (ih read)
  | case4 =>
      cases read
      exact List.prefix_rfl

theorem classes_prefix_of_readConditions
    (read : readConditions compound chars = .ok (result, rest)) :
    compound.classes <+: result.classes :=
  prefix_of_readConditions (fun _ => classes_prefix_add) read

/-- A compound that begins with a point has the name behind it as its first class. -/
theorem classes_of_read (read : Compound.read ('.' :: chars) = .ok (result, rest)) :
    [String.ofList (readName isBlank chars).1] <+: result.classes := by
  have conditions : readConditions (ofType? none) ('.' :: chars) = .ok (result, rest) := read
  rw [readConditions_class (startsIdentifier_of_readConditions conditions)] at conditions
  exact classes_prefix_of_readConditions conditions

/-- If a second point follows the name, there are at least two classes. -/
theorem two_le_classes_of_read (read : Compound.read ('.' :: chars) = .ok (result, rest))
    (point : (readName isBlank chars).2 = '.' :: behind) : 2 ≤ result.classes.length := by
  have conditions : readConditions (ofType? none) ('.' :: chars) = .ok (result, rest) := read
  rw [readConditions_class (startsIdentifier_of_readConditions conditions), point] at conditions
  rw [readConditions_class (startsIdentifier_of_readConditions conditions)] at conditions
  exact (classes_prefix_of_readConditions conditions).length_le

theorem read_class (starts : startsIdentifier chars = true)
    (named : readName isBlank chars = (name, rest))
    (ends : ∀ next ∈ rest.head?, SimpleSelector.starts next = false) :
    Compound.read ('.' :: chars) = .ok (ofClass (String.ofList name), rest) := by
  have conditions : Compound.read ('.' :: chars) =
      readConditions (ofClass (String.ofList (readName isBlank chars).1))
        (readName isBlank chars).2 := readConditions_class starts
  rw [conditions, named]
  cases rest with
  | nil => exact readConditions_nil
  | cons next rest => exact readConditions_other (ends next rfl)

/-- A name by itself is read as a type. -/
theorem read_type (starts : startsIdentifier chars = true)
    (named : readName isBlank chars = (name, [])) :
    Compound.read chars = .ok (ofType? (some (.name (String.ofList name))), []) := by
  have type : readType? chars = (some (.name (String.ofList name)), []) := by
    unfold readType?
    split
    · next rest =>
        simp [startsIdentifier, isNameStart, startsEscape] at starts
    · rw [if_pos starts, named]
  rw [Compound.read, type]
  exact readConditions_nil

end Compound

/-! ## Alternatives -/

namespace ComplexSelector

variable {outer : List (Combinator × Compound)} {selector : ComplexSelector}

/-- The first compound that is read is the subject, or stands next to what was read
before. -/
theorem exists_of_readFrom (read : readFrom outer chars = .ok (selector, rest)) :
    ∃ compound behind, Compound.read chars = .ok (compound, behind) ∧
      (selector = ⟨compound, outer⟩ ∨
        ∃ inner combinator, selector.outer = inner ++ (combinator, compound) :: outer) := by
  fun_induction readFrom outer chars with
  | case1 => cases read
  | case2 => cases read
  | case3 outer chars begins compound behind compoundRead rest combinatorRead =>
      cases read
      exact ⟨compound, behind, compoundRead, Or.inl rfl⟩
  | case4 outer chars begins compound behind compoundRead combinator rest combinatorRead ih =>
      refine ⟨compound, behind, compoundRead, Or.inr ?_⟩
      obtain ⟨next, _, _, rfl | ⟨inner, _, further⟩⟩ := ih read
      · exact ⟨[], combinator, rfl⟩
      · exact ⟨inner ++ [(_, next)], combinator, by rw [further, List.append_assoc]; rfl⟩
  | case5 => cases read

/-- An alternative without further compounds tells the name behind its point. -/
theorem readName_of_readFrom
    (read : readFrom outer ('.' :: chars) = .ok (⟨.ofClass (String.ofList name), outer⟩, rest)) :
    (readName isBlank chars).1 = name := by
  obtain ⟨compound, behind, compoundRead, alone | ⟨inner, combinator, further⟩⟩ :=
    exists_of_readFrom read
  · cases alone
    have first := Compound.classes_of_read compoundRead
    have same := (List.cons_prefix_cons.mp first).1
    exact String.ofList_injective same
  · have longer := congrArg List.length further
    simp only [List.length_append, List.length_cons] at longer
    omega

/-- The compound of a single class is read from a name that no second point follows. -/
theorem readName_ne_point_of_readFrom {subject : Compound} {combinator : Combinator}
    {label : String}
    (read : readFrom [] ('.' :: chars) = .ok (⟨subject, [(combinator, .ofClass label)]⟩, rest)) :
    (readName isBlank chars).2 ≠ '.' :: behind := by
  intro point
  obtain ⟨compound, behind, compoundRead, alone | ⟨inner, _, further⟩⟩ := exists_of_readFrom read
  · cases alone
  · have two := Compound.two_le_classes_of_read compoundRead point
    have last := congrArg List.getLast? further
    rw [List.getLast?_concat] at last
    cases last
    exact absurd two (Nat.not_succ_le_self 1)

theorem readFrom_of_read (begins : Compound.starts chars = true)
    (compoundRead : Compound.read chars = .ok (compound, behind)) :
    readFrom outer chars =
      match readCombinator behind with
      | .error fault => .error fault
      | .ok (none, rest) => .ok (⟨compound, outer⟩, rest)
      | .ok (some combinator, rest) => readFrom ((combinator, compound) :: outer) rest := by
  rw [readFrom.eq_def, dif_pos begins]
  split
  · next failed =>
      rw [compoundRead] at failed
      cases failed
  · next found =>
      rw [compoundRead] at found
      cases found
      split <;> next combinatorRead => rw [combinatorRead]

theorem readFrom_last (begins : Compound.starts chars = true)
    (compoundRead : Compound.read chars = .ok (compound, [])) :
    readFrom outer chars = .ok (⟨compound, outer⟩, []) :=
  readFrom_of_read begins compoundRead

/-- A space before the point of a class joins a descendant. -/
theorem readFrom_descendant (begins : Compound.starts chars = true)
    (compoundRead : Compound.read chars = .ok (compound, ' ' :: '.' :: rest)) :
    readFrom outer chars = readFrom ((.descendant, compound) :: outer) ('.' :: rest) :=
  readFrom_of_read begins compoundRead

end ComplexSelector

/-! ## Lists -/

namespace SelectorList

variable {selector : ComplexSelector} {others : List ComplexSelector}

theorem readAll_single (read : ComplexSelector.read chars = .ok (selector, [])) :
    readAll chars = .ok [selector] := by
  rw [readAll.eq_def]
  split
  · next failed =>
      rw [read] at failed
      cases failed
  · next found =>
      rw [read] at found
      cases found
      rfl
  · next found =>
      rw [read] at found
      cases found

theorem exists_read_of_readAll (read : readAll chars = .ok (selector :: others)) :
    ∃ rest, ComplexSelector.read chars = .ok (selector, rest) := by
  rw [readAll.eq_def] at read
  split at read
  · cases read
  · next found =>
      cases read
      exact ⟨_, found⟩
  · next first c behind found =>
      split at read
      · cases tail : readAll behind with
        | error fault =>
            rw [tail] at read
            cases read
        | ok list =>
            rw [tail] at read
            cases read
            exact ⟨_, found⟩
      · cases read

theorem ofText_eq_ok_iff {text : String} {selectors : SelectorList} :
    ofText text = .ok selectors ↔ readAll text.toList = .ok selectors := by
  rw [ofText]
  cases readAll text.toList <;> simp [Except.mapError]

end SelectorList

end SelectorTree
