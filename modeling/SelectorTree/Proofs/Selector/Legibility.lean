import SelectorTree.Proofs.Selector.Arguments
import SelectorTree.Proofs.Selector.Names
import SelectorTree.Proofs.Text.Plain

/-!
# What can be read without backslashes

A selector that is read from a text without backslashes has plain names and values: a name
holds name characters only, the name of a pseudo-class is in lower case, an argument that is no
formula closes what it opens and has no blanks at its ends.  Such selectors are legible.
-/

namespace SelectorTree

open Text

variable {chars rest : List Char} {name : String}

/-- A name that is spelled as it stands where an identifier begins. -/
structure IsIdentifier (name : String) : Prop where
  named : ∀ c ∈ name.toList, isNameChar c = true
  starts : startsIdentifier name.toList = true

/-- An argument that is read back from its text. -/
def PseudoArgument.Legible : PseudoArgument → Prop
  | .formula _ => True
  | .raw text => PseudoClass.Balanced 0 text.toList ∧ trimChars text.toList = text.toList ∧
      Formula.ofText? text = none

structure PseudoClass.Legible (selector : PseudoClass) : Prop where
  name : IsIdentifier selector.name
  lowered : lower selector.name = selector.name
  double : singleColonElements.contains selector.name = false
  argument : ∀ argument ∈ selector.argument?, argument.Legible

structure AttributeSelector.Legible (selector : AttributeSelector) : Prop where
  name : IsIdentifier selector.name
  shown : skipBlanks selector.name.toList = selector.name.toList
  value : ∀ test ∈ selector.test?, Plain test.value.toList

/-- A condition whose names and values are spelled as they stand; an id may begin like a
number. -/
def SimpleSelector.Legible : SimpleSelector → Prop
  | .id name => name ≠ "" ∧ ∀ c ∈ name.toList, isNameChar c = true
  | .className name => IsIdentifier name
  | .attribute selector => selector.Legible
  | .pseudoClass selector => selector.Legible
  | .pseudoElement name => IsIdentifier name ∧ lower name = name

/-- The conditions of a compound in the order in which they are written. -/
def Compound.conditions (compound : Compound) : List SimpleSelector :=
  compound.ids.map .id ++ compound.classes.map .className ++
    compound.attributes.map .attribute ++ compound.pseudoClasses.map .pseudoClass ++
    compound.pseudoElement?.toList.map .pseudoElement

structure Compound.Legible (compound : Compound) : Prop where
  type : ∀ name, compound.type? = some (.name name) →
    IsIdentifier name ∧ skipBlanks name.toList = name.toList
  conditions : ∀ condition ∈ compound.conditions, condition.Legible
  something : compound.type? = none → compound.conditions ≠ []

/-! ## Names -/

theorem isIdentifier_of_plain (plain : Plain chars) (starts : startsIdentifier chars = true) :
    IsIdentifier (String.ofList (readName isBlank chars).1) := by
  rw [readName_of_plain plain]
  refine ⟨fun c member => ?_, ?_⟩
  · rw [String.toList_ofList] at member
    exact List.mem_takeWhile_imp member
  · have front : Plain (chars.takeWhile isNameChar) :=
      plain.sublist (List.takeWhile_sublist isNameChar)
    have same := startsIdentifier_append_of_plain front (stopsName_dropWhile plain)
    rw [List.takeWhile_append_dropWhile, starts] at same
    rw [String.toList_ofList]
    exact same.symm

theorem skipBlanks_eq_self_iff :
    skipBlanks chars = chars ↔ ∀ first ∈ chars.head?, isBlank first = false := by
  cases chars with
  | nil => simp [skipBlanks]
  | cons c chars =>
      cases blank : isBlank c with
      | true =>
          have shorter : (skipBlanks (c :: chars)).length ≤ chars.length := by
            rw [skipBlanks, List.dropWhile_cons, if_pos blank]
            exact (skipBlanks_suffix chars).length_le
          refine iff_of_false (fun same => ?_) (by simp [blank])
          rw [same] at shorter
          exact absurd shorter (Nat.not_succ_le_self _)
      | false => simp [skipBlanks, blank]

/-- A name that is read behind blanks does not begin with one. -/
theorem skipBlanks_readName (plain : Plain chars) (shown : skipBlanks chars = chars) :
    skipBlanks (String.ofList (readName isBlank chars).1).toList =
      (String.ofList (readName isBlank chars).1).toList := by
  rw [skipBlanks_eq_self_iff] at shown ⊢
  rw [String.toList_ofList, readName_of_plain plain, List.head?_takeWhile]
  intro first head
  exact shown first (Option.mem_filter_iff.mp head).1

theorem IsIdentifier.plain (identifier : IsIdentifier name) : Plain name.toList :=
  plain_of_named identifier.named

theorem Text.startsIdentifier_toLower (named : ∀ c ∈ chars, isNameChar c = true) :
    startsIdentifier (chars.map Char.toLower) = startsIdentifier chars := by
  have lowered : ∀ c ∈ chars.map Char.toLower, isNameChar c = true := by
    simpa using fun c member => (isNameChar_toLower c).trans (named c member)
  have hyphen : ∀ c : Char, (c.toLower == '-') = (c == '-') := beq_toLower rfl
  cases chars with
  | nil => rfl
  | cons c chars =>
      obtain ⟨-, others⟩ := List.forall_mem_cons.mp named
      rw [List.map_cons] at lowered
      obtain ⟨-, othersLowered⟩ := List.forall_mem_cons.mp lowered
      rw [List.map_cons, startsIdentifier, startsIdentifier,
        not_startsEscape_of_named named, not_startsEscape_of_named lowered,
        not_startsEscape_of_named others, not_startsEscape_of_named othersLowered, hyphen,
        isNameStart_toLower]
      cases chars with
      | nil => rfl
      | cons second chars =>
          simp only [List.map_cons, List.head?_cons, Option.any_some, isNameStart_toLower, hyphen]

theorem IsIdentifier.lower (identifier : IsIdentifier name) : IsIdentifier (lower name) where
  named := by
    rw [toList_lower]
    simpa using fun c member => (isNameChar_toLower c).trans (identifier.named c member)
  starts := by
    rw [toList_lower, startsIdentifier_toLower identifier.named]
    exact identifier.starts

/-! ## Arguments -/

theorem Text.trimChars_idempotent (chars : List Char) :
    trimChars (trimChars chars) = trimChars chars := by
  have twice : dropTrailing isBlank (dropTrailing isBlank (chars.dropWhile isBlank)) =
      dropTrailing isBlank (chars.dropWhile isBlank) := List.rdropWhile_idempotent _ _
  have stop := List.head?_dropWhile_not isBlank chars
  cases shown : chars.dropWhile isBlank with
  | nil => simp [trimChars, shown, dropTrailing]
  | cons c others =>
      rw [shown] at stop twice
      have visible : isBlank c = false := stop
      rw [dropTrailing_cons_of_not_blank visible] at twice
      have trimmed : trimChars chars = c :: dropTrailing isBlank others := by
        rw [trimChars, shown, dropTrailing_cons_of_not_blank visible]
      rw [trimmed, trimChars, List.dropWhile_cons, if_neg (Bool.eq_false_iff.mp visible), twice]

namespace PseudoClass

theorem legible_argumentOf {raw : List Char} (balanced : Balanced 0 raw) :
    (argumentOf (String.ofList (trimChars raw))).Legible := by
  unfold argumentOf
  split
  · trivial
  · next noFormula =>
      refine ⟨?_, ?_, noFormula⟩
      · rw [String.toList_ofList]
        exact balanced.trim
      · rw [String.toList_ofList]
        exact trimChars_idempotent raw

theorem legible_of_readArgument? {text? : Option String} (plain : Plain chars)
    (read : readArgument? chars = .ok (text?, rest)) :
    ∀ argument ∈ text?.map argumentOf, argument.Legible := by
  unfold readArgument? at read
  split at read
  · obtain ⟨raw, rawRead, equal⟩ := map_eq_ok read
    cases equal
    have balanced := (balanced_of_readArgument (plain_cons.mp plain).2 rawRead).1
    rintro _ ⟨⟩
    exact legible_argumentOf balanced
  · cases read
    simp

theorem legible_of_read {condition : SimpleSelector} (plain : Plain chars)
    (read : PseudoClass.read chars = .ok (condition, rest)) : condition.Legible := by
  simp only [PseudoClass.read] at read
  have inside : Plain (splitColon chars).2 := plain.suffix (splitColon_suffix chars)
  split at read
  · next starts =>
      have name := (isIdentifier_of_plain inside starts).lower
      obtain ⟨argument, argumentRead, read⟩ := bind_eq_ok read
      split at read
      · cases read
        exact ⟨name, lower_lower _⟩
      · next double =>
          cases read
          rw [Bool.or_eq_true, not_or] at double
          exact {
            name
            lowered := lower_lower _
            double := Bool.eq_false_iff.mpr double.2
            argument := legible_of_readArgument? (inside.suffix (readName_suffix isBlank _))
              argumentRead }
  · cases read

end PseudoClass

/-! ## Attributes -/

namespace AttributeSelector

theorem plain_of_readValue {value : List Char} (plain : Plain chars)
    (read : readValue chars = .ok (value, rest)) : Plain value := by
  cases chars with
  | nil => cases read
  | cons c chars =>
      rw [readValue] at read
      split at read
      · rw [readString] at read
        split at read
        · cases read
          have others := (plain_cons.mp plain).2
          exact others.sublist (sublist_of_readQuoted others rfl)
        · cases read
      · split at read
        · rw [readName_of_plain plain] at read
          cases read
          exact plain.sublist (List.takeWhile_sublist isNameChar)
        · cases read

theorem plain_of_readTest {operator : AttributeOperator} {test : AttributeTest}
    (plain : Plain chars) (read : readTest operator chars = .ok (test, rest)) :
    Plain test.value.toList := by
  obtain ⟨value, valueRead, read⟩ := bind_eq_ok read
  obtain ⟨closing, closingRead, read⟩ := bind_eq_ok read
  cases read
  rw [String.toList_ofList]
  exact plain_of_readValue (plain.suffix (skipBlanks_suffix chars)) valueRead

theorem legible_of_read {selector : AttributeSelector} (plain : Plain chars)
    (read : AttributeSelector.read chars = .ok (selector, rest)) : selector.Legible := by
  simp only [AttributeSelector.read] at read
  have inside : Plain (skipBlanks chars) := plain.suffix (skipBlanks_suffix chars)
  split at read
  · next starts =>
      have name := isIdentifier_of_plain inside starts
      have shown := skipBlanks_readName inside skipBlanks_idempotent
      obtain ⟨operator, operatorRead, read⟩ := bind_eq_ok read
      have later : Plain operator.2 :=
        inside.suffix (((readOperator_suffix operatorRead).trans (skipBlanks_suffix _)).trans
          (readName_suffix isBlank _))
      split at read
      · cases read
        exact ⟨name, shown, by simp⟩
      · obtain ⟨test, testRead, read⟩ := bind_eq_ok read
        cases read
        exact ⟨name, shown, by simpa using plain_of_readTest later testRead⟩
  · split at read <;> cases read

end AttributeSelector

/-! ## Conditions and compounds -/

theorem SimpleSelector.legible_of_read {c : Char} {condition : SimpleSelector}
    (plain : Plain chars) (read : SimpleSelector.read c chars = .ok (condition, rest)) :
    condition.Legible := by
  unfold SimpleSelector.read at read
  split at read
  · simp only [readId] at read
    split at read
    · next starts =>
        cases read
        refine ⟨ofList_readName_ne_empty isBlank starts, fun c member => ?_⟩
        rw [readName_of_plain plain, String.toList_ofList] at member
        exact List.mem_takeWhile_imp member
    · cases read
  split at read
  · simp only [readClass] at read
    split at read
    · next starts =>
        cases read
        exact isIdentifier_of_plain plain starts
    · cases read
  split at read
  · obtain ⟨selector, selectorRead, equal⟩ := map_eq_ok read
    cases equal
    exact AttributeSelector.legible_of_read plain selectorRead
  · exact PseudoClass.legible_of_read plain read

namespace Compound

variable {compound result : Compound} {condition : SimpleSelector}

theorem of_mem_conditions_add {other : SimpleSelector}
    (member : other ∈ (compound.add condition).conditions) :
    other ∈ compound.conditions ∨ other = condition := by
  cases condition <;> simp only [add, conditions, List.mem_append, List.map_append] at member ⊢ <;>
    grind

theorem mem_conditions_add : condition ∈ (compound.add condition).conditions := by
  cases condition <;> simp [add, conditions]

theorem legible_of_readConditions (plain : Plain chars)
    (legible : ∀ condition ∈ compound.conditions, condition.Legible)
    (read : readConditions compound chars = .ok (result, rest)) :
    ∀ condition ∈ result.conditions, condition.Legible := by
  fun_induction readConditions compound chars with
  | case1 =>
      cases read
      exact legible
  | case2 => cases read
  | case3 compound c chars _ condition behind conditionRead ih =>
      have others := (plain_cons.mp plain).2
      refine ih (others.suffix (SimpleSelector.read_suffix conditionRead)) ?_ read
      intro other member
      rcases of_mem_conditions_add member with before | rfl
      · exact legible other before
      · exact SimpleSelector.legible_of_read others conditionRead
  | case4 =>
      cases read
      exact legible

/-- Unless nothing was read, there is a condition. -/
theorem conditions_of_readConditions
    (read : readConditions compound chars = .ok (result, rest)) :
    result = compound ∧ rest = chars ∨ result.conditions ≠ [] := by
  fun_induction readConditions compound chars with
  | case1 =>
      cases read
      exact Or.inl ⟨rfl, rfl⟩
  | case2 => cases read
  | case3 compound c chars _ condition behind conditionRead ih =>
      rcases ih read with ⟨rfl, -⟩ | some
      · exact Or.inr (List.ne_nil_of_mem mem_conditions_add)
      · exact Or.inr some
  | case4 =>
      cases read
      exact Or.inl ⟨rfl, rfl⟩

theorem type?_of_readConditions (read : readConditions compound chars = .ok (result, rest)) :
    result.type? = compound.type? := by
  fun_induction readConditions compound chars with
  | case1 =>
      cases read
      rfl
  | case2 => cases read
  | case3 compound c chars _ condition behind conditionRead ih =>
      rw [ih read]
      cases condition <;> rfl
  | case4 =>
      cases read
      rfl

theorem readType?_of_none (untyped : (readType? chars).1 = none) : (readType? chars).2 = chars := by
  unfold readType? at untyped ⊢
  split
  · cases untyped
  · split
    · next starts =>
        simp [starts] at untyped
    · rfl

theorem legible_of_readType? {name : String} (plain : Plain chars)
    (shown : skipBlanks chars = chars) (type : (readType? chars).1 = some (.name name)) :
    IsIdentifier name ∧ skipBlanks name.toList = name.toList := by
  unfold readType? at type
  split at type
  · cases type
  · split at type
    · next starts =>
        cases type
        exact ⟨isIdentifier_of_plain plain starts, skipBlanks_readName plain shown⟩
    · cases type

theorem legible_of_read (plain : Plain chars) (shown : skipBlanks chars = chars)
    (begins : starts chars = true) (read : Compound.read chars = .ok (compound, rest)) :
    compound.Legible where
  type name type := by
    rw [type?_of_readConditions read] at type
    exact legible_of_readType? plain shown type
  conditions :=
    legible_of_readConditions (plain.suffix (readType?_suffix chars))
      (by simp [conditions, ofType?]) read
  something type := by
    rcases conditions_of_readConditions read with ⟨rfl, untouched⟩ | some
    · have whole := readType?_of_none type
      have shorter := read_length_lt begins read
      rw [untouched, whole] at shorter
      exact absurd shorter (Nat.lt_irrefl _)
    · exact some

end Compound

/-- All compounds that are read from a text without backslashes are legible. -/
theorem SelectorList.legible_of_readAll {selectors : SelectorList} (plain : Plain chars)
    (read : readAll chars = .ok selectors) :
    ∀ selector ∈ selectors, selector.All Compound.Legible :=
  all_of_readAll (fun _ _ _ within shown begins compoundRead =>
    Compound.legible_of_read (plain.suffix within) shown begins compoundRead) read

end SelectorTree
