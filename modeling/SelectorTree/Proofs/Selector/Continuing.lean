import SelectorTree.Proofs.Selector.Arguments
import SelectorTree.Proofs.Selector.Names
import SelectorTree.Proofs.Selector.Reading

/-!
# Selectors that go on

Without backslashes, what is read of a selector does not change if more is put behind it, as
long as that is set off by a blank or a comma: a comma ends the alternative, and behind a
blank the reader goes on where it had stopped.
-/

namespace SelectorTree

open Text

variable {chars rest more : List Char}

theorem skipBlanks_append (visible : skipBlanks chars ≠ []) :
    skipBlanks (chars ++ more) = skipBlanks chars ++ more := by
  rw [skipBlanks, List.dropWhile_append, ← skipBlanks]
  simp [visible]

theorem skipBlanks_append_of_blank (blanks : skipBlanks chars = []) :
    skipBlanks (chars ++ more) = skipBlanks more := by
  rw [skipBlanks, List.dropWhile_append, ← skipBlanks, blanks]
  rfl

/-- What does not go on with a condition that stands before it. -/
def StopsCondition (more : List Char) : Prop :=
  ∀ next ∈ more.head?, isNameChar next = false ∧ next ≠ '\\' ∧ next ≠ '('

theorem StopsCondition.stopsName (stops : StopsCondition more) : StopsName more :=
  fun next head => ⟨(stops next head).1, (stops next head).2.1⟩

/-! ## Attributes -/

namespace AttributeSelector

theorem readOperator_append {operator : Option AttributeOperator}
    (read : readOperator chars = .ok (operator, rest)) :
    readOperator (chars ++ more) = .ok (operator, rest ++ more) := by
  unfold readOperator at read
  split at read <;> cases read <;> rfl

theorem readString_append {quote : Char} {value : List Char} (plain : Plain chars)
    (read : readString quote chars = .ok (value, rest)) :
    readString quote (chars ++ more) = .ok (value, rest ++ more) := by
  rw [readString] at read ⊢
  split at read
  · next closed =>
      cases read
      have string : readQuoted .selector quote chars =
          ((readQuoted .selector quote chars).1, .closed,
            (readQuoted .selector quote chars).2.2) := by rw [← closed]
      have longer : readQuoted .selector quote (chars ++ more) = _ :=
        readQuoted_append_of_plain plain string
      simp only [longer, if_true]
  · cases read

theorem readValue_append {value : List Char} (plain : Plain chars) (stops : StopsName more)
    (read : readValue chars = .ok (value, rest)) :
    readValue (chars ++ more) = .ok (value, rest ++ more) := by
  cases chars with
  | nil => cases read
  | cons c chars =>
      rw [readValue] at read
      rw [List.cons_append, readValue]
      split at read
      · next quotes =>
          rw [if_pos quotes]
          exact readString_append (plain_cons.mp plain).2 read
      · next noQuote =>
          rw [if_neg noQuote, ← List.cons_append, startsIdentifier_append_of_plain plain stops]
          split at read
          · next starts =>
              rw [if_pos starts, readName_append_of_plain plain stops]
              rw [readName_of_plain plain] at read
              cases read
              rfl
          · cases read

theorem readFlag_append (visible : (readFlag chars).2 ≠ []) :
    readFlag (chars ++ more) = ((readFlag chars).1, (readFlag chars).2 ++ more) := by
  cases chars with
  | nil => exact absurd rfl visible
  | cons c chars =>
      rw [readFlag] at visible ⊢
      rw [List.cons_append, readFlag]
      split
      · next flag =>
          rw [if_pos flag] at visible
          rw [skipBlanks_append visible]
      · next noFlag =>
          rw [if_neg noFlag] at visible
          split
          · next flag =>
              rw [if_pos flag] at visible
              rw [skipBlanks_append visible]
          · rfl

theorem readClosing_append {value : Unit} (read : readClosing chars = .ok (value, rest)) :
    readClosing (chars ++ more) = .ok (value, rest ++ more) := by
  unfold readClosing at read
  split at read <;> cases read
  rfl

theorem readTest_append {operator : AttributeOperator} {test : AttributeTest}
    (plain : Plain chars) (stops : StopsName more)
    (read : readTest operator chars = .ok (test, rest)) :
    readTest operator (chars ++ more) = .ok (test, rest ++ more) := by
  obtain ⟨value, valueRead, read⟩ := bind_eq_ok read
  obtain ⟨closing, closingRead, read⟩ := bind_eq_ok read
  cases read
  have flagged : (readFlag (skipBlanks value.2)).2 ≠ [] := by
    intro empty
    rw [empty] at closingRead
    cases closingRead
  have behind : skipBlanks value.2 ≠ [] := fun empty => flagged (by rw [empty]; rfl)
  have begins : skipBlanks chars ≠ [] := by
    intro empty
    rw [empty] at valueRead
    cases valueRead
  have longer := readValue_append (plain.suffix (skipBlanks_suffix chars)) stops valueRead
  simp only [readTest, skipBlanks_append begins, longer, bind, Except.bind,
    skipBlanks_append behind, readFlag_append flagged, readClosing_append closingRead]
  rfl

theorem read_append {selector : AttributeSelector} (plain : Plain chars) (stops : StopsName more)
    (read : AttributeSelector.read chars = .ok (selector, rest)) :
    AttributeSelector.read (chars ++ more) = .ok (selector, rest ++ more) := by
  simp only [AttributeSelector.read] at read ⊢
  have inside : Plain (skipBlanks chars) := plain.suffix (skipBlanks_suffix chars)
  split at read
  · next starts =>
      have begins : skipBlanks chars ≠ [] := by
        intro empty
        rw [empty] at starts
        cases starts
      obtain ⟨operator, operatorRead, read⟩ := bind_eq_ok read
      rw [readName_of_plain inside] at operatorRead read
      have behind : skipBlanks ((skipBlanks chars).dropWhile isNameChar) ≠ [] := by
        intro empty
        simp only [empty] at operatorRead
        cases operatorRead
      have later : Plain operator.2 :=
        (inside.suffix (List.dropWhile_suffix isNameChar)).suffix
          ((readOperator_suffix operatorRead).trans (skipBlanks_suffix _))
      rw [skipBlanks_append begins, startsIdentifier_append_of_plain inside stops, if_pos starts,
        readName_append_of_plain inside stops]
      simp only [skipBlanks_append behind, readOperator_append operatorRead, bind, Except.bind]
      split at read
      · cases read
        rfl
      · obtain ⟨test, testRead, read⟩ := bind_eq_ok read
        cases read
        simp only [readTest_append later stops testRead]
        rfl
  · split at read <;> cases read

end AttributeSelector

/-! ## Pseudo-classes and pseudo-elements -/

namespace PseudoClass

theorem readArgument?_of_head (noArgument : chars.head? ≠ some '(') :
    readArgument? chars = .ok (none, chars) := by
  unfold readArgument?
  split
  · exact absurd rfl noArgument
  · rfl

theorem readArgument?_append {argument : Option String} (plain : Plain chars)
    (stops : StopsCondition more) (read : readArgument? chars = .ok (argument, rest)) :
    readArgument? (chars ++ more) = .ok (argument, rest ++ more) := by
  by_cases inside : chars.head? = some '('
  · obtain ⟨behind, rfl⟩ := List.head?_eq_some_iff.mp inside
    obtain ⟨raw, rawRead, equal⟩ := map_eq_ok read
    cases equal
    have longer : readArgument 0 (behind ++ more) = _ :=
      readArgument_append (plain_cons.mp plain).2 rawRead
    simp only [List.cons_append, readArgument?, longer, Except.map]
  · rw [readArgument?_of_head inside] at read
    cases read
    refine readArgument?_of_head fun head => ?_
    cases chars with
    | nil => exact (stops '(' head).2.2 rfl
    | cons c chars => exact inside head

theorem splitColon_append (visible : chars ≠ []) :
    splitColon (chars ++ more) = ((splitColon chars).1, (splitColon chars).2 ++ more) := by
  cases chars with
  | nil => exact absurd rfl visible
  | cons c chars =>
      rw [List.cons_append]
      unfold splitColon
      split
      · next same =>
          cases same
          rfl
      · next noColon =>
          split
          · next same =>
              cases same
              exact absurd rfl (noColon _)
          · rfl

theorem read_append {condition : SimpleSelector} (plain : Plain chars)
    (stops : StopsCondition more) (read : PseudoClass.read chars = .ok (condition, rest)) :
    PseudoClass.read (chars ++ more) = .ok (condition, rest ++ more) := by
  simp only [PseudoClass.read] at read ⊢
  have inside : Plain (splitColon chars).2 := plain.suffix (splitColon_suffix chars)
  split at read
  · next starts =>
      have visible : chars ≠ [] := by
        rintro rfl
        cases starts
      obtain ⟨argument, argumentRead, read⟩ := bind_eq_ok read
      rw [readName_of_plain inside] at argumentRead read
      have behind : Plain ((splitColon chars).2.dropWhile isNameChar) :=
        inside.suffix (List.dropWhile_suffix isNameChar)
      have longer := readArgument?_append behind stops argumentRead
      rw [splitColon_append visible, startsIdentifier_append_of_plain inside stops.stopsName,
        if_pos starts, readName_append_of_plain inside stops.stopsName]
      simp only [longer, bind, Except.bind]
      split at read
      · next element =>
          rw [if_pos element]
          cases read
          rfl
      · next pseudoClass =>
          rw [if_neg pseudoClass]
          cases read
          rfl
  · cases read

end PseudoClass

/-! ## Conditions and compounds -/

theorem SimpleSelector.read_append {c : Char} {condition : SimpleSelector} (plain : Plain chars)
    (stops : StopsCondition more) (read : SimpleSelector.read c chars = .ok (condition, rest)) :
    SimpleSelector.read c (chars ++ more) = .ok (condition, rest ++ more) := by
  unfold SimpleSelector.read at read ⊢
  split at read
  · next hash =>
      rw [if_pos hash]
      simp only [readId, readName_of_plain plain] at read
      split at read
      · next starts =>
          cases read
          have longer : startsName (chars ++ more) = true := by
            cases chars with
            | nil => cases starts
            | cons c chars =>
                rw [startsName_of_plain plain] at starts
                rw [List.cons_append, startsName, Bool.or_eq_true]
                exact Or.inl starts
          simp only [readId, longer, if_true, readName_append_of_plain plain stops.stopsName]
      · cases read
  split at read
  · next noHash point =>
      rw [if_neg noHash, if_pos point]
      simp only [readClass, readName_of_plain plain] at read
      split at read
      · next starts =>
          cases read
          simp only [readClass, startsIdentifier_append_of_plain plain stops.stopsName, starts,
            if_true, readName_append_of_plain plain stops.stopsName]
      · cases read
  split at read
  · next noHash noPoint bracket =>
      rw [if_neg noHash, if_neg noPoint, if_pos bracket]
      obtain ⟨selector, selectorRead, equal⟩ := map_eq_ok read
      cases equal
      rw [AttributeSelector.read_append plain stops.stopsName selectorRead]
      rfl
  · next noHash noPoint noBracket =>
      rw [if_neg noHash, if_neg noPoint, if_neg noBracket]
      exact PseudoClass.read_append plain stops read

/-- What sets off a compound from what follows. -/
def EndsCompound (more : List Char) : Prop :=
  ∀ next ∈ more.head?, next = ' ' ∨ next = ','

theorem endsCompound_space : EndsCompound (' ' :: rest) := by simp [EndsCompound]

theorem EndsCompound.stopsCondition (ends : EndsCompound more) : StopsCondition more := by
  intro next head
  rcases ends next head with rfl | rfl <;> decide

namespace Compound

variable {compound result : Compound}

theorem readConditions_of_endsCompound (ends : EndsCompound more) :
    readConditions compound more = .ok (compound, more) := by
  cases more with
  | nil => exact readConditions_nil
  | cons next more =>
      refine readConditions_other ?_
      rcases ends next rfl with rfl | rfl <;> rfl

theorem readConditions_append (plain : Plain chars) (ends : EndsCompound more)
    (read : readConditions compound chars = .ok (result, rest)) :
    readConditions compound (chars ++ more) = .ok (result, rest ++ more) := by
  fun_induction readConditions compound chars with
  | case1 =>
      cases read
      exact readConditions_of_endsCompound ends
  | case2 => cases read
  | case3 compound c chars begins condition behind conditionRead ih =>
      have others := (plain_cons.mp plain).2
      have longer := SimpleSelector.read_append others ends.stopsCondition conditionRead
      rw [List.cons_append, readConditions_of_read begins longer]
      exact ih (others.suffix (SimpleSelector.read_suffix conditionRead)) read
  | case4 compound c chars other =>
      cases read
      exact readConditions_other (Bool.eq_false_iff.mpr other)

theorem readType?_append (plain : Plain chars) (ends : EndsCompound more) :
    readType? (chars ++ more) = ((readType? chars).1, (readType? chars).2 ++ more) := by
  have stops := ends.stopsCondition.stopsName
  by_cases star : chars.head? = some '*'
  · obtain ⟨behind, rfl⟩ := List.head?_eq_some_iff.mp star
    rfl
  · have typed : ∀ place : List Char, place.head? ≠ some '*' → readType? place =
        if startsIdentifier place then
          (some (.name (String.ofList (readName isBlank place).1)), (readName isBlank place).2)
        else (none, place) := by
      intro place notStar
      unfold readType?
      split
      · exact absurd rfl notStar
      · rfl
    have longer : (chars ++ more).head? ≠ some '*' := by
      cases chars with
      | nil =>
          intro head
          rcases ends '*' head with same | same <;> cases same
      | cons c chars => exact star
    rw [typed _ longer, typed _ star, startsIdentifier_append_of_plain plain stops]
    split
    · rw [readName_append_of_plain plain stops, readName_of_plain plain]
    · rfl

theorem read_append (plain : Plain chars) (ends : EndsCompound more)
    (read : Compound.read chars = .ok (compound, rest)) :
    Compound.read (chars ++ more) = .ok (compound, rest ++ more) := by
  rw [Compound.read, readType?_append plain ends]
  exact readConditions_append (plain.suffix (readType?_suffix chars)) ends read

theorem starts_append (plain : Plain chars) (ends : EndsCompound more)
    (begins : starts chars = true) : starts (chars ++ more) = true := by
  cases chars with
  | nil => cases begins
  | cons c chars =>
      have stops := ends.stopsCondition.stopsName
      rw [List.cons_append, starts, ← List.cons_append,
        startsIdentifier_append_of_plain plain stops]
      exact begins

/-- A compound begins with neither a combinator nor a comma. -/
theorem ofChar?_of_starts {c : Char} (begins : starts (c :: chars) = true) :
    Combinator.ofChar? c = none ∧ c ≠ ',' := by
  have excluded : ∀ other ∈ ['>', '+', '~', ','], c ≠ other := by
    rintro other member rfl
    simp only [List.mem_cons, List.not_mem_nil, or_false] at member
    rcases member with rfl | rfl | rfl | rfl <;> cases begins
  refine ⟨?_, excluded ',' (by simp)⟩
  unfold Combinator.ofChar?
  split
  · exact absurd rfl (excluded '>' (by simp))
  · exact absurd rfl (excluded '+' (by simp))
  · exact absurd rfl (excluded '~' (by simp))
  · rfl

end Compound

/-! ## Alternatives -/

namespace ComplexSelector

variable {outer inner : List (Combinator × Compound)} {selector : ComplexSelector}

theorem readCombinator_append {combinator : Combinator}
    (read : readCombinator chars = .ok (some combinator, rest)) (visible : rest ≠ []) :
    readCombinator (chars ++ more) = .ok (some combinator, rest ++ more) := by
  unfold readCombinator at read
  split at read
  · cases read
  · next c behind blanks =>
      have something : skipBlanks chars ≠ [] := blanks ▸ List.cons_ne_nil c behind
      unfold readCombinator
      rw [skipBlanks_append something, blanks]
      simp only [List.cons_append]
      split at read
      · cases read
        simp only [skipBlanks_append visible]
      · split at read
        · cases read
        · next noComma =>
            rw [if_neg noComma]
            split at read
            · next blank =>
                cases read
                have front : (chars ++ more).head?.any isBlank = true := by
                  cases chars with
                  | nil => cases blank
                  | cons first chars => exact blank
                simp only [front, if_true, List.cons_append]
            · cases read

/-- Blanks at the end of an alternative do not count. -/
theorem readCombinator_append_of_end (ends : EndsCompound more)
    (read : readCombinator chars = .ok (none, [])) :
    readCombinator (chars ++ more) = readCombinator more := by
  have blanks : skipBlanks chars = [] := by
    unfold readCombinator at read
    split at read
    · assumption
    · split at read
      · cases read
      · split at read
        · cases read
        · split at read <;> cases read
  unfold readCombinator
  rw [skipBlanks_append_of_blank blanks]
  cases more with
  | nil => rfl
  | cons next more =>
      rcases ends next rfl with rfl | rfl
      · have front : (chars ++ ' ' :: more).head?.any isBlank = true := by
          cases chars with
          | nil => rfl
          | cons first chars =>
              rw [skipBlanks, List.dropWhile_cons] at blanks
              split at blanks
              · assumption
              · cases blanks
        rw [front]
        rfl
      · rfl

theorem starts_of_readFrom
    (read : readFrom outer chars = .ok (selector, rest)) : Compound.starts chars = true := by
  rw [readFrom.eq_def] at read
  split at read
  · assumption
  · cases read

theorem readCombinator_space (begins : Compound.starts (skipBlanks chars) = true) :
    readCombinator (' ' :: chars) = .ok (some .descendant, skipBlanks chars) := by
  have skipped : skipBlanks (' ' :: chars) = skipBlanks chars := rfl
  unfold readCombinator
  rw [skipped]
  split
  · next blanks =>
      rw [blanks] at begins
      cases begins
  · next c behind visible =>
      rw [visible] at begins
      obtain ⟨joinsNot, noComma⟩ := Compound.ofChar?_of_starts begins
      simp only [joinsNot, if_neg noComma, visible]
      rfl

theorem readCombinator_space_combinator {c : Char} {combinator : Combinator}
    (joins : Combinator.ofChar? c = some combinator) :
    readCombinator (' ' :: c :: chars) = .ok (some combinator, skipBlanks chars) := by
  unfold Combinator.ofChar? at joins
  split at joins <;> cases joins <;> rfl

/-- How the reader goes on behind an alternative that has come to its end. -/
def resume (selector : ComplexSelector) (more : List Char) : Reading ComplexSelector :=
  match readCombinator more with
  | .error fault => .error fault
  | .ok (none, rest) => .ok (selector, rest)
  | .ok (some combinator, rest) =>
    readFrom ((combinator, selector.subject) :: selector.outer) rest

theorem readFrom_append (plain : Plain chars) (ends : EndsCompound more)
    (read : readFrom outer chars = .ok (selector, [])) :
    readFrom outer (chars ++ more) = resume selector more := by
  fun_induction readFrom outer chars with
  | case1 => cases read
  | case2 => cases read
  | case3 outer chars begins compound behind compoundRead rest combinatorRead =>
      cases read
      rw [readFrom_of_read (Compound.starts_append plain ends begins)
          (Compound.read_append plain ends compoundRead),
        readCombinator_append_of_end ends combinatorRead]
      rfl
  | case4 outer chars begins compound behind compoundRead combinator rest combinatorRead ih =>
      have visible : rest ≠ [] := by
        rintro rfl
        rw [readFrom.eq_def] at read
        cases read
      have later := (readCombinator_suffix combinatorRead).trans
        (Compound.suffix_of_read compoundRead)
      rw [readFrom_of_read (Compound.starts_append plain ends begins)
          (Compound.read_append plain ends compoundRead),
        readCombinator_append combinatorRead visible]
      exact ih (plain.suffix later) read
  | case5 => cases read

/-- What was read before an alternative stays around it. -/
theorem readFrom_outer (read : readFrom inner chars = .ok (selector, rest)) :
    readFrom (inner ++ outer) chars = .ok (⟨selector.subject, selector.outer ++ outer⟩, rest) := by
  fun_induction readFrom inner chars with
  | case1 => cases read
  | case2 => cases read
  | case3 inner chars begins compound behind compoundRead rest combinatorRead =>
      cases read
      rw [readFrom_of_read begins compoundRead, combinatorRead]
  | case4 inner chars begins compound behind compoundRead combinator rest combinatorRead ih =>
      rw [readFrom_of_read begins compoundRead, combinatorRead]
      exact ih read
  | case5 => cases read

end ComplexSelector

/-! ## Lists -/

/-- A text that is read as one alternative, both at the end and before a comma. -/
def ComplexSelector.IsText (selector : ComplexSelector) (text : List Char) : Prop :=
  ∀ rest, (∀ next ∈ rest.head?, next = ',') →
    ComplexSelector.read (text ++ rest) = .ok (selector, rest)

/-- A text without backslashes that is read as an alternative is so before a comma too. -/
theorem ComplexSelector.isText_of_read {selector : ComplexSelector} (plain : Plain chars)
    (read : ComplexSelector.read chars = .ok (selector, [])) : selector.IsText chars := by
  intro behind comma
  have visible : skipBlanks chars ≠ [] := by
    intro blanks
    rw [ComplexSelector.read, blanks, readFrom.eq_def] at read
    cases read
  have ends : EndsCompound behind := fun next head => Or.inr (comma next head)
  have longer := readFrom_append (plain.suffix (skipBlanks_suffix chars)) ends read
  rw [ComplexSelector.read, skipBlanks_append visible, longer, resume]
  cases behind with
  | nil => rfl
  | cons next behind =>
      cases comma next rfl
      rfl

namespace SelectorList

theorem readAll_cons {selector : ComplexSelector} {others : SelectorList}
    (read : ComplexSelector.read chars = .ok (selector, ',' :: rest))
    (behind : readAll rest = .ok others) : readAll chars = .ok (selector :: others) := by
  rw [readAll.eq_def]
  split
  · next failed =>
      rw [read] at failed
      cases failed
  · next found =>
      rw [read] at found
      cases found
  · next found =>
      rw [read] at found
      cases found
      rw [if_pos rfl, behind]
      rfl

theorem readAll_ne_nil : readAll chars ≠ .ok [] := by
  intro read
  rw [readAll.eq_def] at read
  split at read
  · cases read
  · cases read
  · split at read
    · obtain ⟨others, -, equal⟩ := map_eq_ok read
      cases equal
    · cases read

theorem read_of_readAll_single {selector : ComplexSelector}
    (read : readAll chars = .ok [selector]) : ComplexSelector.read chars = .ok (selector, []) := by
  rw [readAll.eq_def] at read
  split at read
  · cases read
  · next alone =>
      cases read
      exact alone
  · split at read
    · obtain ⟨others, othersRead, equal⟩ := map_eq_ok read
      cases equal
      exact absurd othersRead readAll_ne_nil
    · cases read

theorem readAll_space : readAll (' ' :: chars) = readAll chars := by
  have skipped : ComplexSelector.read (' ' :: chars) = ComplexSelector.read chars := rfl
  rw [readAll.eq_def, readAll.eq_def, skipped]

/-- Texts of alternatives, separated by commas, are read as the list of them. -/
theorem readAll_intercalate {selectors : SelectorList} {texts : List String}
    (some : texts ≠ [])
    (each : List.Forall₂ (fun text selector => ComplexSelector.IsText selector text.toList)
      texts selectors) :
    readAll (", ".intercalate texts).toList = .ok selectors := by
  induction each with
  | nil => exact absurd rfl some
  | @cons text selector texts selectors first others ih =>
      cases others with
      | nil =>
          have alone := first [] (by simp)
          rw [List.append_nil] at alone
          exact readAll_single alone
      | @cons second next texts selectors following others =>
          have comma := first (',' :: ' ' :: (", ".intercalate (second :: texts)).toList) (by simp)
          have behind := ih (List.cons_ne_nil second texts)
          rw [String.intercalate_cons_cons]
          simp only [String.toList_append, List.append_assoc]
          exact readAll_cons comma (readAll_space.trans behind)

end SelectorList

end SelectorTree
