import Mathlib.Data.List.DropRight
import SelectorTree.Proofs.Text.Spelling
import SelectorTree.Selector.Parser

/-!
# Names that are read

Every name in a selector is read at some place of the text, where a name begins.  So
whatever is true of all names that could be read there is true of all names in the
selector; one such thing is that they have characters.
-/

namespace SelectorTree

open Text

theorem Text.ofList_readName_ne_empty (blank : Char → Bool) {chars : List Char}
    (starts : startsName chars = true) : String.ofList (readName blank chars).1 ≠ "" := by
  intro empty
  apply readName_ne_nil blank starts
  simpa using congrArg String.toList empty

variable {good : String → Prop} {chars rest : List Char}

/-- Whatever name is read at a place of a text is good. -/
def Text.ReadsGood (good : String → Prop) (chars : List Char) : Prop :=
  ∀ place, place <:+ chars → startsName place = true →
    good (String.ofList (readName isBlank place).1)

theorem Text.ReadsGood.suffix (reads : ReadsGood good chars) (behind : rest <:+ chars) :
    ReadsGood good rest :=
  fun place within starts => reads place (within.trans behind) starts

/-- A condition whose name is good, unless it is a pseudo-class or a pseudo-element. -/
def SimpleSelector.Names (good : String → Prop) : SimpleSelector → Prop
  | .id name | .className name => good name
  | .attribute selector => good selector.name
  | .pseudoClass _ | .pseudoElement _ => True

/-- A compound with good names. -/
structure Compound.Names (good : String → Prop) (compound : Compound) : Prop where
  type : ∀ name, compound.type? = some (.name name) → good name
  ids : ∀ name ∈ compound.ids, good name
  classes : ∀ name ∈ compound.classes, good name
  attributes : ∀ selector ∈ compound.attributes, good selector.name

/-! ## Conditions -/

theorem AttributeSelector.good_of_read {selector : AttributeSelector}
    (reads : ReadsGood good chars) (read : AttributeSelector.read chars = .ok (selector, rest)) :
    good selector.name := by
  simp only [AttributeSelector.read] at read
  split at read
  · next starts =>
      have name := reads _ (skipBlanks_suffix chars) (startsName_of_startsIdentifier starts)
      cases operator : readOperator (skipBlanks (readName isBlank (skipBlanks chars)).2) with
      | error fault =>
          rw [operator] at read
          cases read
      | ok found =>
          rw [operator] at read
          simp only [bind, Except.bind] at read
          split at read
          · cases read
            exact name
          · split at read
            · cases read
            · cases read
              exact name
  · split at read <;> cases read

theorem PseudoClass.names_of_read {condition : SimpleSelector}
    (read : PseudoClass.read chars = .ok (condition, rest)) : condition.Names good := by
  simp only [PseudoClass.read] at read
  split at read
  · cases argument : readArgument? (readName isBlank (splitColon chars).2).2 with
    | error fault =>
        rw [argument] at read
        cases read
    | ok found =>
        rw [argument] at read
        simp only [bind, Except.bind] at read
        split at read <;> cases read <;> trivial
  · cases read

theorem SimpleSelector.names_of_read {c : Char} {condition : SimpleSelector}
    (reads : ReadsGood good chars) (read : SimpleSelector.read c chars = .ok (condition, rest)) :
    condition.Names good := by
  unfold SimpleSelector.read at read
  split at read
  · simp only [readId] at read
    split at read
    · next starts =>
        cases read
        exact reads chars List.suffix_rfl starts
    · cases read
  split at read
  · simp only [readClass] at read
    split at read
    · next starts =>
        cases read
        exact reads chars List.suffix_rfl (startsName_of_startsIdentifier starts)
    · cases read
  split at read
  · cases found : AttributeSelector.read chars with
    | error fault =>
        rw [found] at read
        cases read
    | ok selector =>
        rw [found] at read
        cases read
        exact AttributeSelector.good_of_read reads found
  · exact PseudoClass.names_of_read read

/-! ## Compounds -/

namespace Compound

theorem Names.add {compound : Compound} {condition : SimpleSelector} (names : compound.Names good)
    (goodCondition : condition.Names good) : (compound.add condition).Names good := by
  cases condition with
  | id name =>
      exact { names with
        ids := List.forall_mem_append.mpr ⟨names.ids, List.forall_mem_singleton.mpr goodCondition⟩ }
  | className name =>
      exact { names with
        classes :=
          List.forall_mem_append.mpr ⟨names.classes, List.forall_mem_singleton.mpr goodCondition⟩ }
  | «attribute» selector =>
      exact { names with
        attributes :=
          List.forall_mem_append.mpr
            ⟨names.attributes, List.forall_mem_singleton.mpr goodCondition⟩ }
  | _ => exact { names with }

theorem names_of_readConditions {compound result : Compound} (reads : ReadsGood good chars)
    (names : compound.Names good) (read : readConditions compound chars = .ok (result, rest)) :
    result.Names good := by
  fun_induction readConditions compound chars with
  | case1 =>
      cases read
      exact names
  | case2 => cases read
  | case3 compound c chars _ condition behind conditionRead ih =>
      have inside := reads.suffix (List.suffix_cons c chars)
      exact ih (inside.suffix (SimpleSelector.read_suffix conditionRead))
        (names.add (SimpleSelector.names_of_read inside conditionRead)) read
  | case4 =>
      cases read
      exact names

theorem names_ofType? {type? : Option TypeSelector}
    (named : ∀ name, type? = some (.name name) → good name) : (ofType? type?).Names good where
  type := named
  ids := fun _ member => absurd member List.not_mem_nil
  classes := fun _ member => absurd member List.not_mem_nil
  attributes := fun _ member => absurd member List.not_mem_nil

theorem names_of_read {compound : Compound} (reads : ReadsGood good chars)
    (read : Compound.read chars = .ok (compound, rest)) : compound.Names good := by
  refine names_of_readConditions (reads.suffix (readType?_suffix chars)) (names_ofType? ?_) read
  intro name type
  unfold readType? at type
  split at type
  · cases type
  · split at type
    · next starts =>
        cases type
        exact reads _ List.suffix_rfl (startsName_of_startsIdentifier starts)
    · cases type

theorem suffix_of_read {compound : Compound} (read : Compound.read chars = .ok (compound, rest)) :
    rest <:+ chars :=
  (readConditions_suffix read).trans (readType?_suffix chars)

end Compound

/-! ## Alternatives and lists -/

/-- An alternative with good names. -/
def ComplexSelector.Names (good : String → Prop) (selector : ComplexSelector) : Prop :=
  selector.subject.Names good ∧ ∀ step ∈ selector.outer, step.2.Names good

/-- An alternative all of whose compounds have a property. -/
def ComplexSelector.All (property : Compound → Prop) (selector : ComplexSelector) : Prop :=
  property selector.subject ∧ ∀ step ∈ selector.outer, property step.2

/-- Whatever compound is read at a place of a text where one begins has a property. -/
def Compound.HoldsIn (property : Compound → Prop) (chars : List Char) : Prop :=
  ∀ place compound behind, place <:+ chars → skipBlanks place = place →
    starts place = true → Compound.read place = .ok (compound, behind) → property compound

theorem Compound.HoldsIn.suffix {property : Compound → Prop} (holds : HoldsIn property chars)
    (within : rest <:+ chars) : HoldsIn property rest :=
  fun place compound behind inside => holds place compound behind (inside.trans within)

theorem skipBlanks_idempotent : skipBlanks (skipBlanks chars) = skipBlanks chars :=
  List.dropWhile_idempotent isBlank chars

theorem ComplexSelector.skipBlanks_of_readCombinator {combinator : Combinator}
    (read : readCombinator chars = .ok (some combinator, rest)) : skipBlanks rest = rest := by
  unfold readCombinator at read
  split at read
  · cases read
  · next c behind blanks =>
      split at read
      · cases read
        exact skipBlanks_idempotent
      · split at read
        · cases read
        · split at read
          · cases read
            rw [← blanks]
            exact skipBlanks_idempotent
          · cases read

theorem ComplexSelector.all_of_readFrom {property : Compound → Prop}
    {outer : List (Combinator × Compound)} {selector : ComplexSelector}
    (holds : Compound.HoldsIn property chars) (shown : skipBlanks chars = chars)
    (before : ∀ step ∈ outer, property step.2)
    (read : readFrom outer chars = .ok (selector, rest)) : selector.All property := by
  fun_induction readFrom outer chars with
  | case1 => cases read
  | case2 => cases read
  | case3 outer chars begins compound behind compoundRead rest combinatorRead =>
      cases read
      exact ⟨holds chars compound behind List.suffix_rfl shown begins compoundRead, before⟩
  | case4 outer chars begins compound behind compoundRead combinator rest combinatorRead ih =>
      have later := (readCombinator_suffix combinatorRead).trans
        (Compound.suffix_of_read compoundRead)
      refine ih (holds.suffix later) (skipBlanks_of_readCombinator combinatorRead)
        (List.forall_mem_cons.mpr ⟨?_, before⟩) read
      exact holds chars compound behind List.suffix_rfl shown begins compoundRead
  | case5 => cases read

theorem ComplexSelector.suffix_of_readFrom {outer : List (Combinator × Compound)}
    {selector : ComplexSelector} (read : readFrom outer chars = .ok (selector, rest)) :
    rest <:+ chars := by
  fun_induction readFrom outer chars with
  | case1 => cases read
  | case2 => cases read
  | case3 outer chars begins compound behind compoundRead rest combinatorRead =>
      cases read
      exact (readCombinator_suffix combinatorRead).trans (Compound.suffix_of_read compoundRead)
  | case4 outer chars begins compound behind compoundRead combinator rest combinatorRead ih =>
      exact ((ih read).trans (readCombinator_suffix combinatorRead)).trans
        (Compound.suffix_of_read compoundRead)
  | case5 => cases read

theorem SelectorList.all_of_readAll {property : Compound → Prop} {selectors : SelectorList}
    (holds : Compound.HoldsIn property chars) (read : readAll chars = .ok selectors) :
    ∀ selector ∈ selectors, selector.All property := by
  have first : ∀ {chars rest : List Char} {selector : ComplexSelector},
      Compound.HoldsIn property chars → ComplexSelector.read chars = .ok (selector, rest) →
        selector.All property := fun holds selectorRead =>
    ComplexSelector.all_of_readFrom (holds.suffix (skipBlanks_suffix _)) skipBlanks_idempotent
      (by simp) selectorRead
  fun_induction readAll chars generalizing selectors with
  | case1 => cases read
  | case2 chars selector selectorRead =>
      cases read
      rw [List.forall_mem_singleton]
      exact first holds selectorRead
  | case3 chars selector rest selectorRead ih =>
      obtain ⟨others, othersRead, equal⟩ := map_eq_ok read
      cases equal
      have behind := ((List.suffix_cons ',' rest).trans
        (ComplexSelector.suffix_of_readFrom selectorRead)).trans (skipBlanks_suffix chars)
      exact List.forall_mem_cons.mpr
        ⟨first holds selectorRead, ih (holds.suffix behind) othersRead⟩
  | case4 => cases read

theorem SelectorList.names_of_readAll {selectors : SelectorList} (reads : ReadsGood good chars)
    (read : readAll chars = .ok selectors) : ∀ selector ∈ selectors, selector.Names good :=
  all_of_readAll (fun _ _ _ within _ _ compoundRead =>
    Compound.names_of_read (reads.suffix within) compoundRead) read

/-- All names in a selector list that was read from a text are good. -/
theorem SelectorList.names_of_ofText {text : String} {selectors : SelectorList}
    (reads : ReadsGood good text.toList) (read : ofText text = .ok selectors) :
    ∀ selector ∈ selectors, selector.Names good := by
  rw [ofText] at read
  cases found : readAll text.toList with
  | error fault =>
      rw [found] at read
      cases read
  | ok list =>
      rw [found] at read
      cases read
      exact names_of_readAll reads found

/-! ## Names with characters -/

/-- A compound whose ids and classes have names. -/
structure Compound.Named (compound : Compound) : Prop where
  ids : ∀ name ∈ compound.ids, name ≠ ""
  classes : ∀ name ∈ compound.classes, name ≠ ""

/-- An alternative all of whose ids and classes have names. -/
def ComplexSelector.Named (selector : ComplexSelector) : Prop :=
  selector.subject.Named ∧ ∀ step ∈ selector.outer, step.2.Named

/-- All names in a selector list that was read from a text have characters. -/
theorem SelectorList.named_of_ofText {text : String} {selectors : SelectorList}
    (read : ofText text = .ok selectors) : ∀ selector ∈ selectors, selector.Named := by
  intro selector member
  have reads : ReadsGood (· ≠ "") text.toList :=
    fun place _ starts => ofList_readName_ne_empty isBlank starts
  have named : ∀ {compound : Compound}, compound.Names (· ≠ "") → compound.Named :=
    fun names => ⟨names.ids, names.classes⟩
  have names := names_of_ofText reads read selector member
  exact ⟨named names.1, fun step inOuter => named (names.2 step inOuter)⟩

/-- What is true of the compounds of an alternative is true along its chain. -/
theorem ComplexSelector.forall_mem_chain {property : Compound → Prop} {selector : ComplexSelector}
    (subject : property selector.subject) (outer : ∀ step ∈ selector.outer, property step.2) :
    ∀ step ∈ selector.chain, property step.2 := by
  suffices inside : ∀ {outer : List (Combinator × Compound)} {subject : Compound},
      property subject → (∀ step ∈ outer, property step.2) →
        ∀ step ∈ chainFrom subject outer, property step.2 from inside subject outer
  intro outer
  induction outer with
  | nil =>
      intro subject atSubject _ step single
      rw [List.mem_singleton.mp single]
      exact atSubject
  | cons first outer ih =>
      intro subject atSubject inOuter step inChain
      rcases List.mem_append.mp inChain with left | last
      · exact ih (inOuter first List.mem_cons_self)
          (fun step later => inOuter step (List.mem_cons_of_mem first later)) step left
      · rw [List.mem_singleton.mp last]
        exact atSubject

theorem ComplexSelector.Named.of_mem_chain {selector : ComplexSelector}
    {step : Combinator × Compound} (named : selector.Named) (member : step ∈ selector.chain) :
    step.2.Named :=
  forall_mem_chain named.1 named.2 step member

end SelectorTree
