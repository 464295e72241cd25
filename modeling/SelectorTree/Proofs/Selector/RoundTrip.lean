import Mathlib.Data.List.Forall2
import SelectorTree.Proofs.Selector.Continuing
import SelectorTree.Proofs.Selector.Formulas
import SelectorTree.Proofs.Selector.Legibility
import SelectorTree.Selector.Printer

/-!
# Selectors that are written and read

A legible selector is read back from its text.  Every condition is read up to the character
with which the next one begins, the conditions of a compound come back in the order in which
each kind is kept, and what stands between two compounds names the combinator that joins them.
-/

namespace SelectorTree

open Text

variable {rest more : List Char} {name : String}

/-! ## Names and values -/

namespace IsIdentifier

theorem readName_append (identifier : IsIdentifier name) (stops : StopsName rest) :
    readName isBlank (name.toList ++ rest) = (name.toList, rest) :=
  readName_of_named identifier.named stops

theorem startsIdentifier_append (identifier : IsIdentifier name) (stops : StopsName rest) :
    startsIdentifier (name.toList ++ rest) = true := by
  rw [startsIdentifier_append_of_plain identifier.plain stops, identifier.starts]

theorem toList_identifier (isIdentifier : IsIdentifier name) :
    (identifier name).toList = name.toList := by
  rw [identifier, String.toList_ofList,
    writeIdentifier_of_named isIdentifier.named isIdentifier.starts]

/-- What is read first of an identifier is the start of a name or a hyphen. -/
theorem exists_cons (identifier : IsIdentifier name) :
    ∃ first others, name.toList = first :: others ∧ isNameChar first = true := by
  have named := identifier.named
  have starts := identifier.starts
  cases characters : name.toList with
  | nil =>
      rw [characters] at starts
      cases starts
  | cons first others =>
      rw [characters] at named
      exact ⟨first, others, rfl, named first List.mem_cons_self⟩

end IsIdentifier

/-- A written character other than a backslash is read as itself. -/
theorem AttributeTest.readQuoted_char {c : Char} (notBackslash : c ≠ '\\') :
    readQuoted .selector '"' ((if c = '"' then ['\\', c] else [c]) ++ rest) =
      (c :: (readQuoted .selector '"' rest).1, (readQuoted .selector '"' rest).2) := by
  split
  · next quote =>
      subst quote
      rw [List.cons_append, List.singleton_append, readQuoted_escape (by decide) (by decide),
        readEscape, if_neg (by decide)]
  · next notQuote =>
      rw [List.singleton_append, readQuoted.eq_def]
      simp only [if_neg notQuote, if_neg notBackslash, QuoteStyle.selector, Bool.false_eq_true,
        and_false, if_false]

/-- A value between double quotes, in which only those are escaped, is read as itself. -/
theorem AttributeTest.readQuoted_quotedValue {value : List Char} (plain : Plain value)
    (rest : List Char) :
    readQuoted .selector '"'
        (value.flatMap (fun c => if c = '"' then ['\\', c] else [c]) ++ '"' :: rest) =
      (value, .closed, rest) := by
  induction value with
  | nil => exact readQuoted_quote
  | cons c value ih =>
      obtain ⟨notBackslash, others⟩ := plain_cons.mp plain
      rw [List.flatMap_cons, List.append_assoc, readQuoted_char notBackslash, ih others]

theorem AttributeTest.skipBlanks_quotedValue (value : String) (rest : List Char) :
    skipBlanks ((quotedValue value).toList ++ rest) =
      '"' :: (value.toList.flatMap (fun c => if c = '"' then ['\\', c] else [c]) ++
        '"' :: rest) := by
  simp [quotedValue, skipBlanks, isBlank]

/-! ## Conditions -/

def SimpleSelector.toText : SimpleSelector → String
  | .id name => "#" ++ identifier name
  | .className name => "." ++ identifier name
  | .attribute selector => selector.toText
  | .pseudoClass selector => selector.toText
  | .pseudoElement name => "::" ++ name

theorem AttributeTest.toList_toText_append (test : AttributeTest) (rest : List Char) :
    test.toText.toList ++ rest = test.operator.symbol.toList ++
      ((AttributeTest.quotedValue test.value).toList ++
        ((if test.ignoresCase then " i" else "").toList ++ rest)) := by
  simp [AttributeTest.toText]

namespace AttributeSelector

theorem toList_toText (selector : AttributeSelector) : selector.toText.toList =
    '[' :: ((identifier selector.name).toList ++
      ((selector.test?.map AttributeTest.toText).getD "").toList ++ [']']) := by
  simp [toText]

theorem stopsName_symbol {operator : AttributeOperator} :
    StopsName (operator.symbol.toList ++ rest) := by
  cases operator <;> exact stopsName_cons rfl (by decide)

theorem stopsName_test {test : AttributeTest} : StopsName (test.toText.toList ++ rest) := by
  rw [AttributeTest.toList_toText_append]
  exact stopsName_symbol

theorem readOperator_symbol {operator : AttributeOperator} :
    readOperator (skipBlanks (operator.symbol.toList ++ rest)) = .ok (some operator, rest) := by
  cases operator <;> rfl

theorem readFlag_closing (ignoresCase : Bool) :
    readFlag (skipBlanks ((if ignoresCase then " i" else "").toList ++ ']' :: rest)) =
      (ignoresCase, ']' :: rest) := by
  cases ignoresCase <;> rfl

theorem readTest_toText {test : AttributeTest} (plain : Plain test.value.toList)
    (rest : List Char) :
    readTest test.operator ((AttributeTest.quotedValue test.value).toList ++
        ((if test.ignoresCase then " i" else "").toList ++ ']' :: rest)) = .ok (test, rest) := by
  have value : ∀ behind, readValue (skipBlanks
      ((AttributeTest.quotedValue test.value).toList ++ behind)) =
        .ok (test.value.toList, behind) := by
    intro behind
    have string := AttributeTest.readQuoted_quotedValue plain behind
    rw [AttributeTest.skipBlanks_quotedValue, readValue, if_pos (Or.inl rfl), readString]
    simp only [string, if_true]
  simp only [readTest, value, bind, Except.bind, readFlag_closing, readClosing, pure, Except.pure,
    String.ofList_toList]

/-- Behind a name the test is read; its operator is always found. -/
theorem read_eq_readTest {chars label : List Char} {test : AttributeTest}
    (starts : startsIdentifier (skipBlanks chars) = true)
    (nameRead : readName isBlank (skipBlanks chars) =
      (label, test.toText.toList ++ ']' :: rest)) :
    AttributeSelector.read chars =
      (readTest test.operator ((AttributeTest.quotedValue test.value).toList ++
        ((if test.ignoresCase then " i" else "").toList ++ ']' :: rest))).map
          fun found => (⟨String.ofList label, some found.1⟩, found.2) := by
  simp only [AttributeSelector.read, starts, if_true, nameRead, AttributeTest.toList_toText_append,
    readOperator_symbol, bind, Except.bind]
  cases readTest test.operator _ <;> rfl

/-- An attribute selector is read back up to the bracket that closes it. -/
theorem read_toText {selector : AttributeSelector} (legible : selector.Legible) :
    ∃ tail, selector.toText.toList = '[' :: tail ∧
      ∀ rest, AttributeSelector.read (tail ++ rest) = .ok (selector, rest) := by
  refine ⟨_, toList_toText selector, fun rest => ?_⟩
  have name := legible.name
  have visible : ∀ behind, skipBlanks (selector.name.toList ++ behind) =
      selector.name.toList ++ behind := by
    intro behind
    obtain ⟨first, others, characters, -⟩ := name.exists_cons
    have shown := legible.shown
    rw [skipBlanks_eq_self_iff, characters] at *
    exact shown
  obtain ⟨label, test?⟩ := selector
  rw [List.append_assoc, List.append_assoc, name.toList_identifier]
  cases test? with
  | none =>
      have stops : StopsName (']' :: rest) := stopsName_cons rfl (by decide)
      simp only [AttributeSelector.read, Option.map_none, Option.getD_none, String.toList_empty,
        List.nil_append, List.singleton_append, visible, name.startsIdentifier_append stops,
        if_true, name.readName_append stops, String.ofList_toList]
      rfl
  | some test =>
      have stops : StopsName (test.toText.toList ++ ']' :: rest) := stopsName_test
      have starts := name.startsIdentifier_append stops
      have nameRead := name.readName_append stops
      rw [← visible] at starts nameRead
      rw [Option.map_some, Option.getD_some, List.singleton_append,
        read_eq_readTest starts nameRead, readTest_toText (legible.value test rfl),
        String.ofList_toList]
      rfl

end AttributeSelector

namespace PseudoClass

theorem balanced_of_ordinary {chars : List Char} (ordinary : ∀ c ∈ chars, isOrdinary c = true) :
    Balanced 0 chars := by
  induction chars with
  | nil => exact .nil
  | cons c chars ih =>
      obtain ⟨here, others⟩ := List.forall_mem_cons.mp ordinary
      exact .ordinary here (ih others)

theorem legible_formula (formula : Formula) :
    Balanced 0 formula.toText.toList ∧
      trimChars formula.toText.toList = formula.toText.toList := by
  refine ⟨balanced_of_ordinary fun c member => ?_,
    trimChars_of_visible fun c => Formula.not_isBlank_of_mem_toText⟩
  rcases Formula.of_mem_toText member with numeral | rfl
  · refine isOrdinary_iff.mpr ⟨?_, ?_, ?_, ?_⟩
    · rintro rfl
      cases numeral
    · rintro rfl
      cases numeral
    · rintro (rfl | rfl) <;> cases numeral
    · rintro rfl
      cases numeral
  · rfl

theorem readArgument?_text {text : String} (balanced : Balanced 0 text.toList)
    (trimmed : trimChars text.toList = text.toList) (rest : List Char) :
    readArgument? ('(' :: (text.toList ++ ')' :: rest)) = .ok (some text, rest) := by
  simp only [readArgument?, readArgument_of_balanced balanced, Except.map, trimmed,
    String.ofList_toList]

/-- An argument is read back, and so is that there is none. -/
theorem readArgument?_toText {argument? : Option PseudoArgument}
    (legible : ∀ argument ∈ argument?, argument.Legible) (stops : StopsCondition rest) :
    ∃ text?, readArgument? (((argument?.map PseudoArgument.toText).getD "").toList ++ rest) =
      .ok (text?, rest) ∧ text?.map argumentOf = argument? := by
  cases argument? with
  | none =>
      exact ⟨none, readArgument?_of_head fun head => (stops '(' head).2.2 rfl, rfl⟩
  | some argument =>
      cases argument with
      | formula formula =>
          obtain ⟨balanced, trimmed⟩ := legible_formula formula
          refine ⟨some formula.toText, ?_, by simp [argumentOf, Formula.ofText?_toText]⟩
          have read := readArgument?_text balanced trimmed rest
          simpa [PseudoArgument.toText] using read
      | raw text =>
          obtain ⟨balanced, trimmed, noFormula⟩ := legible _ rfl
          refine ⟨some text, ?_, by simp [argumentOf, noFormula]⟩
          have read := readArgument?_text balanced trimmed rest
          simpa [PseudoArgument.toText] using read

theorem stopsName_argument {argument? : Option PseudoArgument} (stops : StopsName rest) :
    StopsName (((argument?.map PseudoArgument.toText).getD "").toList ++ rest) := by
  cases argument? with
  | none => exact stops
  | some argument =>
      cases argument <;>
        simpa [PseudoArgument.toText] using stopsName_cons (c := '(') rfl (by decide)

theorem splitColon_append_name (identifier : IsIdentifier name) :
    splitColon (name.toList ++ rest) = (false, name.toList ++ rest) := by
  obtain ⟨first, others, characters, named⟩ := identifier.exists_cons
  rw [characters]
  unfold splitColon
  split
  · next same =>
      cases same
      cases named
  · rfl

theorem read_toText {selector : PseudoClass} (legible : selector.Legible) :
    ∃ tail, selector.toText.toList = ':' :: tail ∧
      ∀ rest, StopsCondition rest →
        PseudoClass.read (tail ++ rest) = .ok (.pseudoClass selector, rest) := by
  refine ⟨selector.name.toList ++
    ((selector.argument?.map PseudoArgument.toText).getD "").toList, by simp [toText], ?_⟩
  intro rest stops
  obtain ⟨text?, argumentRead, argument⟩ := readArgument?_toText legible.argument stops
  have behind : StopsName
      (((selector.argument?.map PseudoArgument.toText).getD "").toList ++ rest) :=
    stopsName_argument stops.stopsName
  rw [List.append_assoc, PseudoClass.read]
  simp only [splitColon_append_name legible.name, legible.name.startsIdentifier_append behind,
    if_true, legible.name.readName_append behind, argumentRead, bind, Except.bind,
    String.ofList_toList, legible.lowered, legible.double, Bool.false_or, Bool.false_eq_true,
    if_false, argument]
  rfl

/-- A pseudo-element is read back with its two colons. -/
theorem read_element (identifier : IsIdentifier name) (lowered : lower name = name)
    (stops : StopsCondition rest) :
    PseudoClass.read (':' :: (name.toList ++ rest)) = .ok (.pseudoElement name, rest) := by
  have noArgument := readArgument?_of_head fun head => (stops '(' head).2.2 rfl
  rw [PseudoClass.read]
  simp only [splitColon, identifier.startsIdentifier_append stops.stopsName, if_true,
    identifier.readName_append stops.stopsName, noArgument, bind, Except.bind,
    String.ofList_toList, lowered, Bool.true_or]
  rfl

end PseudoClass

namespace SimpleSelector

variable {condition : SimpleSelector}

/-- A condition is read back up to whatever does not go on with it. -/
theorem exists_read_toText (legible : condition.Legible) :
    ∃ first tail, condition.toText.toList = first :: tail ∧ starts first = true ∧
      ∀ rest, StopsCondition rest →
        SimpleSelector.read first (tail ++ rest) = .ok (condition, rest) := by
  cases condition with
  | id name =>
      obtain ⟨some, named⟩ := legible
      have noNul : ∀ c ∈ name.toList, c.toNat ≠ 0 :=
        fun c member => toNat_ne_zero_of_isNameChar (named c member)
      refine ⟨'#', writeIdentifier name.toList, by simp [toText, identifier], rfl, ?_⟩
      intro rest stops
      have starts := startsName_of_startsIdentifier (startsIdentifier_writeIdentifier
        (mt String.toList_eq_nil_iff.mp some) noNul rest)
      have read : readName isBlank (writeIdentifier name.toList ++ rest) = _ :=
        (spells_writeIdentifier noNul).readName_append rfl
      rw [stops.stopsName.readName_eq, List.append_nil] at read
      simp only [SimpleSelector.read, if_true, readId, starts, read, String.ofList_toList]
  | className name =>
      have identifier : IsIdentifier name := legible
      refine ⟨'.', name.toList, by simp [toText, identifier.toList_identifier], rfl, ?_⟩
      intro rest stops
      simp only [SimpleSelector.read, if_neg (show '.' ≠ '#' by decide), if_true, readClass,
        identifier.startsIdentifier_append stops.stopsName,
        identifier.readName_append stops.stopsName, String.ofList_toList]
  | «attribute» selector =>
      obtain ⟨tail, written, read⟩ := AttributeSelector.read_toText legible
      refine ⟨'[', tail, written, rfl, fun rest stops => ?_⟩
      simp only [SimpleSelector.read, if_neg (show '[' ≠ '#' by decide),
        if_neg (show '[' ≠ '.' by decide), if_true, read rest, Except.map]
  | pseudoClass selector =>
      obtain ⟨tail, written, read⟩ := PseudoClass.read_toText legible
      refine ⟨':', tail, written, rfl, fun rest stops => ?_⟩
      simp only [SimpleSelector.read, if_neg (show ':' ≠ '#' by decide),
        if_neg (show ':' ≠ '.' by decide), if_neg (show ':' ≠ '[' by decide), read rest stops]
  | pseudoElement name =>
      obtain ⟨identifier, lowered⟩ := legible
      refine ⟨':', ':' :: name.toList, by simp [toText], rfl, fun rest stops => ?_⟩
      simp only [SimpleSelector.read, if_neg (show ':' ≠ '#' by decide),
        if_neg (show ':' ≠ '.' by decide), if_neg (show ':' ≠ '[' by decide), List.cons_append,
        PseudoClass.read_element identifier lowered stops]

end SimpleSelector

/-! ## Compounds -/

namespace Compound

variable {compound : Compound} {conditions : List SimpleSelector}

/-- What adding the conditions of one kind comes to. -/
theorem foldl_add_map {kind : Type} {make : kind → SimpleSelector}
    {extend : Compound → List kind → Compound} (none : ∀ compound, extend compound [] = compound)
    (more : ∀ compound item items,
      extend (compound.add (make item)) items = extend compound (item :: items))
    (compound : Compound) (items : List kind) :
    (items.map make).foldl add compound = extend compound items := by
  induction items generalizing compound with
  | nil => exact (none compound).symm
  | cons item items ih => rw [List.map_cons, List.foldl_cons, ih, more]

/-- A compound is put together from its type and its conditions. -/
theorem foldl_add_conditions (compound : Compound) :
    compound.conditions.foldl add (ofType? compound.type?) = compound := by
  have ids := @foldl_add_map _ SimpleSelector.id
    (fun base items => { base with ids := base.ids ++ items }) (by simp) (by simp [add])
  have classes := @foldl_add_map _ SimpleSelector.className
    (fun base items => { base with classes := base.classes ++ items }) (by simp) (by simp [add])
  have attributes := @foldl_add_map _ SimpleSelector.attribute
    (fun base items => { base with attributes := base.attributes ++ items })
    (by simp) (by simp [add])
  have pseudoClasses := @foldl_add_map _ SimpleSelector.pseudoClass
    (fun base items => { base with pseudoClasses := base.pseudoClasses ++ items })
    (by simp) (by simp [add])
  rw [Compound.conditions, List.foldl_append, List.foldl_append, List.foldl_append,
    List.foldl_append, ids, classes, attributes, pseudoClasses]
  obtain ⟨type?, _, _, _, _, pseudoElement?⟩ := compound
  cases pseudoElement? <;> rfl

theorem toList_toText (compound : Compound) : compound.toText.toList =
    ((compound.type?.map TypeSelector.toText).getD "").toList ++
      compound.conditions.flatMap fun condition => condition.toText.toList := by
  have element : ((compound.pseudoElement?.map ("::" ++ ·)).getD "").toList =
      (compound.pseudoElement?.toList.map SimpleSelector.pseudoElement).flatMap
        fun condition => condition.toText.toList := by
    cases compound.pseudoElement? <;> simp [SimpleSelector.toText]
  simp only [toText, Compound.conditions, String.toList_append, element, List.flatMap_append,
    String.toList_join, List.flatMap_map, List.append_assoc, SimpleSelector.toText]

/-- A condition begins with a character that goes on with no other condition. -/
theorem stopsCondition_of_starts {first : Char} (begins : SimpleSelector.starts first = true) :
    StopsCondition (first :: rest) := by
  simp only [SimpleSelector.starts, Bool.or_eq_true, beq_iff_eq] at begins
  rintro _ ⟨⟩
  rcases begins with ((rfl | rfl) | rfl) | rfl <;> decide

theorem stopsCondition_texts (legible : ∀ condition ∈ conditions, condition.Legible)
    (ends : EndsCompound more) :
    StopsCondition (conditions.flatMap (fun condition => condition.toText.toList) ++ more) := by
  cases conditions with
  | nil => exact ends.stopsCondition
  | cons condition conditions =>
      obtain ⟨first, tail, written, begins, -⟩ :=
        SimpleSelector.exists_read_toText (legible condition List.mem_cons_self)
      rw [List.flatMap_cons, written]
      exact stopsCondition_of_starts begins

theorem readConditions_texts (legible : ∀ condition ∈ conditions, condition.Legible)
    (ends : EndsCompound more) :
    readConditions compound
        (conditions.flatMap (fun condition => condition.toText.toList) ++ more) =
      .ok (conditions.foldl add compound, more) := by
  induction conditions generalizing compound with
  | nil => exact readConditions_of_endsCompound ends
  | cons condition conditions ih =>
      obtain ⟨here, others⟩ := List.forall_mem_cons.mp legible
      obtain ⟨first, tail, written, begins, read⟩ := SimpleSelector.exists_read_toText here
      rw [List.flatMap_cons, List.append_assoc, written, List.cons_append,
        readConditions_of_read begins (read _ (stopsCondition_texts others ends))]
      exact ih others

theorem readType?_of_head {chars : List Char} (notStar : chars.head? ≠ some '*') :
    readType? chars =
      if startsIdentifier chars then
        (some (.name (String.ofList (readName isBlank chars).1)), (readName isBlank chars).2)
      else (none, chars) := by
  unfold readType?
  split
  · exact absurd rfl notStar
  · rfl

/-- What is needed to go on with a compound that begins a text. -/
structure Begins (chars : List Char) : Prop where
  starts : Compound.starts chars = true
  shown : skipBlanks chars = chars

theorem begins_of_starts {first : Char} (condition : SimpleSelector.starts first = true) :
    Begins (first :: rest) where
  starts := by simp [Compound.starts, condition]
  shown := by
    simp only [SimpleSelector.starts, Bool.or_eq_true, beq_iff_eq] at condition
    rcases condition with ((rfl | rfl) | rfl) | rfl <;> rfl

/-- A legible compound is read back from its text. -/
theorem read_toText (legible : compound.Legible) (ends : EndsCompound more) :
    Begins (compound.toText.toList ++ more) ∧
      Compound.read (compound.toText.toList ++ more) = .ok (compound, more) := by
  have stops := (stopsCondition_texts legible.conditions ends).stopsName
  have conditions : readConditions (ofType? compound.type?)
      (compound.conditions.flatMap (fun condition => condition.toText.toList) ++ more) =
        .ok (compound, more) := by
    rw [readConditions_texts legible.conditions ends, foldl_add_conditions]
  rw [toList_toText, List.append_assoc, Compound.read]
  cases type : compound.type? with
  | none =>
      obtain ⟨condition, others, some⟩ := List.exists_cons_of_ne_nil (legible.something type)
      have first := legible.conditions condition (some ▸ List.mem_cons_self)
      obtain ⟨c, tail, written, begins, -⟩ := SimpleSelector.exists_read_toText first
      have untyped : ∀ behind, readType? (c :: behind) = (none, c :: behind) := by
        intro behind
        have stop : StopsCondition (c :: behind) := stopsCondition_of_starts begins
        rw [readType?_of_head, stop.stopsName.not_startsIdentifier, if_neg Bool.false_ne_true]
        rintro ⟨⟩
        cases begins
      rw [type, some, List.flatMap_cons, written, List.cons_append, List.cons_append] at conditions
      rw [some, List.flatMap_cons, written]
      simp only [Option.map_none, Option.getD_none, String.toList_empty, List.nil_append,
        List.cons_append, untyped]
      exact ⟨begins_of_starts begins, conditions⟩
  | some typeSelector =>
      cases typeSelector with
      | wildcard =>
          rw [type] at conditions
          exact ⟨⟨rfl, rfl⟩, conditions⟩
      | name name =>
          obtain ⟨identifier, shown⟩ := legible.type name type
          obtain ⟨first, others, characters, named⟩ := identifier.exists_cons
          have starts := identifier.startsIdentifier_append stops
          have notStar : (name.toList ++ (compound.conditions.flatMap
              (fun condition => condition.toText.toList) ++ more)).head? ≠ some '*' := by
            rw [characters]
            rintro ⟨⟩
            cases named
          have typed := readType?_of_head notStar
          rw [if_pos starts, identifier.readName_append stops, String.ofList_toList] at typed
          rw [type] at conditions
          simp only [Option.map_some, Option.getD_some, TypeSelector.toText,
            identifier.toList_identifier, typed]
          refine ⟨⟨?_, ?_⟩, conditions⟩
          · rw [characters, List.cons_append] at starts ⊢
            simp only [Compound.starts, starts, Bool.or_true, Bool.true_or]
          · rw [skipBlanks_eq_self_iff, characters] at shown ⊢
            exact shown

end Compound

/-! ## Alternatives -/

namespace ComplexSelector

variable {subject : Compound} {outer : List (Combinator × Compound)}

theorem readFrom_toText (legible : subject.Legible) (ends : EndsCompound more) :
    readFrom outer (subject.toText.toList ++ more) = resume ⟨subject, outer⟩ more := by
  obtain ⟨begins, read⟩ := Compound.read_toText legible ends
  exact readFrom_of_read begins.starts read

theorem readCombinator_separator {combinator : Combinator} (begins : Compound.Begins rest) :
    readCombinator (combinator.separator.toList ++ rest) = .ok (some combinator, rest) := by
  have descends : readCombinator (' ' :: rest) = .ok (some .descendant, rest) := by
    rw [readCombinator_space (by rw [begins.shown]; exact begins.starts), begins.shown]
  have joins : ∀ {c : Char} {combinator : Combinator}, Combinator.ofChar? c = some combinator →
      readCombinator (' ' :: c :: ' ' :: rest) = .ok (some combinator, rest) := by
    intro c combinator joins
    have skipped : skipBlanks (' ' :: rest) = rest := begins.shown
    rw [readCombinator_space_combinator joins, skipped]
  cases combinator with
  | descendant => exact descends
  | child => exact joins (c := '>') rfl
  | nextSibling => exact joins (c := '+') rfl
  | laterSibling => exact joins (c := '~') rfl

/-- A chain of compounds is read back, from the outermost inwards. -/
theorem readFrom_textFrom (legible : All Compound.Legible ⟨subject, outer⟩)
    (ends : EndsCompound more) :
    skipBlanks ((textFrom subject outer).toList ++ more) =
        (textFrom subject outer).toList ++ more ∧
      readFrom [] ((textFrom subject outer).toList ++ more) = resume ⟨subject, outer⟩ more := by
  induction outer generalizing subject more with
  | nil =>
      exact ⟨(Compound.read_toText legible.1 ends).1.shown, readFrom_toText legible.1 ends⟩
  | cons step outer ih =>
      obtain ⟨combinator, compound⟩ := step
      obtain ⟨here, outside⟩ := legible
      obtain ⟨first, others⟩ := List.forall_mem_cons.mp outside
      have inside := (Compound.read_toText here ends).1
      have separated : EndsCompound
          (combinator.separator.toList ++ (subject.toText.toList ++ more)) := by
        cases combinator <;> exact endsCompound_space
      obtain ⟨shown, read⟩ := ih ⟨first, others⟩ separated
      rw [textFrom, String.toList_append, String.toList_append, List.append_assoc,
        List.append_assoc, read, resume, readCombinator_separator inside]
      exact ⟨shown, readFrom_toText here ends⟩

/-- The text of a legible alternative is read as that alternative. -/
theorem isText_toText {selector : ComplexSelector} (legible : selector.All Compound.Legible) :
    selector.IsText selector.toText.toList := by
  intro rest comma
  have ends : EndsCompound rest := fun next head => Or.inr (comma next head)
  obtain ⟨shown, read⟩ := readFrom_textFrom legible ends
  rw [ComplexSelector.read, toText, shown, read]
  cases rest with
  | nil => rfl
  | cons next rest =>
      cases comma next rfl
      rfl

end ComplexSelector

/-! ## Lists -/

/-- What is read from a text without backslashes is read again, as the same list, from the text
that is written for it. -/
theorem SelectorList.ofText_toText {text : String} {selectors : SelectorList}
    (plain : Plain text.toList) (read : ofText text = .ok selectors) :
    ofText (toText selectors) = .ok selectors := by
  rw [ofText_eq_ok_iff] at read ⊢
  have legible := legible_of_readAll plain read
  have some : selectors ≠ [] := by
    rintro rfl
    exact readAll_ne_nil read
  refine readAll_intercalate (by simpa using some) ?_
  rw [List.forall₂_map_left_iff, List.forall₂_same]
  exact fun selector member => ComplexSelector.isText_toText (legible selector member)

/-- Two alternatives with an id that begins like a number, a quote inside a value, the least
step a formula can have and an argument with a comma. -/
def mixedSelectors : SelectorList :=
  [⟨⟨some .wildcard, [], [], [], [⟨"nth-child", some (.formula ⟨-2147483648, 1⟩)⟩], none⟩,
      [(.child,
        ⟨none, ["1"], ["a"], [⟨"t", some ⟨.contains, "say \"x\"", true⟩⟩], [], some "before"⟩)]⟩,
    ⟨⟨some (.name "p"), [], [], [], [⟨"is", some (.raw "b , '('")⟩], none⟩, []⟩]

theorem SelectorList.ofText_toText_mixed :
    ofText ":BEFORE#1[t *= 'say \"x\"'I].a>*:nth-child(-2147483648N + 1),p:is( b , '(' )" =
        .ok mixedSelectors ∧
      toText mixedSelectors =
        "#\\31 .a[t*=\"say \\\"x\\\"\" i]::before > *:nth-child(-2147483648n+1), p:is(b , '(')" ∧
      ofText (toText mixedSelectors) = .ok mixedSelectors := by
  have read :
      ofText ":BEFORE#1[t *= 'say \"x\"'I].a>*:nth-child(-2147483648N + 1),p:is( b , '(' )" =
        .ok mixedSelectors := by decide +kernel
  exact ⟨read, by decide +kernel, ofText_toText (by decide) read⟩

end SelectorTree
