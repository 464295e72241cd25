import SelectorTree.Selector.Basic
import SelectorTree.Text.Name
import SelectorTree.Text.Quoted

/-!
# Reading selectors

A selector list is read from left to right, and the first thing that does not
fit is the error of the whole list.  Every reader consumes a proper beginning of
its input.  Readers report where they stopped by how much input was left; the
offset in the text follows from its length.
-/

namespace SelectorTree

open Text

/-- Why a text is not a selector list. -/
inductive SelectorError where
  | empty
  | danglingCombinator (combinator : Char)
  | unbalanced (bracket : Char)
  | unterminatedString
  | expectedIdentifier (after : Char)
  | unexpectedCharacter (character : Char) (offset : Nat)
deriving DecidableEq

def SelectorError.message : SelectorError → String
  | empty => "empty selector"
  | danglingCombinator combinator =>
    "combinator '" ++ combinator.toString ++ "' is missing an operand"
  | unbalanced bracket => "unbalanced '" ++ bracket.toString ++ "'"
  | unterminatedString => "unterminated string"
  | expectedIdentifier after => "expected identifier after '" ++ after.toString ++ "'"
  | unexpectedCharacter character offset =>
    "unexpected character '" ++ character.toString ++ "' at offset " ++ toString offset

/-- Why a reader stopped.  `unexpected` holds the number of characters that
were left, the unexpected one included. -/
inductive ReadFault where
  | empty
  | danglingCombinator (combinator : Char)
  | unbalanced (bracket : Char)
  | unterminatedString
  | expectedIdentifier (after : Char)
  | unexpected (character : Char) (remaining : Nat)
deriving DecidableEq

namespace ReadFault

/-- The fault of finding this input where something else is needed. -/
def unexpectedAt : List Char → ReadFault
  | [] => empty
  | c :: rest => unexpected c (rest.length + 1)

/-- The error in a text of a given length. -/
def toError (size : Nat) : ReadFault → SelectorError
  | empty => .empty
  | danglingCombinator combinator => .danglingCombinator combinator
  | unbalanced bracket => .unbalanced bracket
  | unterminatedString => .unterminatedString
  | expectedIdentifier after => .expectedIdentifier after
  | unexpected character remaining => .unexpectedCharacter character (size - remaining)

end ReadFault

/-- What a reader answers: a result with the input behind it, or a fault. -/
abbrev Reading (α : Type) : Type := Except ReadFault (α × List Char)

def skipBlanks (chars : List Char) : List Char := chars.dropWhile isBlank

theorem skipBlanks_suffix (chars : List Char) : skipBlanks chars <:+ chars :=
  List.dropWhile_suffix isBlank

namespace AttributeSelector

/-- The operator behind an attribute's name; `none` stands for the bracket
that closes a selector without one. -/
def readOperator : List Char → Reading (Option AttributeOperator)
  | [] => .error (.unbalanced '[')
  | ']' :: rest => .ok (none, rest)
  | '=' :: rest => .ok (some .equals, rest)
  | '~' :: '=' :: rest => .ok (some .includes, rest)
  | '|' :: '=' :: rest => .ok (some .dashMatch, rest)
  | '^' :: '=' :: rest => .ok (some .beginsWith, rest)
  | '$' :: '=' :: rest => .ok (some .endsWith, rest)
  | '*' :: '=' :: rest => .ok (some .contains, rest)
  | chars => .error (.unexpectedAt chars)

/-- A quoted string; it has to be closed. -/
def readString (quote : Char) (chars : List Char) : Reading (List Char) :=
  let body := readQuoted .selector quote chars
  if body.2.1 = .closed then .ok (body.1, body.2.2) else .error .unterminatedString

/-- The value behind an operator: a string or an identifier. -/
def readValue : List Char → Reading (List Char)
  | [] => .error (.unbalanced '[')
  | c :: rest =>
    if c = '"' ∨ c = '\'' then readString c rest
    else if startsIdentifier (c :: rest) then .ok (readName isBlank (c :: rest))
    else .error (.unexpectedAt (c :: rest))

/-- The flag behind a value: whether ASCII case is ignored. -/
def readFlag : List Char → Bool × List Char
  | [] => (false, [])
  | c :: rest =>
    if c = 'i' ∨ c = 'I' then (true, skipBlanks rest)
    else if c = 's' ∨ c = 'S' then (false, skipBlanks rest)
    else (false, c :: rest)

def readClosing : List Char → Reading Unit
  | [] => .error (.unbalanced '[')
  | ']' :: rest => .ok ((), rest)
  | chars => .error (.unexpectedAt chars)

/-- The test behind an operator, the closing bracket included. -/
def readTest (operator : AttributeOperator) (chars : List Char) :
    Except ReadFault (AttributeTest × List Char) := do
  let value ← readValue (skipBlanks chars)
  let flag := readFlag (skipBlanks value.2)
  let closing ← readClosing flag.2
  return (⟨operator, String.ofList value.1, flag.1⟩, closing.2)

/-- An attribute selector behind its opening bracket. -/
def read (chars : List Char) : Except ReadFault (AttributeSelector × List Char) := do
  let start := skipBlanks chars
  if startsIdentifier start then
    let name := readName isBlank start
    let operator ← readOperator (skipBlanks name.2)
    match operator.1 with
    | none => return (⟨String.ofList name.1, none⟩, operator.2)
    | some comparison =>
      let test ← readTest comparison operator.2
      return (⟨String.ofList name.1, some test.1⟩, test.2)
  else if start = [] then throw (.unbalanced '[')
  else throw (.expectedIdentifier '[')

end AttributeSelector

namespace PseudoClass

/-- The characters of an argument up to the parenthesis that closes it,
`depth` more being open.  Strings are taken with their escapes resolved, and an
escape elsewhere stays as it is. -/
def readArgument (depth : Nat) : List Char → Reading (List Char)
  | [] => .error (.unbalanced '(')
  | c :: rest =>
    if c = ')' then
      match depth with
      | 0 => .ok ([], rest)
      | outer + 1 => (readArgument outer rest).map fun tail => (c :: tail.1, tail.2)
    else if c = '(' then
      (readArgument (depth + 1) rest).map fun tail => (c :: tail.1, tail.2)
    else if c = '"' ∨ c = '\'' then
      let body := readQuoted .selector c rest
      if body.2.1 = .closed then
        (readArgument depth body.2.2).map fun tail => (c :: body.1 ++ c :: tail.1, tail.2)
      else .error .unterminatedString
    else if c = '\\' then
      match rest with
      | [] => .error (.unbalanced '(')
      | escaped :: behind =>
        (readArgument depth behind).map fun tail => (c :: escaped :: tail.1, tail.2)
    else (readArgument depth rest).map fun tail => (c :: tail.1, tail.2)
termination_by chars => chars.length
decreasing_by
  · exact Nat.lt_succ_self _
  · exact Nat.lt_succ_self _
  · exact Nat.lt_succ_of_le (readQuoted_length_le .selector c rest)
  · exact Nat.lt_succ_of_le (Nat.le_succ _)
  · exact Nat.lt_succ_self _

/-- The argument in parentheses, if one follows. -/
def readArgument? : List Char → Reading (Option String)
  | '(' :: rest =>
    (readArgument 0 rest).map fun argument =>
      (some (String.ofList (trimChars argument.1)), argument.2)
  | chars => .ok (none, chars)

/-- An argument is a formula if it spells one. -/
def argumentOf (text : String) : PseudoArgument :=
  match Formula.ofText? text with
  | some formula => .formula formula
  | none => .raw text

/-- The pseudo-elements that may be written with a single colon. -/
def singleColonElements : List String := ["before", "after", "first-line", "first-letter"]

/-- Splits off the second colon of a pseudo-element. -/
def splitColon : List Char → Bool × List Char
  | ':' :: rest => (true, rest)
  | chars => (false, chars)

/-- A pseudo-class or pseudo-element behind its first colon. -/
def read (chars : List Char) : Except ReadFault (SimpleSelector × List Char) := do
  let start := splitColon chars
  if startsIdentifier start.2 then
    let written := readName isBlank start.2
    let name := lower (String.ofList written.1)
    let argument ← readArgument? written.2
    if start.1 || singleColonElements.contains name then
      return (.pseudoElement name, argument.2)
    else
      return (.pseudoClass ⟨name, argument.1.map argumentOf⟩, argument.2)
  else throw (.expectedIdentifier ':')

end PseudoClass

namespace SimpleSelector

def starts (c : Char) : Bool := c == '#' || c == '.' || c == '[' || c == ':'

/-- The id behind a `#`; it may begin like a number. -/
def readId (chars : List Char) : Reading SimpleSelector :=
  if startsName chars then
    let name := readName isBlank chars
    .ok (.id (String.ofList name.1), name.2)
  else .error (.expectedIdentifier '#')

/-- The class behind a point. -/
def readClass (chars : List Char) : Reading SimpleSelector :=
  if startsIdentifier chars then
    let name := readName isBlank chars
    .ok (.className (String.ofList name.1), name.2)
  else .error (.expectedIdentifier '.')

def read (c : Char) (rest : List Char) : Reading SimpleSelector :=
  if c = '#' then readId rest
  else if c = '.' then readClass rest
  else if c = '[' then
    (AttributeSelector.read rest).map fun selector => (.attribute selector.1, selector.2)
  else PseudoClass.read rest

end SimpleSelector

/-! ## Readers leave an end of their input -/

theorem bind_eq_ok {α β : Type} {reading : Except ReadFault α}
    {next : α → Except ReadFault β} {result : β} (run : reading >>= next = .ok result) :
    ∃ value, reading = .ok value ∧ next value = .ok result := by
  cases reading with
  | error fault => cases run
  | ok value => exact ⟨value, rfl, run⟩

theorem map_eq_ok {α β : Type} {reading : Except ReadFault α}
    {change : α → β} {result : β} (run : reading.map change = .ok result) :
    ∃ value, reading = .ok value ∧ change value = result := by
  cases reading with
  | error fault => cases run
  | ok value => exact ⟨value, rfl, Except.ok.inj run⟩

namespace AttributeSelector

theorem readOperator_suffix {chars rest : List Char} {operator : Option AttributeOperator}
    (read : readOperator chars = .ok (operator, rest)) : rest <:+ chars := by
  unfold readOperator at read
  split at read <;> cases read
  · exact List.suffix_cons _ _
  · exact List.suffix_cons _ _
  all_goals exact (List.suffix_cons _ _).trans (List.suffix_cons _ _)

theorem readString_suffix {quote : Char} {chars value rest : List Char}
    (read : readString quote chars = .ok (value, rest)) : rest <:+ chars := by
  simp only [readString] at read
  split at read
  · cases read
    exact readQuoted_suffix .selector quote chars
  · cases read

theorem readValue_suffix {chars value rest : List Char}
    (read : readValue chars = .ok (value, rest)) : rest <:+ chars := by
  cases chars with
  | nil => cases read
  | cons c chars =>
    rw [readValue] at read
    split at read
    · exact (readString_suffix read).trans (List.suffix_cons c chars)
    · split at read
      · have named := congrArg Prod.snd (Except.ok.inj read)
        subst named
        exact readName_suffix isBlank (c :: chars)
      · cases read

theorem readFlag_suffix (chars : List Char) : (readFlag chars).2 <:+ chars := by
  cases chars with
  | nil => exact List.suffix_rfl
  | cons c rest =>
    rw [readFlag]
    split
    · exact (skipBlanks_suffix rest).trans (List.suffix_cons c rest)
    · split
      · exact (skipBlanks_suffix rest).trans (List.suffix_cons c rest)
      · exact List.suffix_rfl

theorem readClosing_suffix {chars rest : List Char}
    (read : readClosing chars = .ok ((), rest)) : rest <:+ chars := by
  unfold readClosing at read
  split at read <;> cases read
  exact List.suffix_cons _ _

theorem readTest_suffix {operator : AttributeOperator} {chars rest : List Char}
    {test : AttributeTest} (read : readTest operator chars = .ok (test, rest)) :
    rest <:+ chars := by
  obtain ⟨value, valueRead, read⟩ := bind_eq_ok read
  obtain ⟨closing, closingRead, read⟩ := bind_eq_ok read
  cases read
  exact (((readClosing_suffix closingRead).trans (readFlag_suffix _)).trans
    (skipBlanks_suffix _)).trans ((readValue_suffix valueRead).trans (skipBlanks_suffix _))

theorem read_suffix {chars rest : List Char} {selector : AttributeSelector}
    (read : AttributeSelector.read chars = .ok (selector, rest)) : rest <:+ chars := by
  simp only [AttributeSelector.read] at read
  split at read
  · obtain ⟨operator, operatorRead, read⟩ := bind_eq_ok read
    have named : operator.2 <:+ chars :=
      (((readOperator_suffix operatorRead).trans (skipBlanks_suffix _)).trans
        (readName_suffix isBlank _)).trans (skipBlanks_suffix _)
    split at read
    · cases read
      exact named
    · obtain ⟨test, testRead, read⟩ := bind_eq_ok read
      cases read
      exact (readTest_suffix testRead).trans named
  · split at read <;> cases read

end AttributeSelector

namespace PseudoClass

theorem readArgument_suffix {depth : Nat} {chars argument rest : List Char}
    (read : readArgument depth chars = .ok (argument, rest)) : rest <:+ chars := by
  fun_induction readArgument depth chars generalizing argument rest with
  | case1 => cases read
  | case2 chars =>
    cases read
    exact List.suffix_cons _ _
  | case3 chars outer ih =>
    obtain ⟨tail, tailRead, equal⟩ := map_eq_ok read
    cases equal
    exact (ih tailRead).trans (List.suffix_cons _ _)
  | case4 depth chars _ ih =>
    obtain ⟨tail, tailRead, equal⟩ := map_eq_ok read
    cases equal
    exact (ih tailRead).trans (List.suffix_cons _ _)
  | case5 depth c chars =>
    rename_i ih
    obtain ⟨tail, tailRead, equal⟩ := map_eq_ok read
    cases equal
    have quoted := readQuoted_suffix .selector c chars
    exact ((ih tailRead).trans quoted).trans (List.suffix_cons c chars)
  | case6 => cases read
  | case7 => cases read
  | case8 depth escaped chars _ _ _ ih =>
    obtain ⟨tail, tailRead, equal⟩ := map_eq_ok read
    cases equal
    exact ((ih tailRead).trans (List.suffix_cons _ _)).trans (List.suffix_cons _ _)
  | case9 depth c chars _ _ _ _ ih =>
    obtain ⟨tail, tailRead, equal⟩ := map_eq_ok read
    cases equal
    exact (ih tailRead).trans (List.suffix_cons c chars)

theorem readArgument?_suffix {chars rest : List Char} {argument : Option String}
    (read : readArgument? chars = .ok (argument, rest)) : rest <:+ chars := by
  unfold readArgument? at read
  split at read
  · obtain ⟨raw, rawRead, equal⟩ := map_eq_ok read
    cases equal
    exact (readArgument_suffix rawRead).trans (List.suffix_cons _ _)
  · cases read
    exact List.suffix_rfl

theorem splitColon_suffix (chars : List Char) : (splitColon chars).2 <:+ chars := by
  unfold splitColon
  split
  · exact List.suffix_cons _ _
  · exact List.suffix_rfl

theorem read_suffix {chars rest : List Char} {selector : SimpleSelector}
    (read : PseudoClass.read chars = .ok (selector, rest)) : rest <:+ chars := by
  simp only [PseudoClass.read] at read
  split at read
  · obtain ⟨argument, argumentRead, read⟩ := bind_eq_ok read
    have named : argument.2 <:+ chars :=
      ((readArgument?_suffix argumentRead).trans (readName_suffix isBlank _)).trans
        (splitColon_suffix chars)
    split at read <;> cases read <;> exact named
  · cases read

end PseudoClass

namespace SimpleSelector

theorem read_suffix {c : Char} {chars rest : List Char} {selector : SimpleSelector}
    (read : SimpleSelector.read c chars = .ok (selector, rest)) : rest <:+ chars := by
  unfold SimpleSelector.read at read
  split at read
  · simp only [readId] at read
    split at read <;> cases read
    exact readName_suffix isBlank chars
  split at read
  · simp only [readClass] at read
    split at read <;> cases read
    exact readName_suffix isBlank chars
  split at read
  · obtain ⟨condition, conditionRead, equal⟩ := map_eq_ok read
    cases equal
    exact AttributeSelector.read_suffix conditionRead
  · exact PseudoClass.read_suffix read

end SimpleSelector

/-! ## Compounds, alternatives and lists -/

namespace Compound

/-- Reads conditions for as long as there are any and adds them to a compound. -/
def readConditions (compound : Compound) : List Char → Reading Compound
  | [] => .ok (compound, [])
  | c :: rest =>
    if SimpleSelector.starts c then
      match _read : SimpleSelector.read c rest with
      | .error fault => .error fault
      | .ok (condition, behind) => readConditions (compound.add condition) behind
    else .ok (compound, c :: rest)
termination_by chars => chars.length
decreasing_by
  exact Nat.lt_succ_of_le (SimpleSelector.read_suffix _read).length_le

/-- The type at the start of a compound, if there is one. -/
def readType? : List Char → Option TypeSelector × List Char
  | '*' :: rest => (some .wildcard, rest)
  | chars =>
    if startsIdentifier chars then
      let name := readName isBlank chars
      (some (.name (String.ofList name.1)), name.2)
    else (none, chars)

def starts : List Char → Bool
  | [] => false
  | c :: rest => c == '*' || startsIdentifier (c :: rest) || SimpleSelector.starts c

def read (chars : List Char) : Reading Compound :=
  let type := readType? chars
  readConditions (ofType? type.1) type.2

theorem readConditions_suffix {compound result : Compound} {chars rest : List Char}
    (read : readConditions compound chars = .ok (result, rest)) : rest <:+ chars := by
  fun_induction readConditions compound chars with
  | case1 =>
    cases read
    exact List.suffix_rfl
  | case2 => cases read
  | case3 compound c chars _ condition behind conditionRead ih =>
    exact ((ih read).trans (SimpleSelector.read_suffix conditionRead)).trans
      (List.suffix_cons c chars)
  | case4 =>
    cases read
    exact List.suffix_rfl

theorem readType?_suffix (chars : List Char) : (readType? chars).2 <:+ chars := by
  unfold readType?
  split
  · exact List.suffix_cons _ _
  · split
    · exact readName_suffix isBlank _
    · exact List.suffix_rfl

theorem read_length_lt {compound : Compound} {chars rest : List Char}
    (begins : starts chars = true) (read : Compound.read chars = .ok (compound, rest)) :
    rest.length < chars.length := by
  cases chars with
  | nil => cases begins
  | cons c tail =>
    have conditions : rest <:+ (readType? (c :: tail)).2 := readConditions_suffix read
    by_cases star : c = '*'
    · subst star
      exact Nat.lt_succ_of_le conditions.length_le
    by_cases named : startsIdentifier (c :: tail) = true
    · have type : (readType? (c :: tail)).2 = (readName isBlank (c :: tail)).2 := by
        unfold readType?
        split
        · next equal => exact absurd (List.cons.inj equal).1 star
        · rw [if_pos named]
      rw [type] at conditions
      exact Nat.lt_of_le_of_lt conditions.length_le
        (readName_length_lt isBlank (startsName_of_startsIdentifier named))
    · have condition : SimpleSelector.starts c = true := by
        simpa [starts, star, named] using begins
      have type : readType? (c :: tail) = (none, c :: tail) := by
        unfold readType?
        split
        · next equal => exact absurd (List.cons.inj equal).1 star
        · rw [if_neg named]
      simp only [Compound.read, type] at read
      rw [readConditions, if_pos condition] at read
      split at read
      · cases read
      · next conditionRead =>
        exact Nat.lt_succ_of_le ((readConditions_suffix read).trans
          (SimpleSelector.read_suffix conditionRead)).length_le

end Compound

namespace ComplexSelector

/-- The fault of a missing compound.  At the end of an alternative it lies with
the combinator before, if there is one. -/
def missing (before : Option Combinator) (chars : List Char) : ReadFault :=
  match chars with
  | [] => (before.map fun combinator => .danglingCombinator combinator.char).getD .empty
  | c :: _ =>
    if c = ',' then (before.map fun combinator => .danglingCombinator combinator.char).getD .empty
    else if (Combinator.ofChar? c).isSome then .danglingCombinator c
    else .unexpectedAt chars

/-- The combinator between a compound and the next one; `none` at the end of
an alternative.  White space alone joins a descendant. -/
def readCombinator (chars : List Char) : Reading (Option Combinator) :=
  match skipBlanks chars with
  | [] => .ok (none, [])
  | c :: rest =>
    match Combinator.ofChar? c with
    | some combinator => .ok (some combinator, skipBlanks rest)
    | none =>
      if c = ',' then .ok (none, c :: rest)
      else if chars.head?.any isBlank then .ok (some .descendant, c :: rest)
      else .error (.unexpectedAt (c :: rest))

theorem readCombinator_suffix {chars rest : List Char} {combinator : Option Combinator}
    (read : readCombinator chars = .ok (combinator, rest)) : rest <:+ chars := by
  have skipped := skipBlanks_suffix chars
  unfold readCombinator at read
  split at read
  · cases read
    exact List.nil_suffix
  · next c behind blanks =>
    rw [blanks] at skipped
    split at read
    · cases read
      exact ((skipBlanks_suffix behind).trans (List.suffix_cons c behind)).trans skipped
    · split at read
      · cases read
        exact skipped
      · split at read
        · cases read
          exact skipped
        · cases read

/-- Reads compounds up to the end of an alternative; `outer` holds those read
before, nearest first. -/
def readFrom (outer : List (Combinator × Compound)) (chars : List Char) :
    Reading ComplexSelector :=
  if _begins : Compound.starts chars = true then
    match _compound : Compound.read chars with
    | .error fault => .error fault
    | .ok (compound, behind) =>
      match _combinator : readCombinator behind with
      | .error fault => .error fault
      | .ok (none, rest) => .ok (⟨compound, outer⟩, rest)
      | .ok (some combinator, rest) => readFrom ((combinator, compound) :: outer) rest
  else .error (missing (outer.head?.map Prod.fst) chars)
termination_by chars.length
decreasing_by
  exact Nat.lt_of_le_of_lt (readCombinator_suffix _combinator).length_le
    (Compound.read_length_lt _begins _compound)

def read (chars : List Char) : Reading ComplexSelector := readFrom [] (skipBlanks chars)

theorem readFrom_suffix {outer : List (Combinator × Compound)} {chars rest : List Char}
    {selector : ComplexSelector} (read : readFrom outer chars = .ok (selector, rest)) :
    rest.length < chars.length := by
  fun_induction readFrom outer chars with
  | case1 => cases read
  | case2 => cases read
  | case3 outer chars begins compound behind compoundRead rest combinatorRead =>
    cases read
    exact Nat.lt_of_le_of_lt (readCombinator_suffix combinatorRead).length_le
      (Compound.read_length_lt begins compoundRead)
  | case4 outer chars begins compound behind compoundRead combinator rest combinatorRead ih =>
    have shorter := (readCombinator_suffix combinatorRead).length_le
    exact Nat.lt_trans (ih read)
      (Nat.lt_of_le_of_lt shorter (Compound.read_length_lt begins compoundRead))
  | case5 => cases read

end ComplexSelector

namespace SelectorList

def readAll (chars : List Char) : Except ReadFault SelectorList :=
  match _read : ComplexSelector.read chars with
  | .error fault => .error fault
  | .ok (selector, []) => .ok [selector]
  | .ok (selector, c :: rest) =>
    if c = ',' then (readAll rest).map (selector :: ·) else .error (.unexpectedAt (c :: rest))
termination_by chars.length
decreasing_by
  have shorter := ComplexSelector.readFrom_suffix _read
  have skipped := (skipBlanks_suffix chars).length_le
  simp only [List.length_cons] at shorter
  omega

def ofText (text : String) : Except SelectorError SelectorList :=
  (readAll text.toList).mapError (ReadFault.toError text.toList.length)

end SelectorList

end SelectorTree
