import Mathlib.Data.List.Basic
import SelectorTree.Proofs.Stylesheet.Rows

/-!
# Recovery between semicolons

Semicolons divide a block into segments.  A name that no colon follows is passed over alone, and
reading goes on with what stands behind it.  So a segment yields a declaration not only where it
states one, but also where one stands behind names that belong to none; and it yields no other.
-/

namespace SelectorTree

/-- The values of a block in front of a semicolon or its end. -/
abbrev Segment : Type := List ComponentValue

namespace Segment

open Declaration (ends skipWhitespace splitImportant)
open ComponentValue (row afterRow isWhitespace tokensOfAll)
open Rule (opensBlock readBlock Block Plain)

variable {name : String} {token : Token} {tokens rest : List Token} {value : ComponentValue}
  {segment values : Segment} {declaration : Declaration}

/-! ## Segments -/

/-- The segments of a block, and the tokens behind its contents. -/
def split (tokens : List Token) : List Segment × List Token :=
  match _behind : afterRow ends tokens with
  | .semicolon :: rest => (row ends tokens :: (split rest).1, (split rest).2)
  | rest => ([row ends tokens], rest)
termination_by tokens.length
decreasing_by
  all_goals
    have bounded := ComponentValue.afterRow_length_le ends tokens
    rw [_behind] at bounded
    exact bounded

/-- The declaration that a segment states: blanks, a name, blanks, a colon and a value. -/
def stated? (segment : Segment) : Option Declaration :=
  match segment.dropWhile isWhitespace with
  | .token (.ident name) :: behind =>
    match behind.dropWhile isWhitespace with
    | .token .colon :: value =>
      let value := splitImportant (value.dropWhile isWhitespace)
      some ⟨name, value.1, value.2⟩
    | _ => none
  | _ => none

/-- A segment without the blanks at its start and the names there that no colon follows. -/
def dropWords : Segment → Segment
  | .token .whitespace :: rest => dropWords rest
  | .token (.ident name) :: rest =>
    match rest.dropWhile isWhitespace with
    | .token .colon :: _ => .token (.ident name) :: rest
    | _ => dropWords rest
  | values => values

/-- A value that is no block in braces and no at-keyword. -/
def isOrdinary : ComponentValue → Bool
  | .enclosed (.block .brace) _ => false
  | .token (.atKeyword _) => false
  | _ => true

/-- Whether a bracket itself holds a semicolon or a stray closing brace. -/
def holdsEnd : ComponentValue → Bool
  | .enclosed _ contents => contents.any fun value => ends value.firstToken
  | .token _ => false

/-- Whether nothing in the brackets of a segment is taken for a block or for its end: the
lookahead finds no block, and no bracket that is thrown away holds an end. -/
def isSettled (segment : Segment) : Bool :=
  !opensBlock 0 (tokensOfAll segment) && !(dropWords segment).head?.any holdsEnd

theorem dropWords_of_colon (colon : values.dropWhile isWhitespace = .token .colon :: segment) :
    dropWords (.token (.ident name) :: values) = .token (.ident name) :: values := by
  rw [dropWords, colon]

theorem dropWords_of_noColon
    (noColon : ∀ segment, values.dropWhile isWhitespace ≠ .token .colon :: segment) :
    dropWords (.token (.ident name) :: values) = dropWords values := by
  rw [dropWords]
  split
  · next colon => exact absurd colon (noColon _)
  · rfl

theorem stated?_of_colon (colon : values.dropWhile isWhitespace = .token .colon :: segment) :
    stated? (.token (.ident name) :: values) =
      let value := splitImportant (segment.dropWhile isWhitespace)
      some ⟨name, value.1, value.2⟩ := by
  have named : (ComponentValue.token (.ident name) :: values).dropWhile isWhitespace =
      .token (.ident name) :: values := rfl
  simp only [stated?, named, colon]

theorem stated?_of_noColon
    (noColon : ∀ segment, values.dropWhile isWhitespace ≠ .token .colon :: segment) :
    stated? (.token (.ident name) :: values) = none := by
  have named : (ComponentValue.token (.ident name) :: values).dropWhile isWhitespace =
      .token (.ident name) :: values := rfl
  simp only [stated?, named]

/-- What begins with neither a blank nor a name states nothing. -/
theorem stated?_dropWords_of_other (notBlank : value ≠ .token .whitespace)
    (notName : ∀ name, value ≠ .token (.ident name)) :
    dropWords (value :: values) = value :: values ∧ stated? (value :: values) = none := by
  have visible : ¬isWhitespace value = true :=
    fun blank => notBlank (ComponentValue.eq_of_isWhitespace blank)
  constructor
  · rw [dropWords.eq_def]
    split
    · next same => exact absurd (List.cons.inj same).1 notBlank
    · next same => exact absurd (List.cons.inj same).1 (notName _)
    · rfl
  · rw [stated?, List.dropWhile_cons_of_neg visible]
    split
    · next same => exact absurd (List.cons.inj same).1 (notName _)
    · rfl

/-- No name in front of a declaration that is stated is dropped. -/
theorem stated?_dropWords_of_stated (states : stated? segment = some declaration) :
    stated? (dropWords segment) = some declaration := by
  fun_induction dropWords segment with
  | case1 rest ih => exact ih states
  | case2 => exact states
  | case3 name rest noColon =>
      rw [stated?_of_noColon noColon] at states
      cases states
  | case4 => exact states

/-! ## One segment -/

theorem isSettled_iff : isSettled segment = true ↔
    opensBlock 0 (tokensOfAll segment) = false ∧
      (dropWords segment).head?.any holdsEnd = false := by
  rw [isSettled, Bool.and_eq_true, Bool.not_eq_true', Bool.not_eq_true']

theorem not_opensBlock_of_isSettled (settled : isSettled (row ends tokens) = true) :
    opensBlock 0 tokens = false :=
  (Rule.opensBlock_row tokens).trans (isSettled_iff.mp settled).1

/-- What is passed over in front of a segment does not unsettle it. -/
theorem isSettled_tail (settled : isSettled (.token token :: segment) = true) (plain : Plain token)
    (passes : dropWords (.token token :: segment) = dropWords segment) :
    isSettled segment = true := by
  obtain ⟨noBlock, noEnd⟩ := isSettled_iff.mp settled
  rw [passes] at noEnd
  exact isSettled_iff.mpr ⟨(Rule.opensBlock_cons plain _).symm.trans noBlock, noEnd⟩

theorem readBlock_skipWhitespace (tokens : List Token) :
    (readBlock (skipWhitespace tokens)).1 = (readBlock tokens).1 := by
  induction tokens with
  | nil => rfl
  | cons first rest ih =>
      by_cases blank : first = .whitespace
      · subst blank
        rw [Rule.readBlock_passed (Or.inl rfl)]
        exact ih
      · rw [skipWhitespace, List.dropWhile_cons_of_neg (by simpa [Token.isWhitespace] using blank)]

/-- A block yields at most a declaration before it is read on behind it. -/
def ReadsOn (tokens : List Token) (declaration? : Option Declaration) (rest : List Token) : Prop :=
  (readBlock tokens).1 =
    (Block.append ⟨declaration?.toList, []⟩ (readBlock rest).1.1, (readBlock rest).1.2)

theorem ReadsOn.of_eq (same : (readBlock tokens).1 = (readBlock rest).1) :
    ReadsOn tokens none rest := same

/-- A name before a colon begins a declaration, and its value ends the segment. -/
theorem readsOn_colon {behind : List Token}
    (noBlock : opensBlock 0 (.ident name :: rest) = false)
    (colon : skipWhitespace rest = .colon :: behind) :
    ReadsOn (.ident name :: rest) (stated? (dropWords (.token (.ident name) :: row ends rest)))
      (afterRow ends rest) := by
  have visible : ends .whitespace = false := rfl
  have stop : ends .colon = false := rfl
  obtain ⟨values, after⟩ := ComponentValue.row_skipWhitespace visible rest
  obtain ⟨valuesBehind, afterBehind⟩ := ComponentValue.row_skipWhitespace visible behind
  rw [colon, ComponentValue.row_of_single stop rfl] at values
  rw [colon, ComponentValue.afterRow_of_single stop rfl, ← afterBehind] at after
  have read : Declaration.read name rest =
      (some ⟨name, (splitImportant (row ends (skipWhitespace behind))).1,
        (splitImportant (row ends (skipWhitespace behind))).2⟩,
        afterRow ends (skipWhitespace behind)) := by
    rw [Declaration.read, colon]
  rw [dropWords_of_colon values.symm, stated?_of_colon values.symm, ← valuesBehind, ← after,
    ReadsOn, Rule.readBlock_declaration noBlock, read]
  rfl

/-- A name that no colon follows is passed over alone. -/
theorem readBlock_of_noColon (noBlock : opensBlock 0 (.ident name :: rest) = false)
    (noColon : ∀ behind, skipWhitespace rest ≠ .colon :: behind) :
    (readBlock (.ident name :: rest)).1 = (readBlock rest).1 := by
  have read : Declaration.read name rest = (none, skipWhitespace rest) := by
    rw [Declaration.read]
    split
    · next colon => exact absurd colon (noColon _)
    · rfl
  rw [Rule.readBlock_declaration noBlock, read, ← readBlock_skipWhitespace rest]
  rfl

/-- The colon behind a name is the same among the tokens and among the values. -/
theorem noColon_of_skipWhitespace (noColon : ∀ behind, skipWhitespace rest ≠ .colon :: behind) :
    ∀ segment, (row ends rest).dropWhile isWhitespace ≠ .token .colon :: segment := by
  intro segment begins
  rw [← (ComponentValue.row_skipWhitespace rfl rest).1] at begins
  cases tokens : skipWhitespace rest with
  | nil =>
      rw [tokens, ComponentValue.row_nil] at begins
      cases begins
  | cons first behind =>
      rw [tokens] at begins
      cases stop : ends first with
      | true =>
          rw [ComponentValue.row_of_stop stop] at begins
          cases begins
      | false =>
          obtain ⟨value, values, found, starts⟩ := ComponentValue.exists_row_cons stop behind
          rw [begins] at found
          cases found
          subst starts
          exact noColon behind tokens

theorem not_ends_opening (enclosure : Enclosure) : ends enclosure.opening = false := by
  cases enclosure with
  | function name => simp [ends, Enclosure.opening]
  | block bracket => cases bracket <;> rfl

/-- Of the closing brackets only a brace ends a declaration, and none opens anything. -/
theorem closing_of_not_brace {enclosure : Enclosure} (notBrace : enclosure ≠ .block .brace) :
    ends enclosure.closing = false ∧ Enclosure.ofToken? enclosure.closing = none := by
  cases enclosure with
  | function name => exact ⟨rfl, rfl⟩
  | block bracket =>
      cases bracket with
      | brace => exact absurd rfl notBrace
      | square => exact ⟨rfl, rfl⟩
      | paren => exact ⟨rfl, rfl⟩

/-- What is thrown away ends with the segment, unless a bracket that it begins with holds a token
that ends it. -/
theorem afterRow_tail {first : Token} (goes : ends first = false)
    (ordinary : (row ends (first :: rest)).all isOrdinary = true)
    (noEnd : (row ends (first :: rest)).head?.any holdsEnd = false) :
    afterRow ends rest = afterRow ends (first :: rest) := by
  cases opens : Enclosure.ofToken? first with
  | none => rw [ComponentValue.afterRow_of_single goes opens]
  | some enclosure =>
      rw [ComponentValue.row_of_opening goes opens] at ordinary noEnd
      have inside : ∀ token, .token token ∈ row (· == enclosure.closing) rest →
          ends token = false := by
        intro token member
        exact Bool.eq_false_iff.mpr (List.any_eq_false.mp noEnd _ member)
      have notBrace : enclosure ≠ .block .brace := by
        rintro rfl
        cases ordinary
      obtain ⟨goesOn, single⟩ := closing_of_not_brace notBrace
      have closes := ComponentValue.stops_of_afterRow (· == enclosure.closing) rest
      rw [ComponentValue.afterRow_of_opening goes opens,
        ComponentValue.afterRow_afterRow not_ends_opening rest inside]
      cases behind : afterRow (· == enclosure.closing) rest with
      | nil => rfl
      | cons next more =>
          rw [behind] at closes
          obtain rfl : next = enclosure.closing := by simpa using closes
          exact ComponentValue.afterRow_of_single goesOn single

/-- What begins with neither a blank nor a name is thrown away. -/
theorem readsOn_other {first : Token} (stop : ends first = false) (notBlank : first ≠ .whitespace)
    (notName : ∀ name, first ≠ .ident name)
    (ordinary : (row ends (first :: rest)).all isOrdinary = true)
    (settled : isSettled (row ends (first :: rest)) = true) :
    ReadsOn (first :: rest) (stated? (dropWords (row ends (first :: rest))))
      (afterRow ends (first :: rest)) := by
  obtain ⟨value, values, begins, starts⟩ := ComponentValue.exists_row_cons stop rest
  obtain ⟨kept, statesNone⟩ := @stated?_dropWords_of_other value values
    (fun same => notBlank (by rw [← starts, same]; rfl))
    (fun name same => notName name (by rw [← starts, same]; rfl))
  have notAt : ∀ name, first ≠ .atKeyword name := by
    rintro name rfl
    rw [begins, ComponentValue.eq_token_of_first starts rfl] at ordinary
    cases ordinary
  have notBrace : first ≠ .rightBrace := by
    rintro rfl
    cases stop
  have notPassed : ¬(first = .whitespace ∨ first = .semicolon) := by
    rintro (rfl | rfl)
    · exact notBlank rfl
    · cases stop
  have dropped := Rule.readBlock_dropped notBrace notPassed notAt notName
    (not_opensBlock_of_isSettled settled)
  have noEnd := (isSettled_iff.mp settled).2
  rw [begins, kept, ← begins] at noEnd
  rw [afterRow_tail stop ordinary noEnd] at dropped
  rw [begins, kept, statesNone]
  exact .of_eq dropped

/-- A segment yields the declaration that it states behind the names at its start, by induction
on its tokens: each step passes over a blank or a name, or ends the segment. -/
theorem readsOn_row (tokens : List Token)
    (ordinary : (row ends tokens).all isOrdinary = true)
    (settled : isSettled (row ends tokens) = true) :
    ReadsOn tokens (stated? (dropWords (row ends tokens))) (afterRow ends tokens) := by
  induction tokens with
  | nil =>
      rw [ComponentValue.row_nil, ComponentValue.afterRow_nil]
      exact .of_eq rfl
  | cons first rest ih =>
      have noBlock := not_opensBlock_of_isSettled settled
      cases stop : ends first with
      | true =>
          rw [ComponentValue.row_of_stop stop, ComponentValue.afterRow_of_stop stop]
          exact .of_eq rfl
      | false =>
      by_cases blank : first = .whitespace
      · subst blank
        rw [ComponentValue.row_of_single stop rfl] at ordinary settled ⊢
        rw [ComponentValue.afterRow_of_single stop rfl, ReadsOn, Rule.readBlock_passed (Or.inl rfl)]
        exact ih ordinary (isSettled_tail settled Rule.plain_whitespace rfl)
      by_cases named : ∃ name, first = .ident name
      · obtain ⟨name, rfl⟩ := named
        rw [ComponentValue.row_of_single stop rfl] at ordinary settled ⊢
        rw [ComponentValue.afterRow_of_single stop rfl]
        by_cases colon : ∃ behind, skipWhitespace rest = .colon :: behind
        · exact readsOn_colon noBlock colon.choose_spec
        · have noColon := fun behind same => colon ⟨behind, same⟩
          have passes := @dropWords_of_noColon name _ (noColon_of_skipWhitespace noColon)
          rw [passes, ReadsOn, readBlock_of_noColon noBlock noColon]
          exact ih ordinary (isSettled_tail settled (Rule.plain_ident name) passes)
      · exact readsOn_other stop blank (fun name same => named ⟨name, same⟩) ordinary settled

/-! ## A whole block -/

theorem split_of_semicolon (behind : afterRow ends tokens = .semicolon :: rest) :
    split tokens = (row ends tokens :: (split rest).1, (split rest).2) := by
  rw [split]
  split
  · next same =>
      rw [behind] at same
      cases same
      rfl
  · next other => exact absurd behind (other rest)

theorem split_of_end (last : ∀ rest, afterRow ends tokens ≠ .semicolon :: rest) :
    split tokens = ([row ends tokens], afterRow ends tokens) := by
  rw [split]
  split
  · next same => exact absurd same (last _)
  · rfl

theorem readBlock_of_end (ended : ∀ next ∈ tokens.head?, ends next = true)
    (last : ∀ rest, tokens ≠ .semicolon :: rest) :
    (readBlock tokens).1 = (⟨[], []⟩, tokens) := by
  cases tokens with
  | nil => rw [readBlock]
  | cons first rest =>
      have here := ended first rfl
      simp only [ends, Bool.or_eq_true, beq_iff_eq] at here
      rcases here with rfl | rfl
      · exact absurd rfl (last rest)
      · exact Rule.readBlock_rightBrace

theorem append_filterMap (segment : Segment) (segments : List Segment)
    (read : Segment → Option Declaration) :
    Block.append ⟨(read segment).toList, []⟩ ⟨segments.filterMap read, []⟩ =
      ⟨(segment :: segments).filterMap read, []⟩ := by
  cases found : read segment with
  | none => rw [List.filterMap_cons_none found]; rfl
  | some declaration => rw [List.filterMap_cons_some found]; rfl

/-- The segments of a block are read one after the other, up to where the block ends. -/
theorem readBlock_split (tokens : List Token)
    (ordinary : ∀ segment ∈ (split tokens).1, segment.all isOrdinary = true)
    (settled : ∀ segment ∈ (split tokens).1, isSettled segment = true) :
    (readBlock tokens).1 =
      (⟨(split tokens).1.filterMap (stated? ∘ dropWords), []⟩, (split tokens).2) := by
  by_cases semicolon : ∃ rest, afterRow ends tokens = .semicolon :: rest
  · obtain ⟨rest, behind⟩ := semicolon
    have shorter : rest.length < tokens.length := by
      have bounded := ComponentValue.afterRow_length_le ends tokens
      rw [behind] at bounded
      exact bounded
    rw [split_of_semicolon behind] at ordinary settled ⊢
    obtain ⟨firstOrdinary, laterOrdinary⟩ := List.forall_mem_cons.mp ordinary
    obtain ⟨firstSettled, laterSettled⟩ := List.forall_mem_cons.mp settled
    have here := readsOn_row tokens firstOrdinary firstSettled
    rw [ReadsOn, behind, Rule.readBlock_passed (Or.inr rfl),
      readBlock_split rest laterOrdinary laterSettled] at here
    rw [here, ← append_filterMap]
    rfl
  · have last := fun rest same => semicolon ⟨rest, same⟩
    have ended := readBlock_of_end (ComponentValue.stops_of_afterRow ends tokens) last
    rw [split_of_end last] at ordinary settled ⊢
    have here := readsOn_row tokens (ordinary _ List.mem_cons_self) (settled _ List.mem_cons_self)
    rw [ReadsOn, ended] at here
    rw [here, ← append_filterMap]
    rfl
termination_by tokens.length

section filterMap

variable {Found : Type} {read other : Segment → Option Found}
  (keeps : ∀ segment found, read segment = some found → other segment = some found)
include keeps

theorem sublist_filterMap (segments : List Segment) :
    (segments.filterMap read).Sublist (segments.filterMap other) := by
  induction segments with
  | nil => exact .slnil
  | cons segment segments ih =>
      cases here : read segment with
      | none =>
          rw [List.filterMap_cons_none here, List.filterMap_cons]
          split
          · exact ih
          · exact ih.cons _
      | some found =>
          rw [List.filterMap_cons_some here, List.filterMap_cons_some (keeps segment found here)]
          exact ih.cons_cons found

/-- Of two readings, one of which keeps what the other finds, it finds the same in all segments if
and only if it adds nothing in any. -/
theorem filterMap_eq_iff {segments : List Segment} :
    segments.filterMap other = segments.filterMap read ↔
      ∀ segment ∈ segments, read segment = none → other segment = none := by
  constructor
  · intro same
    induction segments with
    | nil => simp
    | cons segment segments ih =>
        rw [List.forall_mem_cons]
        cases here : read segment with
        | none =>
            rw [List.filterMap_cons_none here] at same
            cases there : other segment with
            | none =>
                rw [List.filterMap_cons_none there] at same
                exact ⟨fun _ => rfl, ih same⟩
            | some added =>
                have fewer := (sublist_filterMap keeps segments).length_le
                rw [List.filterMap_cons_some there] at same
                rw [← same, List.length_cons] at fewer
                exact absurd fewer (Nat.not_succ_le_self _)
        | some found =>
            have there := keeps segment found here
            rw [List.filterMap_cons_some here, List.filterMap_cons_some there] at same
            exact ⟨fun none => (Option.some_ne_none _ none).elim, ih (List.cons.inj same).2⟩
  · intro addsNone
    refine List.filterMap_congr fun segment member => ?_
    cases here : read segment with
    | none => exact addsNone segment member here
    | some found => exact keeps segment found here

end filterMap

/-- A block of segments without blocks and at-keywords, in whose brackets nothing looks like a
block or an end, yields the declarations that its segments state behind the names at their start.
So these are the stated declarations if and only if no declaration stands behind such a name. -/
theorem readBlock_segments (tokens : List Token)
    (ordinary : ∀ segment ∈ (split tokens).1, segment.all isOrdinary = true)
    (settled : ∀ segment ∈ (split tokens).1, isSettled segment = true) :
    (readBlock tokens).1 =
        (⟨(split tokens).1.filterMap (stated? ∘ dropWords), []⟩, (split tokens).2) ∧
      ((readBlock tokens).1.1.declarations = (split tokens).1.filterMap stated? ↔
        ∀ segment ∈ (split tokens).1, stated? segment = none →
          stated? (dropWords segment) = none) := by
  have read := readBlock_split tokens ordinary settled
  refine ⟨read, ?_⟩
  rw [read]
  exact filterMap_eq_iff fun segment found => stated?_dropWords_of_stated

/-- A segment that begins with a bracket is dropped, and the next one is read. -/
theorem readBlock_segments_bracket :
    (readBlock [.leftParen, .colon, .rightParen, .semicolon, .ident "a", .colon]).1.1.declarations =
      (split [.leftParen, .colon, .rightParen, .semicolon, .ident "a", .colon]).1.filterMap
        stated? ∧
      (readBlock [.leftParen, .colon, .rightParen, .semicolon, .ident "a",
        .colon]).1.1.declarations.map Declaration.name = ["a"] := by
  have stated := (readBlock_segments
    [.leftParen, .colon, .rightParen, .semicolon, .ident "a", .colon]
    (by decide +kernel) (by decide +kernel)).2.mpr (by decide +kernel)
  refine ⟨stated, ?_⟩
  rw [stated]
  decide +kernel

/-- A declaration is found behind a name, or behind a semicolon in brackets, where none is stated;
and one that is stated is lost where brackets that do not match make it look like a block. -/
theorem declarations_of_segments :
    (((split [.ident "a", .whitespace, .ident "b", .colon, .ident "c"]).1.filterMap stated?).map
          Declaration.name = [] ∧
      ((split [.ident "a", .whitespace, .ident "b", .colon, .ident "c"]).1.all
          fun segment => segment.all isOrdinary) = true ∧
      (readBlock [.ident "a", .whitespace, .ident "b", .colon, .ident "c"]).1.1.declarations.map
          Declaration.name = ["b"]) ∧
    (((split [.leftParen, .semicolon, .ident "b", .colon, .rightParen]).1.filterMap stated?).map
          Declaration.name = [] ∧
      ((split [.leftParen, .semicolon, .ident "b", .colon, .rightParen]).1.all
          fun segment => segment.all isOrdinary) = true ∧
      (readBlock [.leftParen, .semicolon, .ident "b", .colon, .rightParen]).1.1.declarations.map
          Declaration.name = ["b"]) ∧
    (((split [.ident "a", .colon, .leftBracket, .rightParen, .leftBrace, .rightBrace,
          .rightBracket]).1.filterMap stated?).map Declaration.name = ["a"] ∧
      ((split [.ident "a", .colon, .leftBracket, .rightParen, .leftBrace, .rightBrace,
          .rightBracket]).1.all fun segment => segment.all isOrdinary) = true ∧
      (readBlock [.ident "a", .colon, .leftBracket, .rightParen, .leftBrace, .rightBrace,
          .rightBracket]).1.1.declarations.map Declaration.name = []) := by
  decide +kernel

end Segment

end SelectorTree
