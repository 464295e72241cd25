import Mathlib.Data.List.TakeWhile
import SelectorTree.Proofs.Stylesheet.Reading

/-!
# Reading takes every token once

Every loop of the reader takes its input in turns, and each turn takes at least one token.  The
relations below say which tokens a value, a declaration or a rule was read from, piece by piece
and in order.  So nothing is lost, read twice or moved, whatever brackets are open or stray.
-/

namespace SelectorTree

/-- A loop takes a part of its input in turns.  Each turn takes at least one token, gives one
piece, and sees the tokens behind it. -/
inductive Turns {Piece : Type} (Turn : Piece → List Token → List Token → Prop) :
    List Piece → List Token → List Token → Prop where
  | done {rest} : Turns Turn [] [] rest
  | turn {piece pieces used others rest} (advances : used ≠ [])
      (first : Turn piece used (others ++ rest)) (later : Turns Turn pieces others rest) :
      Turns Turn (piece :: pieces) (used ++ others) rest

/-- A loop that takes nothing gives nothing. -/
theorem Turns.eq_nil {Piece : Type} {Turn : Piece → List Token → List Token → Prop}
    {pieces : List Piece} {used rest : List Token} (turns : Turns Turn pieces used rest)
    (nothing : used = []) : pieces = [] := by
  cases turns with
  | done => rfl
  | turn advances _ _ => exact absurd (List.append_eq_nil_iff.mp nothing).1 advances

namespace ComponentValue

variable {stops : Token → Bool} {tokens used rest : List Token} {values : List ComponentValue}

/-! ## Values -/

/-- The tokens that a value was read from, and those behind it.  Only at the end of the input a
bracket may stay open. -/
inductive Written : ComponentValue → List Token → List Token → Prop where
  | token {single rest} (alone : Enclosure.ofToken? single = none) :
      Written (.token single) [single] rest
  | closed {enclosure contents inner rest}
      (inside : Turns Written contents inner (enclosure.closing :: rest)) :
      Written (.enclosed enclosure contents)
        (enclosure.opening :: inner ++ [enclosure.closing]) rest
  | unclosed {enclosure contents inner} (inside : Turns Written contents inner []) :
      Written (.enclosed enclosure contents) (enclosure.opening :: inner) []

/-- Behind the values in an enclosure stands its closing bracket, or nothing. -/
theorem exists_enclosed {enclosure : Enclosure} {inner behind : List Token}
    {contents : List ComponentValue} (inside : Turns Written contents inner behind)
    (closes : ∀ next ∈ behind.head?, (next == enclosure.closing) = true) :
    ∃ used, used ≠ [] ∧ enclosure.opening :: (inner ++ behind) = used ++ behind.tail ∧
      Written (.enclosed enclosure contents) used behind.tail := by
  cases behind with
  | nil => exact ⟨_, by simp, by simp, .unclosed inside⟩
  | cons next rest =>
      obtain rfl : next = enclosure.closing := by simpa using closes
      exact ⟨_, by simp, by simp, .closed inside⟩

/-- A row ends where the input ends or at a token that stops it. -/
theorem turns_row (stops : Token → Bool) (tokens : List Token) :
    ∃ used, tokens = used ++ afterRow stops tokens ∧
      Turns Written (row stops tokens) used (afterRow stops tokens) ∧
      ∀ next ∈ (afterRow stops tokens).head?, stops next = true := by
  match tokens with
  | [] =>
      have empty : (readRow stops []).1 = ([], []) := by rw [readRow]
      refine ⟨[], ?_⟩
      rw [row, afterRow, empty]
      exact ⟨rfl, .done, by simp⟩
  | first :: rest =>
      cases stop : stops first with
      | true =>
          refine ⟨[], ?_⟩
          rw [row, afterRow, readRow_of_stop stop]
          exact ⟨rfl, .done, by simp [stop]⟩
      | false =>
          cases opens : Enclosure.ofToken? first with
          | none =>
              obtain ⟨others, split, later, last⟩ := turns_row stops rest
              refine ⟨[first] ++ others, ?_⟩
              rw [row, afterRow, readRow_of_single stop opens]
              refine ⟨?_, .turn (by simp) (.token opens) later, last⟩
              exact congrArg (first :: ·) split
          | some enclosure =>
              obtain ⟨inner, split, inside, closes⟩ := turns_row (· == enclosure.closing) rest
              have shorter := afterRow_length_le (· == enclosure.closing) rest
              obtain ⟨others, splitLater, later, last⟩ :=
                turns_row stops (afterRow (· == enclosure.closing) rest).tail
              obtain ⟨used, advances, splitFirst, written⟩ := exists_enclosed inside closes
              rw [← split, ← Enclosure.ofToken?_eq_some_iff.mp opens] at splitFirst
              rw [row, afterRow, readRow_of_opening stop opens]
              refine ⟨used ++ others, ?_, .turn advances ?_ later, last⟩
              · rw [splitFirst, List.append_assoc, ← splitLater]
              · rw [← splitLater]
                exact written
termination_by tokens.length
decreasing_by
  · exact Nat.lt_succ_self _
  · exact Nat.lt_succ_self _
  · refine Nat.lt_succ_of_le (Nat.le_trans ?_ shorter)
    exact (List.tail_suffix _).length_le

theorem Written.ne_nil {value : ComponentValue} (written : Written value used rest) :
    used ≠ [] := by
  cases written <;> simp

/-- Values that are written again are the tokens they were read from.  The closing brackets that
are missing at the end of the input are added. -/
def WritesBack (written used rest : List Token) : Prop :=
  ∃ missing : List Token,
    (∀ token ∈ missing, ∃ enclosure : Enclosure, token = enclosure.closing) ∧
      written = used ++ missing ∧ (missing = [] ∨ rest = [])

mutual

theorem Written.writesBack {value : ComponentValue} {used rest : List Token} :
    Written value used rest → WritesBack value.tokens used rest
  | .token _ => ⟨[], by simp, by simp [tokens], Or.inl rfl⟩
  | .closed inside => by
      obtain ⟨missing, -, written, none | outside⟩ := writesBack_of_turns inside
      · exact ⟨[], by simp, by simp [tokens, written, none], Or.inl rfl⟩
      · cases outside
  | @Written.unclosed enclosure _ _ inside => by
      obtain ⟨missing, closing, written, -⟩ := writesBack_of_turns inside
      refine ⟨missing ++ [enclosure.closing], ?_, by simp [tokens, written], Or.inr rfl⟩
      simp only [List.forall_mem_append, List.forall_mem_singleton]
      exact ⟨closing, enclosure, rfl⟩

theorem writesBack_of_turns {values : List ComponentValue} {used rest : List Token} :
    Turns Written values used rest → WritesBack (tokensOfAll values) used rest
  | .done => ⟨[], by simp, by simp [tokensOfAll], Or.inl rfl⟩
  | .turn _ first later => by
      obtain ⟨missing, closing, written, complete | atEnd⟩ := first.writesBack
      · obtain ⟨missingLater, closingLater, writtenLater, last⟩ := writesBack_of_turns later
        refine ⟨missingLater, closingLater, ?_, last⟩
        simp [tokensOfAll, written, complete, writtenLater]
      -- A value that stays open takes the whole input, so it is the last one.
      · obtain ⟨noOthers, noRest⟩ := List.append_eq_nil_iff.mp atEnd
        refine ⟨missing, closing, ?_, Or.inr noRest⟩
        rw [later.eq_nil noOthers, noOthers]
        simp [tokensOfAll, written]

end

end ComponentValue

/-! ## Declarations -/

namespace Declaration

variable {values before front : List ComponentValue} {last : ComponentValue}

/-- The last two values that are no blanks are an annotation `! important`. -/
def Annotated (values : List ComponentValue) : Prop :=
  ∃ front word, values.filter (!·.isWhitespace) =
      front ++ [.token (.delim '!'), .token (.ident word)] ∧
    Text.sameLetters word "important" = true

/-- What is taken off the end of a value: blanks, and the annotation if there is one. -/
inductive Removed : Bool → List ComponentValue → Prop where
  | blanks {blanks} (blank : ∀ value ∈ blanks, value.isWhitespace = true) :
      Removed false blanks
  | annotation {first second third word} (important : Text.sameLetters word "important" = true)
      (blank : ∀ value ∈ first ++ second ++ third, value.isWhitespace = true) :
      Removed true (first ++ .token (.delim '!') :: second ++ .token (.ident word) :: third)

theorem exists_trimEnd (values : List ComponentValue) :
    ∃ blanks, (∀ value ∈ blanks, value.isWhitespace = true) ∧
      values = trimEnd values ++ blanks := by
  refine ⟨(values.reverse.takeWhile ComponentValue.isWhitespace).reverse, ?_, ?_⟩
  · intro value member
    exact List.mem_takeWhile_imp (List.mem_reverse.mp member)
  · rw [trimEnd, ← List.reverse_append, List.takeWhile_append_dropWhile, List.reverse_reverse]

theorem isWhitespace_of_trimEnd (ends : trimEnd values = before ++ [last]) :
    last.isWhitespace = false := by
  have first := List.head?_dropWhile_not ComponentValue.isWhitespace values.reverse
  have turned : values.reverse.dropWhile ComponentValue.isWhitespace = last :: before.reverse := by
    rw [← List.reverse_reverse (values.reverse.dropWhile _), ← trimEnd, ends]
    simp
  rw [turned] at first
  simpa using first

theorem unsnoc?_eq_some_iff :
    unsnoc? values = some (before, last) ↔ values = before ++ [last] := by
  rw [unsnoc?]
  split
  · next none =>
      have empty : values = [] := List.reverse_eq_nil_iff.mp none
      simp [empty]
  · next final front reversed =>
      have turned : values = front.reverse ++ [final] := by
        rw [← List.reverse_reverse values, reversed, List.reverse_cons]
      rw [turned, List.append_singleton_inj]
      simp

theorem filter_eq_concat_iff (notBlank : last.isWhitespace = false) :
    values.filter (!·.isWhitespace) = front ++ [last] ↔
      ∃ before, trimEnd values = before ++ [last] ∧
        before.filter (!·.isWhitespace) = front := by
  obtain ⟨blanks, blank, split⟩ := exists_trimEnd values
  have noBlanks : blanks.filter (!·.isWhitespace) = [] :=
    List.filter_eq_nil_iff.mpr fun value member => by simp [blank value member]
  have filtered : values.filter (!·.isWhitespace) =
      (trimEnd values).filter (!·.isWhitespace) := by
    refine (congrArg (List.filter _) split).trans ?_
    rw [List.filter_append, noBlanks, List.append_nil]
  rw [filtered]
  constructor
  · intro ends
    rcases List.eq_nil_or_concat (trimEnd values) with none | ⟨before, final, some⟩
    · simp [none] at ends
    · rw [List.concat_eq_append] at some
      have final_notBlank := isWhitespace_of_trimEnd some
      rw [some, List.filter_append, List.filter_cons_of_pos (by simp [final_notBlank]),
        List.filter_nil] at ends
      obtain ⟨same, rfl⟩ := List.append_singleton_inj.mp ends
      exact ⟨before, some, same⟩
  · rintro ⟨before, ends, rfl⟩
    simp [ends, List.filter_append, notBlank]

/-- The annotation stands at the end of the trimmed value. -/
theorem annotated_iff : Annotated values ↔
    ∃ before word value, trimEnd values = before ++ [.token (.ident word)] ∧
      Text.sameLetters word "important" = true ∧
      trimEnd before = value ++ [.token (.delim '!')] := by
  constructor
  · rintro ⟨front, word, ends, important⟩
    rw [List.append_cons] at ends
    obtain ⟨before, word_last, endsBefore⟩ := (filter_eq_concat_iff rfl).mp ends
    obtain ⟨value, mark_last, -⟩ := (filter_eq_concat_iff rfl).mp endsBefore
    exact ⟨before, word, value, word_last, important, mark_last⟩
  · rintro ⟨before, word, value, word_last, important, mark_last⟩
    refine ⟨value.filter (!·.isWhitespace), word, ?_, important⟩
    rw [List.append_cons]
    refine (filter_eq_concat_iff rfl).mpr ⟨before, word_last, ?_⟩
    exact (filter_eq_concat_iff rfl).mpr ⟨value, mark_last, rfl⟩

theorem splitImportant_of_annotated {value : List ComponentValue} {word : String}
    (word_last : trimEnd values = before ++ [.token (.ident word)])
    (important : Text.sameLetters word "important" = true)
    (mark_last : trimEnd before = value ++ [.token (.delim '!')]) :
    splitImportant values = (trimEnd value, true) := by
  have takesWord := unsnoc?_eq_some_iff.mpr word_last
  have takesMark := unsnoc?_eq_some_iff.mpr mark_last
  simp [splitImportant, takesWord, takesMark, important]

theorem splitImportant_of_not_annotated (plain : ¬ Annotated values) :
    splitImportant values = (trimEnd values, false) := by
  rw [annotated_iff] at plain
  simp only [splitImportant]
  split
  · next before word takesWord =>
      split
      · next important =>
          split
          · next value takesMark =>
              exact absurd ⟨before, word, value, unsnoc?_eq_some_iff.mp takesWord, important,
                unsnoc?_eq_some_iff.mp takesMark⟩ plain
          · rfl
      · rfl
  · rfl

/-- Nothing but blanks and the annotation is taken off a value, and the annotation is what makes
a declaration important. -/
theorem removed_splitImportant (values : List ComponentValue) :
    ((splitImportant values).2 = true ↔ Annotated values) ∧
      ∃ removed, values = (splitImportant values).1 ++ removed ∧
        Removed (splitImportant values).2 removed := by
  obtain ⟨third, thirdBlank, split⟩ := exists_trimEnd values
  by_cases annotated : Annotated values
  · obtain ⟨before, word, value, word_last, important, mark_last⟩ := annotated_iff.mp annotated
    obtain ⟨second, secondBlank, splitBefore⟩ := exists_trimEnd before
    obtain ⟨first, firstBlank, splitValue⟩ := exists_trimEnd value
    rw [splitImportant_of_annotated word_last important mark_last]
    refine ⟨iff_of_true rfl annotated, _, ?_,
      @Removed.annotation first second third _ important ?_⟩
    · calc values = before ++ [.token (.ident word)] ++ third := word_last ▸ split
        _ = trimEnd before ++ second ++ [.token (.ident word)] ++ third := by rw [← splitBefore]
        _ = value ++ [.token (.delim '!')] ++ second ++ [.token (.ident word)] ++ third := by
          rw [mark_last]
        _ = trimEnd value ++ first ++ [.token (.delim '!')] ++ second ++
            [.token (.ident word)] ++ third := by rw [← splitValue]
        _ = _ := by simp
    · simp only [List.forall_mem_append]
      exact ⟨⟨firstBlank, secondBlank⟩, thirdBlank⟩
  · rw [splitImportant_of_not_annotated annotated]
    exact ⟨iff_of_false (by simp) annotated, third, split, .blanks thirdBlank⟩

/-- The tokens that a declaration was read from, and those behind it: its name, blanks, a colon,
blanks, its value, and what was taken off the end of the value. -/
inductive Written : Declaration → List Token → List Token → Prop where
  | read {name value removed important blanks more spent rest}
      (blank : ∀ token ∈ blanks ++ more, token.isWhitespace = true)
      (values : Turns ComponentValue.Written (value ++ removed) spent rest)
      (takenOff : Removed important removed)
      (annotated : important = true ↔ Annotated (value ++ removed)) :
      Written ⟨name, value, important⟩ (.ident name :: blanks ++ .colon :: more ++ spent) rest

theorem exists_skipWhitespace (tokens : List Token) :
    ∃ blanks, (∀ token ∈ blanks, token.isWhitespace = true) ∧
      tokens = blanks ++ skipWhitespace tokens :=
  ⟨tokens.takeWhile Token.isWhitespace, fun _ member => List.mem_takeWhile_imp member,
    List.takeWhile_append_dropWhile.symm⟩

/-- A name begins a declaration if a colon follows; else it is passed over with the blanks
behind it. -/
theorem written_read (name : String) (tokens : List Token) :
    (∃ declaration used, (read name tokens).1 = some declaration ∧
        .ident name :: tokens = used ++ (read name tokens).2 ∧
        Written declaration used (read name tokens).2) ∨
      ((read name tokens).1 = none ∧ (∀ rest, (read name tokens).2 ≠ .colon :: rest) ∧
        ∃ blanks, (∀ token ∈ blanks, token.isWhitespace = true) ∧
          tokens = blanks ++ (read name tokens).2) := by
  obtain ⟨blanks, blank, split⟩ := exists_skipWhitespace tokens
  rw [read]
  split
  · next rest colon =>
      obtain ⟨more, moreBlank, splitRest⟩ := exists_skipWhitespace rest
      obtain ⟨spent, splitValue, turns, -⟩ :=
        ComponentValue.turns_row ends (skipWhitespace rest)
      obtain ⟨annotated, removed, valuesEq, takenOff⟩ :=
        removed_splitImportant (ComponentValue.row ends (skipWhitespace rest))
      refine Or.inl ⟨_, .ident name :: blanks ++ .colon :: more ++ spent, rfl, ?_,
        .read ?_ ?_ takenOff ?_⟩
      · calc Token.ident name :: tokens
            = .ident name :: (blanks ++ skipWhitespace tokens) := by rw [← split]
          _ = .ident name :: (blanks ++ .colon :: (more ++ skipWhitespace rest)) := by
            rw [colon, ← splitRest]
          _ = .ident name :: (blanks ++ .colon :: (more ++ (spent ++
                ComponentValue.afterRow ends (skipWhitespace rest)))) := by rw [← splitValue]
          _ = _ := by simp
      · exact List.forall_mem_append.mpr ⟨blank, moreBlank⟩
      · rw [← valuesEq]
        exact turns
      · rw [← valuesEq]
        exact annotated
  · next notColon =>
      exact Or.inr ⟨rfl, notColon, blanks, blank, split⟩

end Declaration

/-! ## Rules -/

/-- The tokens that an at-rule was read from, and those behind it. -/
inductive AtRule.Written : AtRule → List Token → List Token → Prop where
  | semicolon {name prelude spent rest}
      (values : Turns ComponentValue.Written prelude spent (.semicolon :: rest)) :
      Written ⟨name, prelude, none⟩ (.atKeyword name :: spent ++ [.semicolon]) rest
  | bare {name prelude spent rest} (values : Turns ComponentValue.Written prelude spent rest)
      (stops : ∀ next ∈ rest.head?, next = .rightBrace) :
      Written ⟨name, prelude, none⟩ (.atKeyword name :: spent) rest
  | block {name prelude spent contents inner rest}
      (values : Turns ComponentValue.Written prelude spent (inner ++ rest))
      (block : ComponentValue.Written (.enclosed (.block .brace) contents) inner rest) :
      Written ⟨name, prelude, some contents⟩ (.atKeyword name :: spent ++ inner) rest

theorem AtRule.written_read (name : String) (tokens : List Token) :
    ∃ used, .atKeyword name :: tokens = used ++ (read name tokens).2 ∧
      Written (read name tokens).1 used (read name tokens).2 := by
  obtain ⟨spent, split, values, stops⟩ := ComponentValue.turns_row ends tokens
  simp only [read]
  generalize ComponentValue.row ends tokens = prelude at *
  generalize ComponentValue.afterRow ends tokens = behind at *
  subst split
  split
  · exact ⟨_, by simp, .semicolon values⟩
  · next rest =>
      obtain ⟨inner, splitBlock, inside, closes⟩ :=
        ComponentValue.turns_row (· == .rightBrace) rest
      obtain ⟨used, -, splitUsed, block⟩ :=
        @ComponentValue.exists_enclosed (.block .brace) _ _ _ inside closes
      rw [← splitBlock] at splitUsed
      refine ⟨.atKeyword name :: spent ++ used, ?_, .block ?_ block⟩
      · rw [List.append_assoc, ← splitUsed]
        rfl
      · rw [← splitUsed]
        exact values
  · next notSemicolon notBrace =>
      refine ⟨_, rfl, .bare values fun next found => ?_⟩
      obtain ⟨rest, rfl⟩ := List.head?_eq_some_iff.mp found
      have stop := stops next found
      simp only [ends, Bool.or_eq_true, beq_iff_eq] at stop
      rcases stop with (rfl | rfl) | brace
      · exact absurd rfl (notSemicolon rest)
      · exact absurd rfl (notBrace rest)
      · exact brace

theorem AtRule.Written.ne_nil {rule : AtRule} {used rest : List Token}
    (written : rule.Written used rest) : used ≠ [] := by
  cases written <;> simp

theorem Declaration.Written.ne_nil {declaration : Declaration} {used rest : List Token}
    (written : declaration.Written used rest) : used ≠ [] := by
  cases written
  simp

namespace Rule

variable {first : Token} {prelude body tokens rest : List Token}

/-- The contents of one part of a block in front of those of the next. -/
def Block.append (first second : Block) : Block :=
  ⟨first.declarations ++ second.declarations, first.rules ++ second.rules⟩

/-- What several parts of a block hold together. -/
def Block.joined (blocks : List Block) : Block := blocks.foldr Block.append ⟨[], []⟩

mutual

/-- The tokens that a style rule was read from, and those behind it: its prelude is all that
stands in front of the first opening brace. -/
inductive StyleWritten : Rule → List Token → List Token → Prop where
  | closed {prelude blocks inner rest} (noBrace : .leftBrace ∉ prelude)
      (turns : Turns BlockTurn blocks inner (.rightBrace :: rest)) :
      StyleWritten (.style (selectorTexts prelude) (Block.joined blocks).declarations
          (Block.joined blocks).rules)
        (prelude ++ .leftBrace :: inner ++ [.rightBrace]) rest
  | unclosed {prelude blocks inner} (noBrace : .leftBrace ∉ prelude)
      (turns : Turns BlockTurn blocks inner []) :
      StyleWritten (.style (selectorTexts prelude) (Block.joined blocks).declarations
          (Block.joined blocks).rules)
        (prelude ++ .leftBrace :: inner) []

/-- What one turn in a block adds to it, the tokens it takes, and those behind them. -/
inductive BlockTurn : Block → List Token → List Token → Prop where
  | passed {token rest} (passed : token = .whitespace ∨ token = .semicolon) :
      BlockTurn ⟨[], []⟩ [token] rest
  | atRule {rule used rest} (written : AtRule.Written rule used rest) :
      BlockTurn ⟨[], [.atRule rule]⟩ used rest
  | style {rule used rest} (written : StyleWritten rule used rest) :
      BlockTurn ⟨[], [rule]⟩ used rest
  | declaration {declaration used rest} (written : Declaration.Written declaration used rest) :
      BlockTurn ⟨[declaration], []⟩ used rest
  | noColon {name blanks rest} (blank : ∀ token ∈ blanks, token.isWhitespace = true)
      (notColon : ∀ later, rest ≠ .colon :: later) :
      BlockTurn ⟨[], []⟩ (.ident name :: blanks) rest
  | dropped {first values spent rest} (notName : ∀ name, first ≠ .ident name)
      (thrownAway : Turns ComponentValue.Written values spent rest)
      (stops : ∀ next ∈ rest.head?, Declaration.ends next = true) :
      BlockTurn ⟨[], []⟩ (first :: spent) rest

end

/-- A block is read in turns, up to its closing brace or the end of the input. -/
def ReadInTurns (tokens : List Token) : Prop :=
  ∃ blocks used, tokens = used ++ (readBlock tokens).1.2 ∧
    Turns BlockTurn blocks used (readBlock tokens).1.2 ∧
    (readBlock tokens).1.1 = Block.joined blocks ∧
    ∀ next ∈ (readBlock tokens).1.2.head?, next = .rightBrace

theorem splitPrelude?_eq_some (split : splitPrelude? tokens = some (prelude, rest)) :
    tokens = prelude ++ .leftBrace :: rest ∧ .leftBrace ∉ prelude := by
  induction tokens generalizing prelude with
  | nil => cases split
  | cons token tokens ih =>
      by_cases brace : token = .leftBrace
      · subst brace
        cases split
        exact ⟨rfl, List.not_mem_nil⟩
      · rw [splitPrelude?] at split
        · obtain ⟨inner, found, equal⟩ := Option.map_eq_some_iff.mp split
          cases equal
          obtain ⟨tokensEq, noBrace⟩ := ih found
          exact ⟨congrArg (token :: ·) tokensEq, by simp [noBrace, Ne.symm brace]⟩
        · exact brace

theorem splitPrelude?_eq_none_iff : splitPrelude? tokens = none ↔ .leftBrace ∉ tokens := by
  induction tokens with
  | nil => simp [splitPrelude?]
  | cons token tokens ih =>
      by_cases brace : token = .leftBrace
      · simp [brace, splitPrelude?]
      · rw [splitPrelude?]
        · simp [ih, Ne.symm brace]
        · exact brace

theorem leftBrace_mem_of_opensBlock {depth : Nat} (opens : opensBlock depth tokens = true) :
    .leftBrace ∈ tokens := by
  induction tokens generalizing depth with
  | nil => cases opens
  | cons token tokens ih =>
      rw [opensBlock] at opens
      split at opens
      · next brace => simp [brace.2]
      · split at opens
        · cases opens
        · exact List.mem_cons_of_mem token (ih opens)

/-- Behind the contents of a block stands its closing brace, or nothing. -/
theorem exists_styleWritten (noBrace : .leftBrace ∉ prelude) (inside : ReadInTurns body) :
    ∃ used, used ≠ [] ∧
      prelude ++ .leftBrace :: body = used ++ dropBrace (readBlock body).1.2 ∧
      StyleWritten (.style (selectorTexts prelude) (readBlock body).1.1.declarations
        (readBlock body).1.1.rules) used (dropBrace (readBlock body).1.2) := by
  obtain ⟨blocks, inner, split, turns, joined, closes⟩ := inside
  rw [joined]
  generalize (readBlock body).1.2 = behind at *
  subst split
  cases behind with
  | nil => exact ⟨_, by simp, by simp [dropBrace], .unclosed noBrace turns⟩
  | cons next rest =>
      obtain rfl : next = .rightBrace := by simpa using closes
      exact ⟨_, by simp, by simp [dropBrace], .closed noBrace turns⟩

/-- One turn in a block, if the blocks nested in it are read in turns. -/
theorem exists_blockTurn (notBrace : first ≠ .rightBrace)
    (nested : ∀ body : List Token, body.length < (first :: rest).length → ReadInTurns body) :
    ∃ one used more, used ≠ [] ∧ first :: rest = used ++ more ∧ BlockTurn one used more ∧
      (readBlock (first :: rest)).1 =
        (one.append (readBlock more).1.1, (readBlock more).1.2) := by
  by_cases passed : first = .whitespace ∨ first = .semicolon
  · exact ⟨_, [first], rest, by simp, rfl, .passed passed, readBlock_passed passed⟩
  by_cases at_rule : ∃ name, first = .atKeyword name
  · obtain ⟨name, rfl⟩ := at_rule
    obtain ⟨used, split, written⟩ := AtRule.written_read name rest
    exact ⟨_, used, _, written.ne_nil, split, .atRule written, readBlock_atRule⟩
  have notAt : ∀ name, first ≠ .atKeyword name := fun name same => at_rule ⟨name, same⟩
  cases opens : opensBlock 0 (first :: rest) with
  | true =>
      cases found : splitPrelude? (first :: rest) with
      | none =>
          exact absurd (leftBrace_mem_of_opensBlock opens) (splitPrelude?_eq_none_iff.mp found)
      | some split =>
          obtain ⟨prelude, body⟩ := split
          obtain ⟨tokensEq, noBrace⟩ := splitPrelude?_eq_some found
          obtain ⟨used, advances, split, written⟩ :=
            exists_styleWritten noBrace (nested body (splitPrelude?_length_lt found))
          rw [← tokensEq] at split
          exact ⟨_, used, _, advances, split, .style written,
            readBlock_nested notBrace passed notAt opens found⟩
  | false =>
      by_cases named : ∃ name, first = .ident name
      · obtain ⟨name, rfl⟩ := named
        have read := readBlock_declaration opens
        dsimp only at read
        rcases Declaration.written_read name rest with
          ⟨declaration, used, found, split, written⟩ | ⟨none, notColon, blanks, blank, split⟩
        · rw [found] at read
          exact ⟨_, used, _, written.ne_nil, split, .declaration written, read⟩
        · rw [none] at read
          exact ⟨_, .ident name :: blanks, _, by simp, congrArg (_ :: ·) split,
            .noColon blank notColon, read⟩
      · have notName : ∀ name, first ≠ .ident name := fun name same => named ⟨name, same⟩
        obtain ⟨spent, split, values, stops⟩ := ComponentValue.turns_row Declaration.ends rest
        exact ⟨_, first :: spent, _, by simp, congrArg (_ :: ·) split,
          .dropped notName values stops, readBlock_dropped notBrace passed notAt notName opens⟩

theorem readInTurns (tokens : List Token) : ReadInTurns tokens := by
  match tokens with
  | [] =>
      have empty : (readBlock []).1 = (⟨[], []⟩, []) := by rw [readBlock]
      exact ⟨[], [], by rw [empty]; rfl, .done, by rw [empty]; rfl, by simp [empty]⟩
  | first :: rest =>
      by_cases brace : first = .rightBrace
      · subst brace
        exact ⟨[], [], by rw [readBlock_rightBrace]; rfl, .done, by rw [readBlock_rightBrace]; rfl,
          by simp [readBlock_rightBrace]⟩
      · obtain ⟨one, used, more, advances, split, turn, read⟩ :=
          exists_blockTurn brace fun body shorter => readInTurns body
        have shorter : more.length < (first :: rest).length := by
          have taken := List.length_pos_iff.mpr advances
          rw [split, List.length_append]
          omega
        obtain ⟨blocks, others, splitMore, turns, joined, closes⟩ := readInTurns more
        refine ⟨one :: blocks, used ++ others, ?_, ?_, ?_, ?_⟩
        · rw [read, split, List.append_assoc, ← splitMore]
        · rw [read]
          exact .turn advances (splitMore ▸ turn) turns
        · rw [read, joined]
          rfl
        · rw [read]
          exact closes
termination_by tokens.length
decreasing_by
  · exact shorter
  · exact shorter

/-! ## Sheets -/

/-- The rules that one turn adds to a sheet, the tokens it takes, and those behind them.  A rule
that never reaches a block takes everything with it. -/
inductive SheetTurn : List Rule → List Token → List Token → Prop where
  | passed {token rest}
      (passed : token = .whitespace ∨ token = .commentOpen ∨ token = .commentClose) :
      SheetTurn [] [token] rest
  | atRule {rule used rest} (written : AtRule.Written rule used rest) :
      SheetTurn [.atRule rule] used rest
  | style {rule used rest} (written : StyleWritten rule used rest) :
      SheetTurn [rule] used rest
  | unfinished {used} (noBrace : .leftBrace ∉ used) : SheetTurn [] used []

theorem exists_sheetTurn (first : Token) (rest : List Token) :
    ∃ rules used more, used ≠ [] ∧ first :: rest = used ++ more ∧ SheetTurn rules used more ∧
      readAll (first :: rest) = rules ++ readAll more := by
  rw [readAll.eq_def]
  dsimp only
  split
  · next passed => exact ⟨[], [first], rest, by simp, rfl, .passed passed, rfl⟩
  · split
    · next name _ =>
        obtain ⟨used, split, written⟩ := AtRule.written_read name rest
        exact ⟨_, used, _, written.ne_nil, split, .atRule written, rfl⟩
    · split
      · next none =>
          have noBrace := splitPrelude?_eq_none_iff.mp (Option.map_eq_none_iff.mp none)
          exact ⟨[], first :: rest, [], by simp, by simp, .unfinished noBrace, readAll_nil.symm⟩
      · next rule behind found =>
          obtain ⟨⟨prelude, body⟩, split, equal⟩ := Option.map_eq_some_iff.mp found
          obtain ⟨tokensEq, noBrace⟩ := splitPrelude?_eq_some split
          obtain ⟨used, advances, splitUsed, written⟩ :=
            exists_styleWritten noBrace (readInTurns body)
          cases equal
          rw [← tokensEq] at splitUsed
          exact ⟨_, used, _, advances, splitUsed, .style written, rfl⟩

theorem turns_readAll (tokens : List Token) :
    ∃ turns, Turns SheetTurn turns tokens [] ∧ readAll tokens = turns.flatten := by
  match tokens with
  | [] => exact ⟨[], .done, readAll_nil⟩
  | first :: rest =>
      obtain ⟨rules, used, more, advances, split, turn, read⟩ := exists_sheetTurn first rest
      have shorter : more.length < (first :: rest).length := by
        have taken := List.length_pos_iff.mpr advances
        rw [split, List.length_append]
        omega
      obtain ⟨turns, later, readMore⟩ := turns_readAll more
      refine ⟨rules :: turns, ?_, ?_⟩
      · rw [split]
        exact .turn advances (by rwa [List.append_nil]) later
      · rw [read, readMore, List.flatten_cons]
termination_by tokens.length
decreasing_by
  exact shorter

end Rule

/-- Whatever the tokens are, the reader takes all of them up to the first end of file, in turns of
at least one token.  So does every row of values up to the token that stops it, and every value is
written back as the tokens it was read from, but for closing brackets that are missing at the end
of the input.  So is every declaration, with the blanks around its colon and what was taken off
its value; it is important if and only if its value ended in an annotation. -/
theorem Stylesheet.conserved_ofTokens (tokens : List Token) :
    (∃ turns, Turns Rule.SheetTurn turns (tokens.takeWhile (!·.isEndOfFile)) [] ∧
        (ofTokens tokens).rules = turns.flatten) ∧
      (∀ stops input, ∃ used, input = used ++ ComponentValue.afterRow stops input ∧
        Turns ComponentValue.Written (ComponentValue.row stops input) used
          (ComponentValue.afterRow stops input)) ∧
      (∀ value used rest, ComponentValue.Written value used rest →
        used ≠ [] ∧ ComponentValue.WritesBack value.tokens used rest) ∧
      (∀ name input declaration rest, Declaration.read name input = (some declaration, rest) →
        ∃ used, .ident name :: input = used ++ rest ∧ Declaration.Written declaration used rest) ∧
      ∀ declaration used rest, Declaration.Written declaration used rest →
        ∃ blanks more removed, (∀ token ∈ blanks ++ more, token.isWhitespace = true) ∧
          Declaration.Removed declaration.important removed ∧
          (declaration.important = true ↔
            Declaration.Annotated (declaration.value ++ removed)) ∧
          ComponentValue.WritesBack
            (.ident declaration.name :: blanks ++ .colon :: more ++
              ComponentValue.tokensOfAll (declaration.value ++ removed)) used rest := by
  refine ⟨Rule.turns_readAll _, ?_, ?_, ?_, ?_⟩
  · intro stops input
    obtain ⟨used, split, turns, -⟩ := ComponentValue.turns_row stops input
    exact ⟨used, split, turns⟩
  · intro value used rest written
    exact ⟨written.ne_nil, written.writesBack⟩
  · intro name input declaration rest read
    rcases Declaration.written_read name input with ⟨_, used, found, split, written⟩ | ⟨none, -⟩
    · rw [read] at found split written
      cases found
      exact ⟨used, split, written⟩
    · rw [read] at none
      cases none
  · rintro _ _ _ ⟨blank, values, takenOff, annotated⟩
    obtain ⟨missing, closing, written, last⟩ := ComponentValue.writesBack_of_turns values
    exact ⟨_, _, _, blank, takenOff, annotated, missing, closing, by simp [written], last⟩

end SelectorTree
