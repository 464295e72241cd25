import SelectorTree.Stylesheet.Basic
import SelectorTree.Text.Blank
import SelectorTree.Token.Lexer

/-!
# Reading stylesheets

Every sequence of tokens is a stylesheet.  What does not fit the grammar is
skipped: a rule without a block, or a declaration without a colon up to the next
semicolon.  Inside a block a construct that reaches an opening brace before it
ends is a nested rule.  Reading stops at the first end-of-file token, and each
reader hands back a rest that is no longer than what it was given.
-/

namespace SelectorTree

open Text

namespace ComponentValue

/-- A row of values and the tokens behind it, no more than there were. -/
abbrev Row (tokens : List Token) : Type :=
  { row : List ComponentValue × List Token // row.2.length ≤ tokens.length }

/-- Reads values up to a token that `stops` selects and that stands outside all
brackets.  A bracket that is never closed takes everything. -/
def readRow (stops : Token → Bool) : (tokens : List Token) → Row tokens
  | [] => ⟨([], []), Nat.le_refl _⟩
  | first :: rest =>
    if stops first then ⟨([], first :: rest), Nat.le_refl _⟩
    else
      match Enclosure.ofToken? first with
      | none =>
        let following := readRow stops rest
        ⟨(token first :: following.1.1, following.1.2), Nat.le_succ_of_le following.2⟩
      | some enclosure =>
        let inner := readRow (· == enclosure.closing) rest
        have closed : inner.1.2.tail.length ≤ rest.length :=
          Nat.le_trans (List.tail_suffix _).length_le inner.2
        let following := readRow stops inner.1.2.tail
        ⟨(enclosed enclosure inner.1.1 :: following.1.1, following.1.2),
          Nat.le_succ_of_le (Nat.le_trans following.2 closed)⟩
termination_by tokens => tokens.length
decreasing_by
  · exact Nat.lt_succ_self _
  · exact Nat.lt_succ_self _
  · exact Nat.lt_succ_of_le closed

/-- The values up to a token that `stops` selects. -/
def row (stops : Token → Bool) (tokens : List Token) : List ComponentValue :=
  (readRow stops tokens).1.1

/-- The tokens from there on. -/
def afterRow (stops : Token → Bool) (tokens : List Token) : List Token :=
  (readRow stops tokens).1.2

theorem afterRow_length_le (stops : Token → Bool) (tokens : List Token) :
    (afterRow stops tokens).length ≤ tokens.length :=
  (readRow stops tokens).2

end ComponentValue

namespace Declaration

/-- Values without the blanks at their end. -/
def trimEnd (values : List ComponentValue) : List ComponentValue :=
  (values.reverse.dropWhile ComponentValue.isWhitespace).reverse

/-- Takes the last value off. -/
def unsnoc? (values : List ComponentValue) : Option (List ComponentValue × ComponentValue) :=
  match values.reverse with
  | [] => none
  | last :: before => some (before.reverse, last)

/-- Takes an annotation `! important` off the end of a value, together with the
blanks around it. -/
def splitImportant (values : List ComponentValue) : List ComponentValue × Bool :=
  let trimmed := trimEnd values
  match unsnoc? trimmed with
  | some (before, .token (.ident word)) =>
    if sameLetters word "important" then
      match unsnoc? (trimEnd before) with
      | some (value, .token (.delim '!')) => (trimEnd value, true)
      | _ => (trimmed, false)
    else (trimmed, false)
  | _ => (trimmed, false)

/-- A semicolon or a closing brace ends a declaration. -/
def ends (token : Token) : Bool := token == .semicolon || token == .rightBrace

def skipWhitespace (tokens : List Token) : List Token := tokens.dropWhile Token.isWhitespace

/-- Reads a declaration behind its name.  Without a colon there is none, and
reading goes on at the token found in its place. -/
def read (name : String) (tokens : List Token) : Option Declaration × List Token :=
  match skipWhitespace tokens with
  | .colon :: rest =>
    let start := skipWhitespace rest
    let value := splitImportant (ComponentValue.row ends start)
    (some ⟨name, value.1, value.2⟩, ComponentValue.afterRow ends start)
  | rest => (none, rest)

theorem skipWhitespace_length_le (tokens : List Token) :
    (skipWhitespace tokens).length ≤ tokens.length :=
  (List.dropWhile_suffix _).length_le

theorem read_length_le (name : String) (tokens : List Token) :
    (read name tokens).2.length ≤ tokens.length := by
  have bounded := skipWhitespace_length_le tokens
  unfold read
  split
  · next rest colon =>
    rw [colon, List.length_cons] at bounded
    exact Nat.le_trans (ComponentValue.afterRow_length_le ends _)
      (Nat.le_trans (skipWhitespace_length_le rest) (Nat.le_of_succ_le bounded))
  · exact bounded

end Declaration

namespace AtRule

/-- The prelude ends at a semicolon, at a block, or where the enclosing block
is closed. -/
def ends (token : Token) : Bool :=
  token == .semicolon || token == .leftBrace || token == .rightBrace

/-- Reads an at-rule behind its name. -/
def read (name : String) (tokens : List Token) : AtRule × List Token :=
  let prelude := ComponentValue.row ends tokens
  match ComponentValue.afterRow ends tokens with
  | .semicolon :: rest => (⟨name, prelude, none⟩, rest)
  | .leftBrace :: rest =>
    (⟨name, prelude, some (ComponentValue.row (· == .rightBrace) rest)⟩,
      (ComponentValue.afterRow (· == .rightBrace) rest).tail)
  | rest => (⟨name, prelude, none⟩, rest)

theorem read_length_le (name : String) (tokens : List Token) :
    (read name tokens).2.length ≤ tokens.length := by
  have bounded := ComponentValue.afterRow_length_le ends tokens
  simp only [read]
  split
  · next rest semicolon =>
    rw [semicolon, List.length_cons] at bounded
    exact Nat.le_of_succ_le bounded
  · next rest brace =>
    rw [brace, List.length_cons] at bounded
    have block := ComponentValue.afterRow_length_le (· == .rightBrace) rest
    exact Nat.le_trans (List.tail_suffix _).length_le
      (Nat.le_trans block (Nat.le_of_succ_le bounded))
  · exact bounded

end AtRule

namespace Rule

/-- How a token changes the number of open parentheses and square brackets. -/
def depthAfter (depth : Nat) : Token → Nat
  | .function _ => depth + 1
  | .leftParen => depth + 1
  | .leftBracket => depth + 1
  | .rightParen => depth - 1
  | .rightBracket => depth - 1
  | _ => depth

/-- Whether an opening brace comes before a semicolon and a closing brace, all
outside parentheses and square brackets. -/
def opensBlock (depth : Nat) : List Token → Bool
  | [] => false
  | token :: rest =>
    if depth = 0 ∧ token = .leftBrace then true
    else if depth = 0 ∧ Declaration.ends token then false
    else opensBlock (depthAfter depth token) rest

/-- The tokens in front of each comma outside brackets, and those behind the
last. -/
def splitAtCommas (depth : Nat) : List Token → List (List Token)
  | [] => [[]]
  | token :: rest =>
    if depth = 0 ∧ token = .comma then [] :: splitAtCommas 0 rest
    else
      match splitAtCommas (depthAfter depth token) rest with
      | [] => [[token]]
      | part :: parts => (token :: part) :: parts

/-- The texts of the selectors in a prelude; blank ones are left out. -/
def selectorTexts (prelude : List Token) : List String :=
  ((splitAtCommas 0 prelude).map (trim ∘ Token.write)).filter (· ≠ "")

/-- The tokens in front of the first opening brace and those behind it. -/
def splitPrelude? : List Token → Option (List Token × List Token)
  | [] => none
  | .leftBrace :: rest => some ([], rest)
  | token :: rest => (splitPrelude? rest).map fun split => (token :: split.1, split.2)

theorem splitPrelude?_length_lt {tokens prelude rest : List Token}
    (split : splitPrelude? tokens = some (prelude, rest)) : rest.length < tokens.length := by
  induction tokens generalizing prelude with
  | nil => cases split
  | cons token tokens ih =>
    by_cases brace : token = .leftBrace
    · subst brace
      cases split
      exact Nat.lt_succ_self _
    · rw [splitPrelude?] at split
      · obtain ⟨inner, found, equal⟩ := Option.map_eq_some_iff.mp split
        cases equal
        exact Nat.lt_succ_of_lt (ih found)
      · exact brace

/-- The input without a closing brace at its start. -/
def dropBrace : List Token → List Token
  | .rightBrace :: rest => rest
  | tokens => tokens

theorem dropBrace_length_le (tokens : List Token) :
    (dropBrace tokens).length ≤ tokens.length := by
  unfold dropBrace
  split
  · exact Nat.le_succ _
  · exact Nat.le_refl _

/-- What a block holds: its declarations and the rules nested in it. -/
structure Block where
  declarations : List Declaration
  rules : List Rule

/-- A block's contents and the tokens behind them, no more than there were. -/
abbrev BlockRead (tokens : List Token) : Type :=
  { read : Block × List Token // read.2.length ≤ tokens.length }

def readBlock : (tokens : List Token) → BlockRead tokens
  | [] => ⟨(⟨[], []⟩, []), Nat.le_refl _⟩
  | first :: rest =>
    if first = .rightBrace then ⟨(⟨[], []⟩, first :: rest), Nat.le_refl _⟩
    else if first = .whitespace ∨ first = .semicolon then
      let following := readBlock rest
      ⟨following.1, Nat.le_succ_of_le following.2⟩
    else
      match first with
      | .atKeyword name =>
        have shorter := AtRule.read_length_le name rest
        let following := readBlock (AtRule.read name rest).2
        ⟨({ following.1.1 with rules := .atRule (AtRule.read name rest).1 :: following.1.1.rules },
            following.1.2),
          Nat.le_succ_of_le (Nat.le_trans following.2 shorter)⟩
      | _ =>
        if opensBlock 0 (first :: rest) then
          match split : splitPrelude? (first :: rest) with
          | none => ⟨(⟨[], []⟩, []), Nat.zero_le _⟩
          | some (prelude, body) =>
            have bodyShorter : body.length ≤ rest.length :=
              Nat.le_of_lt_succ (splitPrelude?_length_lt split)
            let inner := readBlock body
            have behindShorter : (dropBrace inner.1.2).length ≤ rest.length :=
              Nat.le_trans (dropBrace_length_le _) (Nat.le_trans inner.2 bodyShorter)
            let following := readBlock (dropBrace inner.1.2)
            ⟨({ following.1.1 with
                rules := .style (selectorTexts prelude) inner.1.1.declarations inner.1.1.rules ::
                  following.1.1.rules },
                following.1.2),
              Nat.le_succ_of_le (Nat.le_trans following.2 behindShorter)⟩
        else
          match first with
          | .ident name =>
            have shorter := Declaration.read_length_le name rest
            let following := readBlock (Declaration.read name rest).2
            ⟨({ following.1.1 with
                declarations :=
                  (Declaration.read name rest).1.toList ++ following.1.1.declarations },
                following.1.2),
              Nat.le_succ_of_le (Nat.le_trans following.2 shorter)⟩
          | _ =>
            have shorter := ComponentValue.afterRow_length_le Declaration.ends rest
            let following := readBlock (ComponentValue.afterRow Declaration.ends rest)
            ⟨following.1, Nat.le_succ_of_le (Nat.le_trans following.2 shorter)⟩
termination_by tokens => tokens.length
decreasing_by
  · exact Nat.lt_succ_self _
  · exact Nat.lt_succ_of_le shorter
  · exact Nat.lt_succ_of_le bodyShorter
  · exact Nat.lt_succ_of_le behindShorter
  · exact Nat.lt_succ_of_le shorter
  · exact Nat.lt_succ_of_le shorter

/-- Reads a style rule.  Everything up to the next opening brace is its
prelude; if there is none, there is no rule. -/
def readStyle? (tokens : List Token) : Option (Rule × List Token) :=
  (splitPrelude? tokens).map fun split =>
    let block := (readBlock split.2).1
    (.style (selectorTexts split.1) block.1.declarations block.1.rules, dropBrace block.2)

theorem readStyle?_length_lt {tokens rest : List Token} {rule : Rule}
    (read : readStyle? tokens = some (rule, rest)) : rest.length < tokens.length := by
  obtain ⟨⟨prelude, body⟩, split, equal⟩ := Option.map_eq_some_iff.mp read
  cases equal
  exact Nat.lt_of_le_of_lt (Nat.le_trans (dropBrace_length_le _) (readBlock body).2)
    (splitPrelude?_length_lt split)

/-- Reads the rules of a stylesheet.  A style rule without a block takes the
rest of the input with it. -/
def readAll : List Token → List Rule
  | [] => []
  | first :: rest =>
    if first = .whitespace ∨ first = .commentOpen ∨ first = .commentClose then readAll rest
    else
      match first with
      | .atKeyword name =>
        let read := AtRule.read name rest
        .atRule read.1 :: readAll read.2
      | _ =>
        match _read : readStyle? (first :: rest) with
        | none => []
        | some (rule, behind) => rule :: readAll behind
termination_by tokens => tokens.length
decreasing_by
  · exact Nat.lt_succ_self _
  · exact Nat.lt_succ_of_le (AtRule.read_length_le name rest)
  · exact readStyle?_length_lt _read

end Rule

namespace Stylesheet

/-- The stylesheet of a sequence of tokens up to the first end of file. -/
def ofTokens (tokens : List Token) : Stylesheet :=
  ⟨Rule.readAll (tokens.takeWhile (!·.isEndOfFile))⟩

def ofText (text : String) : Stylesheet :=
  ofTokens (Token.tokenize text)

end Stylesheet

end SelectorTree
