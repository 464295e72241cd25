import SelectorTree.Text.Ascii
import SelectorTree.Token.Printer

/-!
# Stylesheets

A stylesheet is a list of rules.  A style rule holds the texts of its
selectors, its declarations and the rules nested in its block; an at-rule keeps
everything behind its name as component values, in which brackets and functions
are matched.
-/

namespace SelectorTree

open Text

/-- The three kinds of brackets around a block. -/
inductive Bracket where
  | brace
  | square
  | paren
deriving DecidableEq

namespace Bracket

def opening : Bracket → Token
  | brace => .leftBrace
  | square => .leftBracket
  | paren => .leftParen

def closing : Bracket → Token
  | brace => .rightBrace
  | square => .rightBracket
  | paren => .rightParen

end Bracket

/-- What a component value begins with when it is not a lone token. -/
inductive Enclosure where
  | function (name : String)
  | block (bracket : Bracket)
deriving DecidableEq

namespace Enclosure

/-- The enclosure that a token opens, if it opens one. -/
def ofToken? : Token → Option Enclosure
  | .function name => some (.function name)
  | .leftBrace => some (.block .brace)
  | .leftBracket => some (.block .square)
  | .leftParen => some (.block .paren)
  | _ => none

def opening : Enclosure → Token
  | function name => .function name
  | block bracket => bracket.opening

def closing : Enclosure → Token
  | function _ => .rightParen
  | block bracket => bracket.closing

theorem ofToken?_eq_some_iff {token : Token} {enclosure : Enclosure} :
    ofToken? token = some enclosure ↔ token = enclosure.opening := by
  constructor
  · intro opens
    unfold ofToken? at opens
    split at opens <;> cases opens <;> rfl
  · intro equal
    subst equal
    cases enclosure with
    | function name => rfl
    | block bracket => cases bracket <;> rfl

end Enclosure

/-- A token, or a function or block with the values between its brackets. -/
inductive ComponentValue where
  | token (token : Token)
  | enclosed (enclosure : Enclosure) (contents : List ComponentValue)

namespace ComponentValue

mutual

/-- The tokens that a value consists of, its closing bracket included. -/
def tokens : ComponentValue → List Token
  | token single => [single]
  | enclosed enclosure contents =>
    enclosure.opening :: tokensOfAll contents ++ [enclosure.closing]

/-- The tokens of a row of values. -/
def tokensOfAll : List ComponentValue → List Token
  | [] => []
  | value :: rest => tokens value ++ tokensOfAll rest

end

def toText (value : ComponentValue) : String := Token.write value.tokens

/-- The text of a row of values without the blanks at its ends. -/
def textOfAll (values : List ComponentValue) : String :=
  trim (Token.write (tokensOfAll values))

def isWhitespace : ComponentValue → Bool
  | token .whitespace => true
  | _ => false

end ComponentValue

/-- A property with its value.  The annotation that makes it important is not
part of the value. -/
structure Declaration where
  name : String
  value : List ComponentValue
  important : Bool

def Declaration.valueText (declaration : Declaration) : String :=
  ComponentValue.textOfAll declaration.value

/-- A rule that begins with an at-keyword; `block` is absent when it ends with
a semicolon. -/
structure AtRule where
  name : String
  prelude : List ComponentValue
  block : Option (List ComponentValue)

namespace AtRule

def preludeText (rule : AtRule) : String :=
  ComponentValue.textOfAll rule.prelude

/-- The first string among the arguments of a function. -/
def firstString? : List ComponentValue → Option String
  | [] => none
  | .token (.string address) :: _ => some address
  | _ :: rest => firstString? rest

/-- The address that an import names: a string, an address token, or a string
argument of the function `url`. -/
def importAddress? (rule : AtRule) : Option String :=
  if sameLetters rule.name "import" then
    match rule.prelude.find? (!·.isWhitespace) with
    | some (.token (.url address)) => some address
    | some (.token (.string address)) => some address
    | some (.enclosed (.function name) arguments) =>
      if sameLetters name "url" then firstString? arguments else none
    | _ => none
  else none

end AtRule

inductive Rule where
  | style (selectors : List String) (declarations : List Declaration) (nested : List Rule)
  | atRule (rule : AtRule)

/-- The last declaration of a property, whatever the case of its name. -/
def Declaration.last? (declarations : List Declaration) (property : String) :
    Option Declaration :=
  declarations.reverse.find? (sameLetters ·.name property)

structure Stylesheet where
  rules : List Rule

end SelectorTree
