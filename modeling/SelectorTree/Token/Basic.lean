import SelectorTree.Numeric.Binary64

/-!
# Tokens

The tokens of a stylesheet.  A numeric token keeps the spelling it was read
from beside its value, so that it is written back as its author wrote it.
-/

namespace SelectorTree

open Numeric (Binary64)

/-- Whether the name behind a `#` is an identifier. -/
inductive HashKind where
  | id
  | unrestricted
deriving DecidableEq

/-- Whether a number was written without a point and an exponent. -/
inductive NumberKind where
  | integer
  | number
deriving DecidableEq

/-- The number of a numeric token.  `integer?` holds the value of an integer
that fits into 64 bits, and `spelling` the text of the number, sign included. -/
structure NumericValue where
  value : Binary64
  integer? : Option Int
  kind : NumberKind
  spelling : String
deriving DecidableEq

inductive Token where
  | ident (name : String)
  | function (name : String)
  | atKeyword (name : String)
  | hash (name : String) (kind : HashKind)
  | string (text : String)
  | badString
  | url (address : String)
  | badUrl
  | delim (char : Char)
  | number (numeric : NumericValue)
  | percentage (numeric : NumericValue)
  | dimension (numeric : NumericValue) (unit : String)
  | whitespace
  | commentOpen
  | commentClose
  | colon
  | semicolon
  | comma
  | leftBracket
  | rightBracket
  | leftParen
  | rightParen
  | leftBrace
  | rightBrace
  | endOfFile
deriving DecidableEq

def NumericValue.ofInt (value : Int) : NumericValue :=
  ⟨.ofInt value, some value, .integer, toString value⟩

namespace Token

def isWhitespace (token : Token) : Bool := token == .whitespace

def isEndOfFile (token : Token) : Bool := token == .endOfFile

def ofInt (value : Int) : Token := .number (.ofInt value)

/-- The tokens that are one character each, whatever stands around it. -/
def ofPunctuation? : Char → Option Token
  | '(' => some .leftParen
  | ')' => some .rightParen
  | ',' => some .comma
  | ':' => some .colon
  | ';' => some .semicolon
  | '[' => some .leftBracket
  | ']' => some .rightBracket
  | '{' => some .leftBrace
  | '}' => some .rightBrace
  | _ => none

end Token

end SelectorTree
