import SelectorTree.Text.Name
import SelectorTree.Text.Quoted
import SelectorTree.Token.Basic

/-!
# Writing tokens

A token is written so that it reads back as itself: names are escaped, strings
are put between double quotes and numbers keep their spelling.  A sequence of
tokens is written without separators.  The labels are for inspection only.
-/

namespace SelectorTree.Token

open Text

def escapedInUrl (c : Char) : Bool :=
  c == '"' || c == '\'' || c == '(' || c == ')' || c == '\\' || isBlank c

def writeUrlChar (c : Char) : List Char :=
  if escapedInUrl c then ['\\', c] else [c]

def chars : Token → List Char
  | ident name => writeIdentifier name.toList
  | function name => writeIdentifier name.toList ++ ['(']
  | atKeyword name => '@' :: writeIdentifier name.toList
  | hash name _ => '#' :: writeName name.toList
  | string text => writeQuoted text.toList
  | badString => ['"']
  | url address => "url(".toList ++ address.toList.flatMap writeUrlChar ++ [')']
  | badUrl => "url()".toList
  | delim char => [char]
  | number numeric => numeric.spelling.toList
  | percentage numeric => numeric.spelling.toList ++ ['%']
  | dimension numeric unit => numeric.spelling.toList ++ writeName unit.toList
  | whitespace => [' ']
  | commentOpen => "<!--".toList
  | commentClose => "-->".toList
  | colon => [':']
  | semicolon => [';']
  | comma => [',']
  | leftBracket => ['[']
  | rightBracket => [']']
  | leftParen => ['(']
  | rightParen => [')']
  | leftBrace => ['\x7b']
  | rightBrace => ['\x7d']
  | endOfFile => []

def toText (token : Token) : String := String.ofList token.chars

def write (tokens : List Token) : String :=
  String.ofList (tokens.flatMap chars)

def labelBody : Token → String
  | ident name => "ident:" ++ name
  | function name => "function:" ++ name ++ "("
  | atKeyword name => "at-keyword:@" ++ name
  | hash name .id => "hash:#" ++ name ++ " (id)"
  | hash name .unrestricted => "hash:#" ++ name ++ " (unrestricted)"
  | string text => "string:\"" ++ text ++ "\""
  | badString => "bad-string"
  | url address => "url:" ++ address
  | badUrl => "bad-url"
  | delim char => "delim:" ++ char.toString
  | number numeric => "number:" ++ numeric.spelling
  | percentage numeric => "percentage:" ++ numeric.spelling ++ "%"
  | dimension numeric unit => "dimension:" ++ numeric.spelling ++ unit
  | whitespace => "whitespace"
  | commentOpen => "CDO"
  | commentClose => "CDC"
  | colon => "colon"
  | semicolon => "semicolon"
  | comma => "comma"
  | leftBracket => "["
  | rightBracket => "]"
  | leftParen => "("
  | rightParen => ")"
  | leftBrace => "\x7b"
  | rightBrace => "\x7d"
  | endOfFile => "EOF"

/-- A token's label names its kind and shows its text as read. -/
def label (token : Token) : String := "<" ++ token.labelBody ++ ">"

theorem toList_toText_string (text : String) :
    (string text).toText.toList = writeQuoted text.toList := by
  rw [toText, chars, String.toList_ofList]

end SelectorTree.Token
