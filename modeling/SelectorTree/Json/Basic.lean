import SelectorTree.Text.Ascii

/-!
# JSON values

A number is kept as it is spelled.  A string is a row of code points; its escapes
may name halves of a character, and only in pairs do they make a text.
-/

namespace SelectorTree

open Text

inductive Json where
  | null
  | bool (value : Bool)
  | number (spelling : List Char)
  | string (codes : List Nat)
  | array (items : List Json)
  | object (members : List (List Nat × Json))

namespace Json

def isHighHalf (code : Nat) : Bool := 0xD800 ≤ code && code < 0xDC00

def isLowHalf (code : Nat) : Bool := 0xDC00 ≤ code && code < 0xE000

/-- The characters that a row of code points spells, if no half is alone. -/
def chars? : List Nat → Option (List Char)
  | [] => some []
  | [code] => if isHighHalf code || isLowHalf code then none else some [Char.ofNat code]
  | code :: next :: rest =>
    if isHighHalf code && isLowHalf next then
      (chars? rest).map (Char.ofNat (0x10000 + 1024 * (code - 0xD800) + (next - 0xDC00)) :: ·)
    else if isHighHalf code || isLowHalf code then none
    else (chars? (next :: rest)).map (Char.ofNat code :: ·)

def text? (codes : List Nat) : Option String := (chars? codes).map String.ofList

def ofText (text : String) : Json := .string (text.toList.map Char.toNat)

def members (entries : List (String × Json)) : Json :=
  .object (entries.map fun entry => (entry.1.toList.map Char.toNat, entry.2))

/-! ## Writing -/

def letterEscapes : List (Char × Nat) :=
  [('"', 0x22), ('\\', 0x5C), ('/', 0x2F), ('b', 8), ('f', 12), ('n', 10), ('r', 13), ('t', 9)]

def fourDigits (code : Nat) : List Char :=
  byteHex (UInt8.ofNat (code / 256)) ++ byteHex (UInt8.ofNat code)

/-- A code point of a string.  Only what has to be escaped is escaped. -/
def writeCode (code : Nat) : List Char :=
  if code = 0x2F then ['/']
  else
    match letterEscapes.find? fun entry => entry.2 == code with
    | some entry => ['\\', entry.1]
    | none =>
      if code < 0x20 || isHighHalf code || isLowHalf code then '\\' :: 'u' :: fourDigits code
      else [Char.ofNat code]

def writeString (codes : List Nat) : List Char := '"' :: codes.flatMap writeCode ++ ['"']

mutual

/-- A value without blanks. -/
def write : Json → List Char
  | .null => "null".toList
  | .bool value => (if value then "true" else "false").toList
  | .number spelling => spelling
  | .string codes => writeString codes
  | .array items => '[' :: writeItems items ++ [']']
  | .object members => '\x7b' :: writeMembers members ++ ['\x7d']

def writeItems : List Json → List Char
  | [] => []
  | [item] => write item
  | item :: rest => write item ++ ',' :: writeItems rest

def writeMembers : List (List Nat × Json) → List Char
  | [] => []
  | [(key, value)] => writeString key ++ ':' :: write value
  | (key, value) :: rest => writeString key ++ ':' :: write value ++ ',' :: writeMembers rest

end

def toText (value : Json) : String := String.ofList (write value)

end Json

end SelectorTree
