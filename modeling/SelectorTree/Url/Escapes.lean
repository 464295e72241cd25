import SelectorTree.Text.Percent

/-!
# What the parts of an address escape

Each part of an address escapes the control characters, the characters beyond
ASCII, and some characters that would end the part or be misread in it.
-/

namespace SelectorTree.Url

open Text

/-- A set of escaped characters: the listed ones, and all outside printable
ASCII. -/
def escapes (listed : String) (c : Char) : Bool :=
  c.toNat < 0x20 || 0x7F ≤ c.toNat || listed.toList.contains c

def escapeOpaque : List Char → List Char := percentEncode (escapes "")

def escapeFragment : List Char → List Char := percentEncode (escapes " \"<>`")

def escapePath : List Char → List Char := percentEncode (escapes " \"<>`#?\x7b\x7d")

def escapeUser : List Char → List Char :=
  percentEncode (escapes " \"<>`#?\x7b\x7d/:;=@[\\]^|")

/-- The queries of the well-known schemes escape the single quote too. -/
def escapeQuery (special : Bool) : List Char → List Char :=
  percentEncode (escapes (if special then " \"#<>'" else " \"#<>"))

end SelectorTree.Url
