import SelectorTree.Text.Ascii
import SelectorTree.Text.Blank

/-!
# Backslash escapes

A backslash before a character other than a line feed is an escape.  Up to six
hexadecimal digits name a code point, and one blank after them belongs to the
escape; any other character stands for itself.  Stylesheets and selectors differ
only in which blanks they swallow after the digits.
-/

namespace SelectorTree.Text

/-- Stands for a code point that no character has. -/
def replacement : Char := '\uFFFD'

/-- The character with a code point; zero, surrogates and numbers beyond
Unicode have none and give the replacement character. -/
def charOfCode (code : Nat) : Char :=
  if code.isValidChar ∧ code ≠ 0 then Char.ofNat code else replacement

/-- The longest row of at most `limit` leading hexadecimal digits, and what
follows it. -/
def splitHex : Nat → List Char → List Char × List Char
  | 0, chars => ([], chars)
  | _ + 1, [] => ([], [])
  | limit + 1, c :: rest =>
    if isHexDigit c then
      let split := splitHex limit rest
      (c :: split.1, split.2)
    else ([], c :: rest)

/-- The input without its first character if that is a blank. -/
def dropOne (blank : Char → Bool) : List Char → List Char
  | [] => []
  | c :: rest => if blank c then rest else c :: rest

/-- Reads the part of an escape after the backslash: the character it stands
for and the input behind it. -/
def readEscape (blank : Char → Bool) : List Char → Char × List Char
  | [] => (replacement, [])
  | c :: rest =>
    if isHexDigit c then
      let split := splitHex 5 rest
      (charOfCode (hexValue (c :: split.1)), dropOne blank split.2)
    else (c, rest)

def startsEscape : List Char → Bool
  | '\\' :: c :: _ => c != '\n'
  | _ => false

/-- Writes a character as a hexadecimal escape closed by a space. -/
def hexEscape (c : Char) : List Char :=
  '\\' :: shortHex c.toNat ++ [' ']

/-- The control characters, NUL excepted. -/
def isControl (c : Char) : Bool :=
  (1 ≤ c.toNat && c.toNat ≤ 0x1F) || c.toNat == 0x7F

theorem splitHex_append (limit : Nat) (chars : List Char) :
    (splitHex limit chars).1 ++ (splitHex limit chars).2 = chars := by
  fun_induction splitHex limit chars with
  | case1 => rfl
  | case2 => rfl
  | case3 limit c rest _ _ ih => exact congrArg (c :: ·) ih
  | case4 => rfl

theorem splitHex_suffix (limit : Nat) (chars : List Char) :
    (splitHex limit chars).2 <:+ chars :=
  ⟨_, splitHex_append limit chars⟩

theorem dropOne_suffix (blank : Char → Bool) (chars : List Char) :
    dropOne blank chars <:+ chars := by
  cases chars with
  | nil => exact List.suffix_rfl
  | cons c rest =>
    rw [dropOne]
    split
    · exact List.suffix_cons c rest
    · exact List.suffix_rfl

theorem readEscape_suffix (blank : Char → Bool) (chars : List Char) :
    (readEscape blank chars).2 <:+ chars := by
  cases chars with
  | nil => exact List.suffix_rfl
  | cons c rest =>
    rw [readEscape]
    split
    · exact ((dropOne_suffix blank _).trans (splitHex_suffix 5 rest)).trans
        (List.suffix_cons c rest)
    · exact List.suffix_cons c rest

theorem readEscape_length_le (blank : Char → Bool) (chars : List Char) :
    (readEscape blank chars).2.length ≤ chars.length :=
  (readEscape_suffix blank chars).length_le

end SelectorTree.Text
