import SelectorTree.Text.Ascii
import SelectorTree.Text.Fields

/-!
# Numeric hosts

A host whose last part is a number is an IPv4 address and nothing else: up to
four numbers, of which the last fills the bytes that are left.  A host in
brackets is an IPv6 address.  Both have one written form.
-/

namespace SelectorTree.Url

open Text

def decimalText (value : Nat) : List Char := (toString value).toList

namespace IPv4

/-- The number that a part of a lower-case host spells: hexadecimal behind `0x`,
octal behind another zero, and decimal otherwise. -/
def readPart? : List Char → Option Nat
  | [] => none
  | '0' :: 'x' :: digits => if digits.all isHexDigit then some (hexValue digits) else none
  | '0' :: first :: rest =>
    if (first :: rest).all fun c => '0' ≤ c && c ≤ '7' then
      some ((first :: rest).foldl (fun value digit => 8 * value + digitValue digit) 0)
    else none
  | digits => if digits.all Char.isDigit then some (decimalValue digits) else none

/-- The parts of a host; a point at the end is left out. -/
def parts (host : List Char) : List (List Char) :=
  let all := fields (· == '.') host
  if all.getLast? = some [] then all.dropLast else all

/-- Whether the last part of a host is a number, be it a malformed one. -/
def endsInNumber (host : List Char) : Bool :=
  match (parts host).getLast? with
  | none => false
  | some part => (!part.isEmpty && part.all Char.isDigit) || (readPart? part).isSome

/-- The four bytes of a number below two to the power of 32. -/
def bytes (value : Nat) : List Nat :=
  [value / 16777216, value / 65536 % 256, value / 256 % 256, value % 256]

def read? (host : List Char) : Option (List Nat) := do
  let numbers ← (parts host).mapM readPart?
  let last ← numbers.getLast?
  let leading := numbers.dropLast
  if leading.length ≤ 3 ∧ leading.all (· < 256) ∧ last < Nat.pow 256 (4 - leading.length) then
    some (leading ++ (bytes last).drop leading.length)
  else none

def toText (address : List Nat) : List Char :=
  ['.'].intercalate (address.map decimalText)

end IPv4

namespace IPv6

def readGroup? (group : List Char) : Option Nat :=
  if group ≠ [] ∧ group.length ≤ 4 ∧ group.all isHexDigit then some (hexValue group) else none

/-- A decimal byte without leading zeros. -/
def readByte? (digits : List Char) : Option Nat :=
  if digits ≠ [] ∧ digits.length ≤ 3 ∧ digits.all Char.isDigit ∧
      (digits.head? = some '0' → digits.length = 1) ∧ decimalValue digits < 256 then
    some (decimalValue digits)
  else none

/-- The last group, which may spell two groups as four bytes. -/
def readLastGroup? (group : List Char) : Option (List Nat) :=
  if group.contains '.' then
    match (fields (· == '.') group).mapM readByte? with
    | some [first, second, third, fourth] => some [256 * first + second, 256 * third + fourth]
    | _ => none
  else (readGroup? group).map ([·])

/-- The groups between colons; no text has no groups. -/
def readGroups? (readLast? : List Char → Option (List Nat)) (text : List Char) :
    Option (List Nat) :=
  if text = [] then some []
  else do
    let groups := fields (· == ':') text
    let leading ← groups.dropLast.mapM readGroup?
    let last ← groups.getLast?.bind readLast?
    return leading ++ last

/-- What stands before and behind the first two colons in a row. -/
def splitAtGap : List Char → List Char × Option (List Char)
  | [] => ([], none)
  | ':' :: ':' :: rest => ([], some rest)
  | c :: rest =>
    let split := splitAtGap rest
    (c :: split.1, split.2)

/-- The eight groups of an address.  Two colons stand for as many zeros as are
missing, and at least for one. -/
def read? (text : List Char) : Option (List Nat) :=
  match splitAtGap text with
  | (all, none) => do
    let groups ← readGroups? readLastGroup? all
    if groups.length = 8 then some groups else none
  | (before, some behind) => do
    let left ← readGroups? (fun group => (readGroup? group).map ([·])) before
    let right ← readGroups? readLastGroup? behind
    let count := left.length + right.length
    if count ≤ 7 then some (left ++ List.replicate (8 - count) 0 ++ right) else none

/-- How many zeros a row of groups begins with. -/
def zeros (groups : List Nat) : Nat := (groups.takeWhile (· == 0)).length

/-- Where the longest row of zeros begins and how long it is; of equally long
ones it is the first. -/
def longestGap : Nat → List Nat → Nat × Nat
  | _, [] => (0, 0)
  | start, group :: rest =>
    let here := zeros (group :: rest)
    let later := longestGap (start + 1) rest
    if later.2 ≤ here then (start, here) else later

def groupsText (groups : List Nat) : List Char :=
  [':'].intercalate (groups.map (Nat.toDigits 16))

/-- An address in brackets.  Two colons stand for the longest row of at least
two zeros. -/
def toText (groups : List Nat) : List Char :=
  let gap := longestGap 0 groups
  let written :=
    if gap.2 ≤ 1 then groupsText groups
    else
      groupsText (groups.take gap.1) ++ [':', ':'] ++ groupsText (groups.drop (gap.1 + gap.2))
  '[' :: written ++ [']']

end IPv6

end SelectorTree.Url
