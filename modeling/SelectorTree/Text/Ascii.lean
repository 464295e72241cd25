/-!
# ASCII case and hexadecimal digits

Tag names, keywords, option spellings and attribute names are compared without
regard to the case of the letters `A` to `Z`.  Every other character, a letter
of another script included, is compared as it stands.
-/

namespace SelectorTree.Text

/-- The text with the letters `A` to `Z` replaced by `a` to `z`. -/
def lower (text : String) : String :=
  String.ofList (text.toList.map Char.toLower)

/-- Two texts that differ at most in the case of ASCII letters. -/
def sameLetters (left right : String) : Bool :=
  left.toList.map Char.toLower == right.toList.map Char.toLower

/-- The digits `0` to `9` and the letters `a` to `f` in either case. -/
def isHexDigit (c : Char) : Bool :=
  c.isDigit || ('a' ≤ c && c ≤ 'f') || ('A' ≤ c && c ≤ 'F')

/-- The value of a hexadecimal digit, and zero for any other character. -/
def hexDigitValue (c : Char) : Nat :=
  if c.isDigit then c.toNat - 48
  else if 'a' ≤ c && c ≤ 'f' then c.toNat - 87
  else if 'A' ≤ c && c ≤ 'F' then c.toNat - 55
  else 0

def hexValue (digits : List Char) : Nat :=
  digits.foldl (fun value digit => 16 * value + hexDigitValue digit) 0

def digitValue (c : Char) : Nat := c.toNat - 48

def decimalValue (digits : List Char) : Nat :=
  digits.foldl (fun value digit => 10 * value + digitValue digit) 0

/-- The value below sixteen written as one lower-case digit. -/
def hexDigit (value : Nat) : Char :=
  if value < 10 then Char.ofNat (48 + value) else Char.ofNat (87 + value)

/-- A number below 256 written with as few lower-case hexadecimal digits as
its value needs. -/
def shortHex (value : Nat) : List Char :=
  if value < 16 then [hexDigit value] else [hexDigit (value / 16), hexDigit (value % 16)]

/-- Two lower-case hexadecimal digits for a byte. -/
def byteHex (byte : UInt8) : List Char :=
  [hexDigit (byte.toNat / 16), hexDigit (byte.toNat % 16)]

@[simp] theorem toList_lower (text : String) :
    (lower text).toList = text.toList.map Char.toLower := by
  simp [lower]

theorem sameLetters_iff {left right : String} :
    sameLetters left right = true ↔ lower left = lower right := by
  constructor
  · intro same
    simpa [lower] using congrArg String.ofList (beq_iff_eq.mp same)
  · intro equal
    simpa [sameLetters] using congrArg String.toList equal

theorem sameLetters_refl (text : String) : sameLetters text text = true := by
  simp [sameLetters]

theorem sameLetters_comm (left right : String) :
    sameLetters left right = sameLetters right left := by
  simp [sameLetters, Bool.beq_comm]

end SelectorTree.Text
