import SelectorTree.Text.Ascii

/-!
# Percent escapes

A byte that an address cannot hold as it is stands there as a percent sign and
two hexadecimal digits.  A percent sign that begins no escape stands for itself.
-/

namespace SelectorTree.Text

def hexByte? (byte : UInt8) : Option UInt8 :=
  let c := Char.ofNat byte.toNat
  if isHexDigit c then some (UInt8.ofNat (hexDigitValue c)) else none

def hexPair? (high low : UInt8) : Option UInt8 :=
  (hexByte? high).bind fun upper => (hexByte? low).map fun lower => 16 * upper + lower

/-- Replaces the escapes by their bytes; other bytes stay.  `escaped?` reads the
two bytes behind a percent sign. -/
def percentDecode (escaped? : UInt8 → UInt8 → Option UInt8) : List UInt8 → List UInt8
  | byte :: high :: low :: rest =>
    match if byte = 0x25 then escaped? high low else none with
    | some value => value :: percentDecode escaped? rest
    | none => byte :: percentDecode escaped? (high :: low :: rest)
  | bytes => bytes

def percentEscape (byte : UInt8) : List Char := '%' :: (byteHex byte).map Char.toUpper

def percentEncode (escaped : Char → Bool) (chars : List Char) : List Char :=
  chars.flatMap fun c =>
    if escaped c then (String.utf8EncodeChar c).flatMap percentEscape else [c]

end SelectorTree.Text
