import SelectorTree.Text.Ascii

/-!
# Base 64

Four characters of the standard alphabet stand for three bytes.  A shorter end
is padded to four characters, and the bits that it does not need are zero.
-/

namespace SelectorTree.Base64

def sextet? (c : Char) : Option Nat :=
  if 'A' ≤ c ∧ c ≤ 'Z' then some (c.toNat - 65)
  else if 'a' ≤ c ∧ c ≤ 'z' then some (c.toNat - 71)
  else if '0' ≤ c ∧ c ≤ '9' then some (c.toNat + 4)
  else if c = '+' then some 62
  else if c = '/' then some 63
  else none

/-- The last byte, from two characters. -/
def lastByte? (first second : Char) : Option (List UInt8) := do
  let high ← sextet? first
  let low ← sextet? second
  if low % 16 = 0 then some [UInt8.ofNat (4 * high + low / 16)] else none

/-- The last two bytes, from three characters. -/
def lastBytes? (first second third : Char) : Option (List UInt8) := do
  let high ← sextet? first
  let middle ← sextet? second
  let low ← sextet? third
  if low % 4 = 0 then
    some [UInt8.ofNat (4 * high + middle / 16), UInt8.ofNat (16 * (middle % 16) + low / 4)]
  else none

/-- Three bytes, from four characters. -/
def threeBytes? (first second third fourth : Char) : Option (List UInt8) := do
  let high ← sextet? first
  let upper ← sextet? second
  let lower ← sextet? third
  let low ← sextet? fourth
  some [UInt8.ofNat (4 * high + upper / 16), UInt8.ofNat (16 * (upper % 16) + lower / 4),
    UInt8.ofNat (64 * (lower % 4) + low)]

def decode? : List Char → Option (List UInt8)
  | [] => some []
  | [first, second, '=', '='] => lastByte? first second
  | [first, second, third, '='] => lastBytes? first second third
  | first :: second :: third :: fourth :: rest => do
    let bytes ← threeBytes? first second third fourth
    let others ← decode? rest
    return bytes ++ others
  | _ => none

end SelectorTree.Base64
