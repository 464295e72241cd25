/-!
# Double-precision values of decimal numbers

A decimal number, a mantissa times a power of ten, is rounded to the nearest
double; a value halfway between two doubles goes to the one with the even last
bit.  The rounding is exact arithmetic on natural numbers.
-/

namespace SelectorTree.Numeric

/-- A double-precision number, given by its bit pattern. -/
structure Binary64 where
  bits : UInt64
deriving DecidableEq, Inhabited

/-- The nearest natural number to a quotient; a half goes to the even one. -/
def roundQuotient (numerator denominator : Nat) : Nat :=
  let quotient := numerator / denominator
  let twice := 2 * (numerator % denominator)
  if twice < denominator ∨ (twice = denominator ∧ quotient % 2 = 0) then quotient
  else quotient + 1

/-- The quotient divided by two to the power `exponent`, as a fraction. -/
def scaleDown (numerator denominator : Nat) (exponent : Int) : Nat × Nat :=
  if exponent < 0 then (numerator * Nat.pow 2 (-exponent).toNat, denominator)
  else (numerator, denominator * Nat.pow 2 exponent.toNat)

/-- The weight of the last bit of the double nearest to a positive quotient:
53 significant bits, but no bit lighter than two to the power -1074. -/
def lastBitExponent (numerator denominator : Nat) : Int :=
  let estimate : Int := Int.ofNat numerator.log2 - Int.ofNat denominator.log2 - 52
  let scaled := scaleDown numerator denominator estimate
  max (-1074) (if scaled.1 / scaled.2 < Nat.pow 2 52 then estimate - 1 else estimate)

def infinityBits : Nat := 0x7FF * Nat.pow 2 52

/-- The bit pattern of the double nearest to a positive quotient.  Counting in
units of the last bit makes the exponent field and the carry of a rounding that
gains a digit fall out of one sum. -/
def magnitudeBits (numerator denominator : Nat) : Nat :=
  let exponent := lastBitExponent numerator denominator
  let scaled := scaleDown numerator denominator exponent
  min infinityBits ((exponent + 1074).toNat * Nat.pow 2 52 + roundQuotient scaled.1 scaled.2)

/-- A decimal number: `mantissa` times ten to the power `exponent`. -/
structure Decimal where
  negative : Bool
  mantissa : Nat
  exponent : Int
deriving DecidableEq

/-- The bit pattern of the magnitude.  Numbers beyond ten to the power 310 are
infinite and those below ten to the power -330 are zero, which keeps the powers
of ten small. -/
def Decimal.magnitude (decimal : Decimal) : Nat :=
  let size := Int.ofNat (Nat.toDigits 10 decimal.mantissa).length + decimal.exponent
  if decimal.mantissa = 0 ∨ size < -330 then 0
  else if size > 310 then infinityBits
  else if decimal.exponent < 0 then
    magnitudeBits decimal.mantissa (Nat.pow 10 (-decimal.exponent).toNat)
  else magnitudeBits (decimal.mantissa * Nat.pow 10 decimal.exponent.toNat) 1

/-- The double nearest to a decimal number; a negative zero keeps its sign. -/
def Binary64.ofDecimal (decimal : Decimal) : Binary64 :=
  ⟨UInt64.ofNat (decimal.magnitude + if decimal.negative then Nat.pow 2 63 else 0)⟩

/-- The double nearest to an integer. -/
def Binary64.ofInt (value : Int) : Binary64 :=
  .ofDecimal ⟨value < 0, value.natAbs, 0⟩

end SelectorTree.Numeric
