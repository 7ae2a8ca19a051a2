import LanguageClient.Text.Numeral

/-! Binary floating-point numbers of 64 bits, by their bits.

Every number is built by one rounding of an exact ratio, to nearest with ties
to even, so products and quotients are exact up to that one rounding.
-/

set_option autoImplicit false
namespace LanguageClient

structure Double where
  bits : UInt64
  deriving DecidableEq, Repr

namespace Double

def signBit : Nat := 0x8000000000000000

def hiddenBit : Nat := 0x10000000000000

def infinityBits : Nat := 0x7FF0000000000000

def isNegative (d : Double) : Bool := d.bits.toNat ≥ signBit

def magnitude (d : Double) : Nat := d.bits.toNat % signBit

def isInfinite (d : Double) : Bool := d.magnitude == infinityBits

def isZero (d : Double) : Bool := d.magnitude == 0

def negate (d : Double) : Double := ⟨.ofNat ((d.bits.toNat + signBit) % (2 * signBit))⟩

/-- The significand `m` and exponent `e` of the magnitude, which is `m · 2 ^ (e - 1074)`. -/
def parts (d : Double) : Nat × Nat :=
  let field := d.magnitude / hiddenBit
  let fraction := d.magnitude % hiddenBit
  if field = 0 then (fraction, 0) else (fraction + hiddenBit, field - 1)

/-- Numerator over `2 ^ 1074` of the magnitude. -/
def scaled (d : Double) : Nat := let (m, e) := d.parts; m * Nat.pow 2 e

/-- The integer nearest to `num / den`, a tie going to the even one. -/
def roundDiv (num den : Nat) : Nat :=
  let quotient := num / den
  let twice := 2 * (num % den)
  if den < twice ∨ (den = twice ∧ quotient % 2 = 1) then quotient + 1 else quotient

/-- The number nearest to `num / den · 2 ^ -1074`, infinity beyond the largest. -/
def ofScaledRatio (num den : Nat) : Double :=
  let whole := num / den
  let shift := Nat.log2 whole - 52
  .mk (.ofNat (min infinityBits (shift * hiddenBit + roundDiv num (den * Nat.pow 2 shift))))

def ofRatio (num den : Nat) : Double := ofScaledRatio (num * Nat.pow 2 1074) den

def ofNat (n : Nat) : Double := ofRatio n 1

/-- The number nearest to `digits · 10 ^ exponent`. Far outside the range of the format it
is zero or infinity, whatever the digits are. -/
def ofDigits (digits : Nat) (exponent : Int) : Double :=
  if digits = 0 ∨ exponent < -400 - (digits.log2 : Int) then ⟨0⟩
  else if 400 < exponent then ⟨.ofNat infinityBits⟩
  else if 0 ≤ exponent then ofRatio (digits * Nat.pow 10 exponent.toNat) 1
  else ofRatio digits (Nat.pow 10 exponent.natAbs)

def ofDecimal (decimal : Text.Decimal) : Double :=
  let magnitude := ofDigits decimal.digits decimal.exponent
  if decimal.negative then magnitude.negate else magnitude

def powerOfTen (exponent : Nat) : Double := ofRatio (Nat.pow 10 exponent) 1

def mul (a b : Double) : Double := ofScaledRatio (a.scaled * b.scaled) (Nat.pow 2 1074)

def div (a b : Double) : Double := ofScaledRatio (a.scaled * Nat.pow 2 1074) b.scaled

end Double
end LanguageClient
