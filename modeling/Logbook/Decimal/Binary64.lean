import Logbook.Text.Digits

/-!
# Binary fractions of 53 bits

Numbers `significand * 2 ^ exponent` with significands below `2 ^ 53` and exponents from -1074 to
971. Every operation is the exact one followed by one rounding to the nearest such number, a half
going to the even significand.
-/

namespace Logbook.Decimal

structure Binary64 where
  significand : Nat
  exponent : Int
  deriving DecidableEq, Repr

namespace Binary64

def leastExponent : Int := -1074

def greatestExponent : Int := 971

/-- The quotient and the remainder with its divisor when a ratio is measured in units of `2 ^
exponent`. -/
def measure (numerator denominator : Nat) (exponent : Int) : Nat × Nat × Nat :=
  let numerator := numerator * Nat.pow 2 (-exponent).toNat
  let denominator := denominator * Nat.pow 2 exponent.toNat
  (numerator / denominator, numerator % denominator, denominator)

/-- The exponent at which the quotient of a ratio has 53 bits, or the least one. -/
def exponentOf (numerator denominator : Nat) : Int :=
  let guess : Int := (numerator.log2 : Int) - denominator.log2 - 52
  let exponent :=
    if (measure numerator denominator guess).1 < Nat.pow 2 52 then guess - 1 else guess
  max leastExponent exponent

/-- The number nearest to a ratio; nothing when it lies beyond the greatest one. -/
def ofRatio? (numerator denominator : Nat) : Option Binary64 :=
  if numerator = 0 then some ⟨0, 0⟩
  else
    let exponent := exponentOf numerator denominator
    let (quotient, remainder, divisor) := measure numerator denominator exponent
    let up := divisor < 2 * remainder || (divisor = 2 * remainder && quotient % 2 = 1)
    let significand := if up then quotient + 1 else quotient
    let rounded : Binary64 :=
      if significand = Nat.pow 2 53 then ⟨Nat.pow 2 52, exponent + 1⟩ else ⟨significand, exponent⟩
    if greatestExponent < rounded.exponent then none else some rounded

def ratio (x : Binary64) : Nat × Nat :=
  (x.significand * Nat.pow 2 x.exponent.toNat, Nat.pow 2 (-x.exponent).toNat)

def mul? (x y : Binary64) : Option Binary64 :=
  ofRatio? (x.ratio.1 * y.ratio.1) (x.ratio.2 * y.ratio.2)

def div? (x y : Binary64) : Option Binary64 :=
  ofRatio? (x.ratio.1 * y.ratio.2) (x.ratio.2 * y.ratio.1)

/-- The greatest power of ten that is a number. -/
def greatestPower : Nat := 308

def powerOfTen? (power : Nat) : Option Binary64 := ofRatio? (Nat.pow 10 power) 1

/-- A number divided by a power of ten beyond the greatest one, in steps; zero ends the steps. -/
def shrink : Nat → Binary64 → Nat → Option Binary64
  | 0, _, _ => some ⟨0, 0⟩
  | steps + 1, x, power =>
      if x.significand = 0 then some x
      else if power ≤ greatestPower then (powerOfTen? power).bind x.div?
      else ((powerOfTen? greatestPower).bind x.div?).bind fun smaller =>
        shrink steps smaller (power - greatestPower)

/-- The number that is read for an integer times a power of ten: the integer is rounded first and
then scaled by the rounded power. Nothing when the result is too great. -/
def scale? (significand : Nat) (power : Int) : Option Binary64 :=
  match ofRatio? significand 1 with
  | none => none
  | some x =>
      if power < 0 then shrink 4 x power.natAbs
      else if x.significand = 0 then some x
      else if greatestPower < power.toNat then none
      else (powerOfTen? power.toNat).bind x.mul?

end Binary64

end Logbook.Decimal
