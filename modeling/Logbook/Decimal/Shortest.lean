import Logbook.Decimal.Binary64

/-!
# Shortest decimals

The decimal with the fewest digits that is read back as a given binary fraction, and of these the
one nearest to it; and the way such a decimal is written.
-/

namespace Logbook.Decimal

/-- The decimal `digits * 10 ^ power`. -/
structure Digits where
  digits : Nat
  power : Int
  deriving DecidableEq, Repr

namespace Binary64

/-- The reals that are rounded to a number, in quarters of its last bit: the least and the
greatest of them, and whether these two belong to them. -/
structure Interval where
  least : Nat
  greatest : Nat
  closed : Bool

def interval (x : Binary64) : Interval :=
  let below := if x.significand = Nat.pow 2 52 && leastExponent < x.exponent then 1 else 2
  ⟨4 * x.significand - below, 4 * x.significand + 2, x.significand % 2 = 0⟩

/-- Two numbers on a common scale: a decimal, and a count of quarters of the last bit. -/
def align (x : Binary64) (power : Int) (digits quarters : Nat) : Nat × Nat :=
  let exponent := x.exponent - 2
  (digits * Nat.pow 10 power.toNat * Nat.pow 2 (-exponent).toNat,
    quarters * Nat.pow 10 (-power).toNat * Nat.pow 2 exponent.toNat)

def holds (x : Binary64) (power : Int) (digits : Nat) : Bool :=
  let least := x.align power digits x.interval.least
  let greatest := x.align power digits x.interval.greatest
  if x.interval.closed then least.2 ≤ least.1 && greatest.1 ≤ greatest.2
  else least.2 < least.1 && greatest.1 < greatest.2

/-- The greatest multiple of a power of ten that is not above the number. -/
def floorAt (x : Binary64) (power : Int) : Nat :=
  let scaled := x.align power 1 (4 * x.significand)
  scaled.2 / scaled.1

/-- The neighbour of the number on the grid of a power of ten that is read back as the number. -/
def neighbour? (x : Binary64) (power : Int) : Option Nat :=
  let low := x.floorAt power
  match x.holds power low, x.holds power (low + 1) with
  | true, true =>
      let middle := x.align power (2 * low + 1) (8 * x.significand)
      if middle.2 < middle.1 || (middle.2 = middle.1 && low % 2 = 0) then some low
      else some (low + 1)
  | true, false => some low
  | false, true => some (low + 1)
  | false, false => none

def search (x : Binary64) : Nat → Int → Digits
  | 0, power => ⟨x.floorAt power, power⟩
  | steps + 1, power =>
      match x.neighbour? power with
      | some digits => ⟨digits, power⟩
      | none => search x steps (power - 1)

def shortest (x : Binary64) : Digits :=
  if x.significand = 0 then ⟨0, 0⟩ else x.search 660 309

end Binary64

/-- How far a point may stand from the digits before an exponent takes over: the decimal is
written out while its point falls after more than `least` and at most `greatest` places. An
exponent always has a sign. -/
structure NumberForm where
  least : Int
  greatest : Int

/-- Numbers in messages are written out from `0.00001` up to sixteen places before the point. -/
def standardForm : NumberForm := ⟨-5, 16⟩

def Digits.write (form : NumberForm) (decimal : Digits) : Text :=
  let digits := Text.decimal decimal.digits
  let point : Int := digits.length + decimal.power
  if decimal.digits = 0 then "0.0".toList
  else if 0 ≤ decimal.power ∧ point ≤ form.greatest then
    digits ++ List.replicate decimal.power.toNat '0' ++ ['.', '0']
  else if 0 < point ∧ point ≤ form.greatest then
    digits.take point.toNat ++ ['.'] ++ digits.drop point.toNat
  else if form.least < point ∧ point ≤ 0 then
    ['0', '.'] ++ List.replicate (-point).toNat '0' ++ digits
  else
    digits.take 1 ++ (if digits.length = 1 then [] else '.' :: digits.drop 1) ++
      ['e', if 0 < point then '+' else '-'] ++ Text.decimal (point - 1).natAbs

end Logbook.Decimal
