import Logbook.Text.Basic

/-!
# Calendar

Days of the proleptic Gregorian calendar, counted from 1 January 1970. `yearOf` is the year whose
first day is the last one not after the given day.
-/

namespace Logbook.Time

/-- How many leap years there are from year 1 to the given year; negative before year 0. -/
def leapYears (year : Int) : Int := year / 4 - year / 100 + year / 400

def isLeap (year : Int) : Bool := year % 4 = 0 && (year % 100 ≠ 0 || year % 400 = 0)

def yearStart (year : Int) : Int := 365 * (year - 1970) + leapYears (year - 1) - 477

/-- The year of a day: the mean length of a year gives a guess that is at most one year off. -/
def yearOf (day : Int) : Int :=
  let guess := 400 * day / 146097 + 1970
  if day < yearStart guess then guess - 1
  else if yearStart (guess + 1) ≤ day then guess + 1
  else guess

theorem leapYears_bounds (year : Int) :
    97 * year - 699 ≤ 400 * leapYears year ∧ 400 * leapYears year ≤ 97 * year + 396 := by
  unfold leapYears; omega

theorem yearStart_yearOf_le (day : Int) : yearStart (yearOf day) ≤ day := by
  have h := leapYears_bounds (400 * day / 146097 + 1970 - 1 - 1)
  unfold yearOf
  dsimp only
  split
  · unfold yearStart; omega
  · split <;> omega

theorem lt_yearStart_succ_yearOf (day : Int) : day < yearStart (yearOf day + 1) := by
  have h := leapYears_bounds (400 * day / 146097 + 1970 + 1 + 1 - 1)
  unfold yearOf
  dsimp only
  split
  · rw [Int.sub_add_cancel]; assumption
  · split
    · unfold yearStart; omega
    · omega

def monthLengths (leap : Bool) : List Nat :=
  [31, if leap then 29 else 28, 31, 30, 31, 30, 31, 31, 30, 31, 30, 31]

/-- The part that a position falls into when parts of the given lengths follow each other, and the
position inside that part. -/
def locate : List Nat → Nat → Nat × Nat
  | [], position => (0, position)
  | length :: rest, position =>
      if position < length then (0, position)
      else
        let found := locate rest (position - length)
        (found.1 + 1, found.2)

/-- A date: months and days of the month count from one. -/
structure Date where
  year : Int
  month : Nat
  day : Nat
  deriving DecidableEq, Repr

/-- The place of a day in its year, counted from zero. -/
def dayOfYear (day : Int) : Nat := (day - yearStart (yearOf day)).toNat

def Date.ofDay (day : Int) : Date :=
  let year := yearOf day
  let place := locate (monthLengths (isLeap year)) (dayOfYear day)
  ⟨year, place.1 + 1, place.2 + 1⟩

/-- The day of the week, counted from Monday. -/
def weekday (day : Int) : Nat := ((day + 3) % 7).toNat

/-- The Thursday of the week, which decides the year that the week belongs to. -/
def thursday (day : Int) : Int := day - weekday day + 3

/-- The year that the week of a day belongs to. -/
def weekYear (day : Int) : Int := yearOf (thursday day)

def weekNumber (day : Int) : Nat := dayOfYear (thursday day) / 7 + 1

/-- The number of weeks that have begun in the year so far, when weeks begin on the weekday that
`sinceStart` counts from. -/
def weeksBegun (day : Int) (sinceStart : Nat) : Nat := (dayOfYear day + 7 - sinceStart) / 7

end Logbook.Time
