import Logbook.Time.Calendar

/-!
# Dates in order

A later day has a later date, and the day can be computed back from its date. Years have 365 or 366
days and do not overlap; within a year the months follow each other with their lengths.
-/

namespace Logbook.Time

/-! ## Years -/

theorem yearStart_lt {year other : Int} (h : year < other) : yearStart year < yearStart other := by
  have hearly := leapYears_bounds (year - 1)
  have hlate := leapYears_bounds (other - 1)
  unfold yearStart
  omega

theorem yearOf_le {day other : Int} (h : day ≤ other) : yearOf day ≤ yearOf other := by
  have hstart := yearStart_yearOf_le day
  have hend := lt_yearStart_succ_yearOf other
  rcases Int.lt_trichotomy (yearOf other + 1) (yearOf day) with hlt | hnext | hle
  · have hyears := yearStart_lt hlt
    omega
  · rw [hnext] at hend
    omega
  · omega

def total (lengths : List Nat) : Nat := lengths.foldr (· + ·) 0

theorem total_cons (length : Nat) (rest : List Nat) :
    total (length :: rest) = length + total rest := rfl

/-- A year is as long as its months are together. -/
theorem yearStart_succ (year : Int) :
    yearStart (year + 1) = yearStart year + total (monthLengths (isLeap year)) := by
  have hsum : ∀ leap, total (monthLengths leap) = if leap then 366 else 365 := by decide
  rw [hsum]
  unfold yearStart leapYears isLeap
  simp only [Bool.and_eq_true, Bool.or_eq_true, decide_eq_true_eq]
  split <;> omega

theorem dayOfYear_lt (day : Int) :
    dayOfYear day < total (monthLengths (isLeap (yearOf day))) := by
  have hstart := yearStart_yearOf_le day
  have hend := lt_yearStart_succ_yearOf day
  rw [yearStart_succ] at hend
  unfold dayOfYear
  omega

theorem yearStart_add_dayOfYear (day : Int) : yearStart (yearOf day) + dayOfYear day = day := by
  have hstart := yearStart_yearOf_le day
  unfold dayOfYear
  omega

/-! ## Parts of given lengths -/

/-- A position is in a part of its own, behind all parts before it. -/
theorem locate_spec {lengths : List Nat} {position : Nat} (h : position < total lengths) :
    total (lengths.take (locate lengths position).1) + (locate lengths position).2 = position ∧
      ∃ length, lengths[(locate lengths position).1]? = some length ∧
        (locate lengths position).2 < length := by
  induction lengths generalizing position with
  | nil => cases h
  | cons length rest ih =>
      rw [total_cons] at h
      unfold locate
      by_cases hfirst : position < length
      · rw [if_pos hfirst]
        exact ⟨Nat.zero_add position, length, rfl, hfirst⟩
      · rw [if_neg hfirst]
        obtain ⟨hsum, found, hfound, hlt⟩ := @ih (position - length) (by omega)
        refine ⟨?_, found, hfound, hlt⟩
        dsimp only
        rw [List.take_succ_cons, total_cons]
        omega

theorem locate_lt {lengths : List Nat} {position other : Nat} (h : position < other)
    (hother : other < total lengths) :
    (locate lengths position).1 < (locate lengths other).1 ∨
      ((locate lengths position).1 = (locate lengths other).1 ∧
        (locate lengths position).2 < (locate lengths other).2) := by
  induction lengths generalizing position other with
  | nil => cases hother
  | cons length rest ih =>
      rw [total_cons] at hother
      unfold locate
      by_cases hfirst : position < length
      · by_cases hsecond : other < length
        · rw [if_pos hfirst, if_pos hsecond]
          exact .inr ⟨rfl, h⟩
        · rw [if_pos hfirst, if_neg hsecond]
          exact .inl (Nat.succ_pos _)
      · rw [if_neg hfirst, if_neg (by omega)]
        have hrest := @ih (position - length) (other - length) (by omega) (by omega)
        dsimp only
        omega

/-! ## Dates -/

namespace Date

def toDay (date : Date) : Int :=
  yearStart date.year + total ((monthLengths (isLeap date.year)).take (date.month - 1)) +
    (date.day - 1 : Nat)

theorem toDay_ofDay (day : Int) : (ofDay day).toDay = day := by
  obtain ⟨hplace, -⟩ := locate_spec (dayOfYear_lt day)
  have hday := yearStart_add_dayOfYear day
  unfold ofDay toDay
  simp only [Nat.add_sub_cancel]
  omega

theorem ofDay_lt (day : Int) : (ofDay day).month < 100 ∧ (ofDay day).day < 100 := by
  obtain ⟨-, length, hlength, hlt⟩ := locate_spec (dayOfYear_lt day)
  have hmonths := (List.getElem?_eq_some_iff.1 hlength).1
  have hall : ∀ leap, (monthLengths leap).length = 12 ∧ ∀ length ∈ monthLengths leap,
      length ≤ 31 := by decide
  have hmonth := (hall (isLeap (yearOf day))).1
  have hday := (hall (isLeap (yearOf day))).2 length (List.mem_of_getElem? hlength)
  unfold ofDay
  dsimp only
  omega

/-- A later day has a later date. -/
theorem ofDay_lt_ofDay {day other : Int} (h : day < other) :
    (ofDay day).year < (ofDay other).year ∨
      ((ofDay day).year = (ofDay other).year ∧
        ((ofDay day).month < (ofDay other).month ∨
          ((ofDay day).month = (ofDay other).month ∧ (ofDay day).day < (ofDay other).day))) := by
  have hyears := yearOf_le (Int.le_of_lt h)
  unfold ofDay
  dsimp only
  rcases Int.lt_or_eq_of_le hyears with hlt | hsame
  · exact .inl hlt
  · have hplaces : dayOfYear day < dayOfYear other := by
      have hday := yearStart_add_dayOfYear day
      have hother := yearStart_add_dayOfYear other
      rw [hsame] at hday
      omega
    have hmonths := locate_lt hplaces (dayOfYear_lt other)
    rw [hsame]
    omega

end Date

end Logbook.Time
