import Logbook.Placeholder.Builtin
import Logbook.Proofs.CalendarOrder
import Logbook.Proofs.DigitRows

/-!
# Times in order

The time of a record as it is written when nothing else is asked for: a row of numbers from the year
to the second. These texts compare as the instants do, and the second can be read back from them.
-/

namespace Logbook.Time

open Text (Slot Fits readRow writeRow)

/-! ## Numbers of fixed width -/

theorem Layout.fill_zeros {width n : Nat} (hwidth : 0 < width) (h : n < Nat.pow 10 width) :
    Layout.fill .zeros width false n = Text.lastDigits width n := by
  have hsign : ¬ (n : Int) < 0 := by omega
  rw [← Text.zeros_append_decimal hwidth h]
  simp [Layout.fill, hsign]

theorem Layout.fillYear_zeros {year : Int} (h : 0 ≤ year ∧ year ≤ 9999) :
    Layout.fillYear .zeros year = Text.lastDigits 4 year.toNat := by
  obtain ⟨n, rfl⟩ := Int.eq_ofNat_of_zero_le h.1
  have hfour : n < 10000 := by omega
  rw [Layout.fillYear, if_pos (by omega), Layout.fill_zeros (by omega) hfour, Int.toNat_natCast]

namespace Instant

def InLeapSecond (instant : Instant) : Prop := 1000000000 ≤ instant.nanos

instance : DecidablePred InLeapSecond := fun _ => inferInstanceAs (Decidable (_ ≤ _))

/-- An instant as seen on the meridian, in a year of four digits at most. A leap second follows the
last second of a minute. -/
structure Standard (instant : Instant) : Prop where
  offset : instant.offset = 0
  year : 0 ≤ instant.date.year ∧ instant.date.year ≤ 9999
  nanos : instant.nanos < 2000000000
  leap : instant.InLeapSecond → instant.seconds % 60 = 59

def Before (first second : Instant) : Prop :=
  first.seconds < second.seconds ∨
    (first.seconds = second.seconds ∧ first.nanos < second.nanos)

def dateNumbers (instant : Instant) : List Nat :=
  [instant.date.year.toNat, instant.date.month, instant.date.day]

def clockNumbers (instant : Instant) : List Nat :=
  [instant.hour, instant.minute, instant.second]

def slots : List Slot :=
  [⟨4, ['-']⟩, ⟨2, ['-']⟩, ⟨2, [' ']⟩, ⟨2, [':']⟩, ⟨2, [':']⟩, ⟨2, []⟩]

namespace Standard

variable {instant first second : Instant}

theorem day_eq (h : instant.Standard) : instant.day = instant.seconds / 86400 := by
  rw [day, localSeconds, h.offset, Int.add_zero]

theorem secondOfDay_eq (h : instant.Standard) :
    instant.secondOfDay = (instant.seconds % 86400).toNat := by
  rw [secondOfDay, localSeconds, h.offset, Int.add_zero]

theorem numbers_lt (h : instant.Standard) :
    instant.date.month < 100 ∧ instant.date.day < 100 ∧ instant.hour < 100 ∧
      instant.minute < 100 ∧ instant.second < 100 := by
  obtain ⟨hmonth, hday⟩ := Date.ofDay_lt instant.day
  have hplace := instant.secondOfDay_lt
  have hnanos := h.nanos
  refine ⟨hmonth, hday, ?_⟩
  unfold hour minute Instant.second
  omega

theorem fits (h : instant.Standard) :
    Fits slots (instant.dateNumbers ++ instant.clockNumbers) := by
  have hyear := h.year
  have hnumbers := h.numbers_lt
  have hfour : Nat.pow 10 4 = 10000 := rfl
  have htwo : Nat.pow 10 2 = 100 := rfl
  simp only [Fits, slots, dateNumbers, clockNumbers, List.cons_append, List.nil_append,
    List.forall₂_cons, List.Forall₂.nil, and_true]
  omega

theorem timeText_eq (h : instant.Standard) :
    Builtin.timeText instant [] =
      writeRow slots (instant.dateNumbers ++ instant.clockNumbers) := by
  have hitems : Layout.parse? Format.standardLayout =
      some (Layout.dashedDate ++ [.literal ' '] ++ Layout.clock) := by decide +kernel
  obtain ⟨hmonth, hday, hhour, hminute, hsecond⟩ := h.numbers_lt
  have htwo : ∀ {n : Nat}, n < 100 → Layout.fill .zeros 2 false n = Text.lastDigits 2 n :=
    fun hn => Layout.fill_zeros (by omega) hn
  rw [Builtin.timeText, Format.ofArgument, if_pos rfl, Format.render, Format.renderLayout, hitems]
  simp only [Layout.dashedDate, Layout.clock, Layout.shortClock, Layout.render, Layout.renderItem,
    Layout.renderQuantity, List.cons_append, List.nil_append, List.flatMap_cons, List.flatMap_nil,
    Layout.fillYear_zeros h.year, htwo hmonth, htwo hday, htwo hhour, htwo hminute, htwo hsecond,
    slots, dateNumbers, clockNumbers, writeRow]

/-! ## Order -/

theorem dateNumbers_lt (hfirst : first.Standard) (hsecond : second.Standard)
    (h : first.day < second.day) : first.dateNumbers < second.dateNumbers := by
  have hdates := Date.ofDay_lt_ofDay h
  have hyear := hfirst.year
  have hother := hsecond.year
  simp only [dateNumbers, date, List.cons_lt_cons_iff] at hyear hother ⊢
  omega

/-- Within a day a later second, or the leap second behind a second, is later on the clock. -/
theorem clockNumbers_lt (hfirst : first.Standard) (hsecond : second.Standard)
    (hday : first.day = second.day)
    (h : first.seconds < second.seconds ∨ (first.seconds = second.seconds ∧
      ¬ first.InLeapSecond ∧ second.InLeapSecond)) :
    first.clockNumbers < second.clockNumbers := by
  have hplace := hfirst.secondOfDay_eq
  have hother := hsecond.secondOfDay_eq
  have hnanos := hfirst.nanos
  have hnanos' := hsecond.nanos
  have hleap := hfirst.leap
  rw [hfirst.day_eq, hsecond.day_eq] at hday
  simp only [InLeapSecond] at h hleap
  simp only [clockNumbers, List.cons_lt_cons_iff, hour, minute, Instant.second]
  omega

theorem timeText_lt (hfirst : first.Standard) (hsecond : second.Standard)
    (h : first.seconds < second.seconds ∨ (first.seconds = second.seconds ∧
      ¬ first.InLeapSecond ∧ second.InLeapSecond)) :
    Builtin.timeText first [] < Builtin.timeText second [] := by
  rw [hfirst.timeText_eq, hsecond.timeText_eq]
  apply Text.writeRow_lt hfirst.fits hsecond.fits
  have hdays : first.day ≤ second.day := by
    rw [hfirst.day_eq, hsecond.day_eq]
    omega
  rcases Int.lt_or_eq_of_le hdays with hlt | hsame
  · exact Text.append_lt_append_of_lt (by rfl) (dateNumbers_lt hfirst hsecond hlt) _ _
  · have hdates : first.dateNumbers = second.dateNumbers := by
      simp only [dateNumbers, date, hsame]
    rw [hdates]
    exact List.append_left_lt (clockNumbers_lt hfirst hsecond hsame h)

/-- Instants of one second that are both in its leap second or both not are written alike. -/
theorem timeText_congr (hfirst : first.Standard) (hsecond : second.Standard)
    (h : first.seconds = second.seconds) (hleap : first.InLeapSecond ↔ second.InLeapSecond) :
    Builtin.timeText first [] = Builtin.timeText second [] := by
  have hday : first.day = second.day := by rw [hfirst.day_eq, hsecond.day_eq, h]
  have hplace : first.secondOfDay = second.secondOfDay := by
    rw [hfirst.secondOfDay_eq, hsecond.secondOfDay_eq, h]
  have hleaps : first.nanos / 1000000000 = second.nanos / 1000000000 := by
    have hnanos := hfirst.nanos
    have hnanos' := hsecond.nanos
    simp only [InLeapSecond] at hleap
    omega
  rw [hfirst.timeText_eq, hsecond.timeText_eq]
  simp only [dateNumbers, clockNumbers, date, hour, minute, Instant.second, hday, hplace, hleaps]

end Standard

/-! ## Reading -/

/-- The second that a text tells, and whether it is the leap second behind it. -/
def readTime (text : Text) : Int × Bool :=
  match readRow slots text with
  | [year, month, day, hour, minute, second] =>
      (86400 * (Date.mk year month day).toDay +
        (3600 * hour + 60 * minute + min second 59 : Nat), second = 60)
  | _ => (0, false)

theorem Standard.readTime_timeText {instant : Instant} (h : instant.Standard) :
    readTime (Builtin.timeText instant []) = (instant.seconds, decide instant.InLeapSecond) := by
  rw [h.timeText_eq, readTime, Text.readRow_writeRow h.fits]
  have hdate : Date.mk instant.date.year.toNat instant.date.month instant.date.day =
      instant.date := by rw [Int.toNat_of_nonneg h.year.1]
  have hday : instant.date.toDay = instant.seconds / 86400 := by
    rw [date, Date.toDay_ofDay, h.day_eq]
  have hplace := h.secondOfDay_eq
  have hnanos := h.nanos
  have hleap := h.leap
  simp only [dateNumbers, clockNumbers, List.cons_append, List.nil_append, hdate, hday,
    Prod.mk.injEq, decide_eq_decide]
  unfold InLeapSecond at *
  unfold hour minute Instant.second
  constructor
  · omega
  · omega

/-! ## Times -/

/-- The time of a record that is written when nothing else is asked for. All such texts have one
length. Two of them are equal exactly when the instants share the second and both or neither are in
its leap second, and otherwise they compare as the instants do in time. The second and whether it is
the leap second can be read back. -/
theorem times_sort {first second : Instant} (hfirst : first.Standard) (hsecond : second.Standard) :
    (Builtin.timeText first []).length = 19 ∧
      readTime (Builtin.timeText first []) = (first.seconds, decide first.InLeapSecond) ∧
      (Builtin.timeText first [] = Builtin.timeText second [] ↔
        first.seconds = second.seconds ∧ (first.InLeapSecond ↔ second.InLeapSecond)) ∧
      (Builtin.timeText first [] ≠ Builtin.timeText second [] →
        (Builtin.timeText first [] < Builtin.timeText second [] ↔ first.Before second)) := by
  have hequal : Builtin.timeText first [] = Builtin.timeText second [] ↔
      first.seconds = second.seconds ∧ (first.InLeapSecond ↔ second.InLeapSecond) := by
    constructor
    · intro h
      have hread := hfirst.readTime_timeText
      rw [h, hsecond.readTime_timeText, Prod.mk.injEq, decide_eq_decide] at hread
      exact ⟨hread.1.symm, hread.2.symm⟩
    · exact fun h => hfirst.timeText_congr hsecond h.1 h.2
  refine ⟨?_, hfirst.readTime_timeText, hequal, fun hne => ⟨fun hlt => ?_, fun hbefore => ?_⟩⟩
  · rw [hfirst.timeText_eq, Text.length_writeRow hfirst.fits]
    rfl
  · rw [Ne, hequal] at hne
    by_contra hnot
    have hlater := hsecond.timeText_lt hfirst (by
      unfold Before InLeapSecond at *
      omega)
    exact List.lt_asymm hlt hlater
  · rw [Ne, hequal] at hne
    refine hfirst.timeText_lt hsecond ?_
    unfold Before InLeapSecond at *
    omega

/-- A last second, its leap second and the first second of the next year. -/
theorem times_sort_at_new_year :
    let last : Instant := { seconds := 915148799 }
    let leap : Instant := { seconds := 915148799, nanos := 1500000000 }
    let next : Instant := { seconds := 915148800 }
    Builtin.timeText leap [] = "1998-12-31 23:59:60".toList ∧
      Builtin.timeText last [] < Builtin.timeText leap [] ∧
      Builtin.timeText leap [] < Builtin.timeText next [] := by
  intro last leap next
  have hlast : last.Standard := ⟨rfl, by decide +kernel, by decide, by decide⟩
  have hleap : leap.Standard := ⟨rfl, by decide +kernel, by decide, by decide⟩
  have hnext : next.Standard := ⟨rfl, by decide +kernel, by decide, by decide⟩
  obtain ⟨-, -, hequal, horder⟩ := times_sort hlast hleap
  obtain ⟨-, -, hequal', horder'⟩ := times_sort hleap hnext
  refine ⟨by decide +kernel, ?_, ?_⟩
  · exact (horder (mt hequal.1 (by decide))).2 (.inr (by decide))
  · exact (horder' (mt hequal'.1 (by decide))).2 (.inl (by decide))

end Instant

end Logbook.Time
