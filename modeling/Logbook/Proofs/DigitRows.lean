import Logbook.Text.Digits
import Mathlib.Data.List.Forall2
import Mathlib.Order.Defs.LinearOrder

/-!
# Rows of numbers

Numbers with a fixed number of digits each and fixed texts between them. Rows compare as their
numbers do, from the front, and the numbers can be read back from their places.
-/

namespace Logbook.Text

/-- Lists of one length that differ compare alike, whatever follows them. -/
theorem append_lt_append_of_lt {α : Type} [LT α] [Std.Irrefl fun a b : α => a < b]
    {first second : List α} (hlength : first.length = second.length) (h : first < second)
    (more other : List α) : first ++ more < second ++ other := by
  induction first generalizing second with
  | nil =>
      obtain rfl : second = [] := List.length_eq_zero_iff.1 hlength.symm
      exact absurd h (List.lt_irrefl _)
  | cons a rest ih =>
      cases second with
      | nil => cases hlength
      | cons b last =>
          rw [List.cons_append, List.cons_append, List.cons_lt_cons_iff]
          rcases List.cons_lt_cons_iff.1 h with hhead | ⟨rfl, htail⟩
          · exact .inl hhead
          · exact .inr ⟨rfl, ih (Nat.succ.inj hlength) htail⟩

/-! ## One number -/

theorem digitChar_lt {n m : Nat} (h : n % 10 < m % 10) : digitChar n < digitChar m := by
  have hall : ∀ d < 10, ∀ e < d, Char.ofNat (48 + e) < Char.ofNat (48 + d) := by decide
  exact hall (m % 10) (Nat.mod_lt m (by omega)) (n % 10) h

theorem lastDigits_lt {count n m : Nat} (h : n < m) (hm : m < Nat.pow 10 count) :
    lastDigits count n < lastDigits count m := by
  induction count generalizing n m with
  | zero =>
      replace hm : m < 1 := hm
      omega
  | succ count ih =>
      replace hm : m < Nat.pow 10 count * 10 := hm
      rw [lastDigits, lastDigits]
      rcases Nat.lt_or_ge (n / 10) (m / 10) with hlt | hge
      · exact append_lt_append_of_lt (by simp) (ih hlt (by omega)) _ _
      · have hsame : n / 10 = m / 10 := by omega
        have hdigit : digitChar n < digitChar m := digitChar_lt (by omega)
        rw [hsame]
        exact List.append_left_lt (List.cons_lt_cons_iff.2 (.inl hdigit))

theorem lastDigits_zero (count : Nat) : lastDigits count 0 = List.replicate count '0' := by
  induction count with
  | zero => rfl
  | succ count ih =>
      rw [lastDigits, Nat.zero_div, ih, List.replicate_succ']
      rfl

/-- A number that is filled up with zeros to a width that it keeps within. -/
theorem zeros_append_decimal {width n : Nat} (hwidth : 0 < width) (h : n < Nat.pow 10 width) :
    List.replicate (width - (decimal n).length) '0' ++ decimal n = lastDigits width n := by
  induction width generalizing n with
  | zero => omega
  | succ width ih =>
      replace h : n < Nat.pow 10 width * 10 := h
      by_cases hone : n < 10
      · rw [decimal, if_pos hone, lastDigits, Nat.div_eq_of_lt hone, lastDigits_zero]
        rfl
      · have hpos : 0 < width := by
          rcases Nat.eq_zero_or_pos width with rfl | hpos
          · replace h : n < 1 * 10 := h
            omega
          · exact hpos
        rw [decimal, if_neg hone, lastDigits, ← ih hpos (by omega), List.length_append,
          List.length_singleton, Nat.add_sub_add_right, List.append_assoc]

/-! ## Rows -/

/-- A place for a number: how many digits it has, and what stands behind it. -/
structure Slot where
  width : Nat
  behind : Text

def writeRow : List Slot → List Nat → Text
  | slot :: slots, n :: rest =>
      lastDigits slot.width n ++ (slot.behind ++ writeRow slots rest)
  | _, _ => []

def readRow : List Slot → Text → List Nat
  | [], _ => []
  | slot :: slots, row =>
      readDecimal (row.take slot.width) ::
        readRow slots (row.drop (slot.width + slot.behind.length))

def rowLength : List Slot → Nat
  | [] => 0
  | slot :: slots => slot.width + slot.behind.length + rowLength slots

/-- Every number has enough digits. -/
def Fits : List Slot → List Nat → Prop := List.Forall₂ fun slot n => n < Nat.pow 10 slot.width

variable {slots : List Slot} {numbers others : List Nat}

theorem length_writeRow (h : Fits slots numbers) :
    (writeRow slots numbers).length = rowLength slots := by
  induction h with
  | nil => rfl
  | cons _ _ ih => simp [writeRow, rowLength, ih, Nat.add_assoc]

theorem readRow_writeRow (h : Fits slots numbers) :
    readRow slots (writeRow slots numbers) = numbers := by
  induction h with
  | nil => rfl
  | @cons slot n slots rest hn _ ih =>
      have hdigits := length_lastDigits slot.width n
      rw [writeRow, readRow, List.take_left' hdigits, readDecimal_lastDigits, ← List.drop_drop,
        List.drop_left' hdigits, List.drop_left, ih]
      exact congrArg (· :: rest) (Nat.mod_eq_of_lt hn)

/-- Rows compare as their numbers do, from the front. -/
theorem writeRow_lt (hnumbers : Fits slots numbers) (hothers : Fits slots others)
    (h : numbers < others) : writeRow slots numbers < writeRow slots others := by
  induction hnumbers generalizing others with
  | nil =>
      cases hothers
      exact absurd h (List.lt_irrefl _)
  | @cons slot n slots rest hn _ ih =>
      cases hothers with
      | @cons _ m _ last hm hlast =>
          rw [writeRow, writeRow]
          rcases List.cons_lt_cons_iff.1 h with hlt | ⟨rfl, htail⟩
          · exact append_lt_append_of_lt (by simp) (lastDigits_lt hlt hm) _ _
          · exact List.append_left_lt (List.append_left_lt (ih hlast htail))

end Logbook.Text
