import Logbook.Text.Basic

/-!
# Decimal digits

Numbers written with as many digits as they need or with a fixed number of digits, and the reading
that undoes both.
-/

namespace Logbook.Text

def digitChar (n : Nat) : Char := Char.ofNat (48 + n % 10)

def digitValue (c : Char) : Nat := c.toNat - 48

theorem digitValue_digitChar (n : Nat) : digitValue (digitChar n) = n % 10 := by
  have h : n % 10 < 10 := Nat.mod_lt _ (by omega)
  unfold digitValue digitChar
  generalize n % 10 = d at h
  match d, h with
  | 0, _ | 1, _ | 2, _ | 3, _ | 4, _ | 5, _ | 6, _ | 7, _ | 8, _ | 9, _ => rfl
  | _ + 10, h => omega

def decimal (n : Nat) : Text :=
  if n < 10 then [digitChar n] else decimal (n / 10) ++ [digitChar n]
  termination_by n

def lastDigits : Nat → Nat → Text
  | 0, _ => []
  | count + 1, n => lastDigits count (n / 10) ++ [digitChar n]

@[simp] theorem length_lastDigits (count n : Nat) : (lastDigits count n).length = count := by
  induction count generalizing n with
  | zero => rfl
  | succ count ih => simp [lastDigits, ih]

def readDecimal (digits : Text) : Nat := digits.foldl (fun n c => 10 * n + digitValue c) 0

theorem readDecimal_append_singleton (digits : Text) (c : Char) :
    readDecimal (digits ++ [c]) = 10 * readDecimal digits + digitValue c := by
  simp [readDecimal]

theorem readDecimal_decimal (n : Nat) : readDecimal (decimal n) = n := by
  induction n using Nat.strongRecOn with
  | _ n ih =>
      unfold decimal
      split
      · rename_i h
        simp [readDecimal, digitValue_digitChar]
        omega
      · rename_i h
        rw [readDecimal_append_singleton, ih (n / 10) (by omega), digitValue_digitChar]
        omega

theorem readDecimal_lastDigits (count n : Nat) :
    readDecimal (lastDigits count n) = n % Nat.pow 10 count := by
  induction count generalizing n with
  | zero => simp [lastDigits, readDecimal, Nat.mod_one]
  | succ count ih =>
      rw [lastDigits, readDecimal_append_singleton, ih, digitValue_digitChar]
      change _ = n % (Nat.pow 10 count * 10)
      rw [Nat.mul_comm (Nat.pow 10 count) 10, Nat.mod_mul]
      omega

def signed (n : Int) : Text :=
  if n < 0 then '-' :: decimal n.natAbs else decimal n.natAbs

def hexDigit (n : Nat) : Char :=
  if n % 16 < 10 then digitChar (n % 16) else Char.ofNat (87 + n % 16)

def hexadecimal (n : Nat) : Text :=
  if n < 16 then [hexDigit n] else hexadecimal (n / 16) ++ [hexDigit n]
  termination_by n

def lastHexDigits : Nat → Nat → Text
  | 0, _ => []
  | count + 1, n => lastHexDigits count (n / 16) ++ [hexDigit n]

def hexValue? (c : Char) : Option Nat :=
  if '0' ≤ c ∧ c ≤ '9' then some (c.toNat - 48)
  else if 'a' ≤ c ∧ c ≤ 'f' then some (c.toNat - 87)
  else if 'A' ≤ c ∧ c ≤ 'F' then some (c.toNat - 55)
  else none

theorem hexValue?_hexDigit (n : Nat) : hexValue? (hexDigit n) = some (n % 16) := by
  have h : n % 16 < 16 := Nat.mod_lt _ (by omega)
  unfold hexDigit
  generalize n % 16 = d at h
  match d, h with
  | 0, _ | 1, _ | 2, _ | 3, _ | 4, _ | 5, _ | 6, _ | 7, _ => rfl
  | 8, _ | 9, _ | 10, _ | 11, _ | 12, _ | 13, _ | 14, _ | 15, _ => rfl
  | _ + 16, h => omega

end Logbook.Text
