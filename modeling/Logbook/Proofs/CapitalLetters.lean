import Logbook.Text.Capitals

/-!
# Capitals in ASCII

The only characters outside of ASCII whose capitals are all in ASCII are the dotless i, the long s,
the sharp s and the seven ligatures of Latin letters.
-/

namespace Logbook.Text

/-- A property of all characters in ASCII, decided number by number. -/
theorem ascii_forall {p : Char → Prop} (h : ∀ n < 0x80, p (Char.ofNat n)) {c : Char}
    (hc : c.toNat < 0x80) : p c := by
  have hn := h c.toNat hc
  rwa [Char.ofNat_toNat] at hn

/-- Capitals in ASCII that a character outside of it can have, apart from the dotless i. -/
def borrowedCapitals : List Text :=
  ["S".toList, "SS".toList, "ST".toList, "FF".toList, "FI".toList, "FL".toList, "FFI".toList,
    "FFL".toList]

namespace CapitalRange

theorem bounds_of_covers {range : CapitalRange} {n : Nat} (h : range.covers n = true) :
    range.first ≤ n ∧ n ≤ range.last := by
  simp only [covers, Bool.and_eq_true, decide_eq_true_eq] at h
  exact h.1

/-- Whether no first capital of the range is in ASCII. -/
def isForeign (range : CapitalRange) : Bool :=
  0x80 ≤ range.capital && (range.capital + (range.last - range.first) < 0xD800 ||
    (0xDFFF < range.capital && range.capital + (range.last - range.first) < 0x110000))

/-- Whether the range is one character, with capitals as described. -/
def isBorrower (range : CapitalRange) : Bool :=
  range.first = range.last &&
    (range.capitals range.first ∈ borrowedCapitals || range.more.any fun d => 0x80 ≤ d.toNat)

theorem further_cases : ∀ range ∈ furtherRanges, 0x80 ≤ range.first ∧
    (range = ⟨0x131, 0x131, 1, 0x49, []⟩ ∨ range.isForeign = true ∨ range.isBorrower = true) := by
  decide +kernel

/-- The first capital of a foreign range is a character of its own number. -/
theorem toNat_of_isForeign {range : CapitalRange} (h : range.isForeign = true) {n : Nat}
    (hn : range.covers n = true) :
    0x80 ≤ (Char.ofNat (range.capital + (n - range.first))).toNat := by
  simp only [isForeign, Bool.and_eq_true, Bool.or_eq_true, decide_eq_true_eq] at h
  have hbounds := bounds_of_covers hn
  have hvalid : (range.capital + (n - range.first)).isValidChar := by
    unfold Nat.isValidChar
    omega
  have hnumber : (Char.ofNat (range.capital + (n - range.first))).toNat =
      range.capital + (n - range.first) := by
    rw [Char.ofNat, dif_pos hvalid]
    rfl
  rw [hnumber]
  exact Nat.le_add_right_of_le h.1

end CapitalRange

theorem capitals_of_ascii {c : Char} (h : c.toNat < 0x80) : capitals c = [c.toUpper] := by
  have hfurther : furtherRanges.find? (fun range => range.covers c.toNat) = none := by
    apply List.find?_eq_none.2
    intro range hrange hcovers
    have hfirst := (CapitalRange.further_cases range hrange).1
    have hbounds := CapitalRange.bounds_of_covers hcovers
    omega
  let found (d : Char) : Text :=
    if asciiRange.covers d.toNat then asciiRange.capitals d.toNat else [d]
  have hc : found c = [c.toUpper] :=
    ascii_forall (p := fun d => found d = [d.toUpper]) (by decide +kernel) h
  rw [← hc, capitals, List.find?_cons]
  simp only [found]
  cases asciiRange.covers c.toNat with
  | true => rfl
  | false => simp [hfurther]

theorem capitals_dotless : capitals 'ı' = ['I'] := by decide +kernel

/-- Outside of ASCII, capitals in ASCII come of few characters. -/
theorem capitals_of_not_ascii {c : Char} (h : 0x80 ≤ c.toNat) (hne : c ≠ 'ı') :
    (∃ d ∈ capitals c, 0x80 ≤ d.toNat) ∨ capitals c ∈ borrowedCapitals := by
  have hascii : asciiRange.covers c.toNat = false := by
    refine Bool.eq_false_iff.2 fun hcovers => ?_
    have hlast : c.toNat ≤ 0x7A := (CapitalRange.bounds_of_covers hcovers).2
    omega
  simp only [capitals, List.find?_cons, hascii]
  cases hfound : furtherRanges.find? fun range => range.covers c.toNat with
  | none => exact .inl ⟨c, List.mem_singleton_self c, h⟩
  | some range =>
      have hcovers := List.find?_some hfound
      obtain ⟨hfirst, hlast⟩ := CapitalRange.bounds_of_covers hcovers
      obtain ⟨-, rfl | hforeign | hborrower⟩ :=
        CapitalRange.further_cases range (List.mem_of_find?_eq_some hfound)
      · have hc : c.toNat = 'ı'.toNat := Nat.le_antisymm hlast hfirst
        exact absurd (Char.toNat_inj.1 hc) hne
      · exact .inl ⟨_, List.mem_cons_self, CapitalRange.toNat_of_isForeign hforeign hcovers⟩
      · simp only [CapitalRange.isBorrower, Bool.and_eq_true, Bool.or_eq_true, decide_eq_true_eq,
          List.any_eq_true] at hborrower
        obtain ⟨hone, hborrowed | ⟨d, hd, hnat⟩⟩ := hborrower
        · have hc : c.toNat = range.first := by omega
          exact .inr (hc ▸ hborrowed)
        · exact .inl ⟨d, List.mem_cons_of_mem _ hd, hnat⟩

example : upper "ﬂoß".toList = "FLOSS".toList := by decide +kernel

end Logbook.Text
