import Logbook.Json.Writing
import Logbook.Proofs.JsonGrammar
import Mathlib.Data.List.Chain

/-!
# Scanning written JSON

What is written for a text and for a number is in the grammar, so that a written lexeme is scanned
as that lexeme, whatever is written behind it. Only a number needs something behind it that does not
go on as a number.
-/

namespace Logbook

/-! ## Digits -/

namespace Text

theorem isDigit_digitChar (n : Nat) : (digitChar n).isDigit = true := by
  have hlt : n % 10 < 10 := Nat.mod_lt n (by omega)
  have hall : ∀ d < 10, (Char.ofNat (48 + d)).isDigit = true := by decide
  exact hall (n % 10) hlt

theorem isDigit_of_mem_decimal {n : Nat} {c : Char} (h : c ∈ decimal n) : c.isDigit = true := by
  induction n using Nat.strongRecOn with
  | _ n ih =>
      unfold decimal at h
      split at h
      · rw [List.mem_singleton.1 h]
        exact isDigit_digitChar n
      · rename_i hlarge
        rcases List.mem_append.1 h with hfront | hlast
        · exact ih (n / 10) (by omega) hfront
        · rw [List.mem_singleton.1 hlast]
          exact isDigit_digitChar n

theorem decimal_ne_nil (n : Nat) : decimal n ≠ [] := by
  unfold decimal
  split <;> simp

theorem head?_decimal_ne_zero {n : Nat} (h : 0 < n) : (decimal n).head? ≠ some '0' := by
  induction n using Nat.strongRecOn with
  | _ n ih =>
      unfold decimal
      split
      · rename_i hsmall
        have hall : ∀ d < 10, 0 < d → digitChar d ≠ '0' := by decide
        intro hzero
        exact hall n hsmall h (Option.some.inj hzero)
      · rename_i hlarge
        rw [List.head?_append_of_ne_nil _ (decimal_ne_nil (n / 10))]
        exact ih (n / 10) (by omega) (by omega)

theorem length_decimal_zero : (decimal 0).length = 1 := by
  unfold decimal
  rfl

end Text

namespace Json

/-! ## Strings -/

theorem hexUnit_lastHexDigits (n : Nat) : HexUnit (Text.lastHexDigits 4 n) (n % 65536) := by
  have hunit := HexUnit.digits (Text.hexValue?_hexDigit (n / 16 / 16 / 16))
    (Text.hexValue?_hexDigit (n / 16 / 16)) (Text.hexValue?_hexDigit (n / 16))
    (Text.hexValue?_hexDigit n)
  have hvalue : ((n / 16 / 16 / 16 % 16 * 16 + n / 16 / 16 % 16) * 16 + n / 16 % 16) * 16 + n % 16 =
      n % 65536 := by
    omega
  rwa [hvalue] at hunit

/-- A character below the surrogates can be written by its number. -/
theorem spellsChar_lastHexDigits {c : Char} (h : c.toNat < 0xD800) :
    SpellsChar ('\\' :: 'u' :: Text.lastHexDigits 4 c.toNat) c := by
  have hunit := hexUnit_lastHexDigits c.toNat
  rw [Nat.mod_eq_of_lt (by omega)] at hunit
  have hspells := SpellsChar.number hunit (.inl h)
  rwa [Char.ofNat_toNat] at hspells

theorem mem_shortEscapes {c letter : Char} (h : letterEscapes.lookup c = some letter) :
    (letter, c) ∈ shortEscapes := by
  have hall : ∀ pair ∈ letterEscapes, (pair.2, pair.1) ∈ shortEscapes := by decide
  obtain ⟨before, after, hlist, -⟩ := List.lookup_eq_some_iff.1 h
  exact hall (c, letter) (by simp [hlist])

theorem spellsChar_writeChar (c : Char) : SpellsChar (writeChar c) c := by
  unfold writeChar
  split
  · rename_i hquote
    subst hquote
    exact .short (by decide)
  split
  · rename_i hbackslash
    subst hbackslash
    exact .short (by decide)
  split
  · rename_i hcontrol
    split
    · rename_i letter hletter
      exact .short (mem_shortEscapes hletter)
    · exact spellsChar_lastHexDigits (Nat.lt_trans hcontrol (by decide))
  · rename_i hquote hbackslash hcontrol
    exact .plain hquote hbackslash (Char.not_lt.1 hcontrol)

theorem spells_written (text : Text) : Spells (text.flatMap writeChar) text := by
  induction text with
  | nil => exact .nil
  | cons c text ih =>
      rw [List.flatMap_cons]
      exact .cons (spellsChar_writeChar c) ih

/-! ## Numbers -/

theorem digits_decimal (n : Nat) : Digits (Text.decimal n) :=
  ⟨Text.decimal_ne_nil n, fun _ => Text.isDigit_of_mem_decimal⟩

theorem readUnsigned?_decimal (negative : Bool) (n : Nat) {rest : Text} (h : EndsNumber rest) :
    readUnsigned? negative (Text.decimal n ++ rest) =
      (wholeNumber? negative (Text.decimal n)).map (·, rest) := by
  have hgood : ¬ (Text.decimal n = [] ∨
      (1 < (Text.decimal n).length ∧ (Text.decimal n).head? = some '0')) := by
    rintro (hnil | ⟨hlong, hzero⟩)
    · exact Text.decimal_ne_nil n hnil
    · rcases Nat.eq_zero_or_pos n with rfl | hpos
      · rw [Text.length_decimal_zero] at hlong
        omega
      · exact Text.head?_decimal_ne_zero hpos hzero
  have hdigits := digits_decimal n
  simp only [readUnsigned?, takeWhile_digits hdigits h.endsDigits,
    dropWhile_digits hdigits h.endsDigits, if_neg hgood]
  split
  · exact absurd rfl (h '.' rfl).2.1
  · exact absurd rfl (h 'e' rfl).2.2.1
  · exact absurd rfl (h 'E' rfl).2.2.2
  · rfl

/-! ## Lexemes -/

/-- A lexeme that its text tells: no number but a whole one of 64 bits. -/
def Lexeme.Plain : Lexeme → Prop
  | .number (.natural value) => value ≤ greatestWord
  | .number (.negative size) => 0 < size ∧ size ≤ Nat.pow 2 63
  | .number (.floating _) => False
  | .malformed => False
  | _ => True

def Lexeme.IsNumber : Lexeme → Prop
  | .number _ => True
  | _ => False

theorem scan_natural {value : Nat} (hvalue : value ≤ greatestWord) {rest : Text}
    (hrest : EndsNumber rest) :
    scan (Text.decimal value ++ rest) = .number (.natural value) :: scan rest := by
  have hread : readUnsigned? false (Text.decimal value ++ rest) =
      some (.natural value, rest) := by
    rw [readUnsigned?_decimal false value hrest]
    simp [wholeNumber?, Text.readDecimal_decimal, Nat.not_lt.2 hvalue]
  obtain ⟨c, more, hdecimal, hdigit⟩ := (digits_decimal value).exists_cons
  rw [hdecimal, List.cons_append] at hread ⊢
  refine scan_of_readLexeme? (isSpace_of_isDigit hdigit) ?_
  rw [readLexeme?_of_isDigit hdigit, hread]
  rfl

theorem scan_negative {size : Nat} (hpos : 0 < size) (hsize : size ≤ Nat.pow 2 63) {rest : Text}
    (hrest : EndsNumber rest) :
    scan ('-' :: (Text.decimal size ++ rest)) = .number (.negative size) :: scan rest := by
  have hwhole : ¬ (size = 0 ∨ Nat.pow 2 63 < size) := by omega
  have hread : readUnsigned? true (Text.decimal size ++ rest) = some (.negative size, rest) := by
    rw [readUnsigned?_decimal true size hrest]
    simp only [wholeNumber?, Text.readDecimal_decimal, if_true, if_neg hwhole]
    rfl
  refine scan_of_readLexeme? (by decide) ?_
  rw [readLexeme?, hread]
  rfl

theorem scan_writeString (text rest : Text) :
    scan (writeString text ++ rest) = .string text :: scan rest := by
  rw [writeString, List.cons_append, List.append_assoc]
  exact scan_string (spells_written text) rest

theorem scan_write_append {lexeme : Lexeme} (plain : lexeme.Plain) {rest : Text}
    (hrest : lexeme.IsNumber → EndsNumber rest) :
    scan (lexeme.write ++ rest) = lexeme :: scan rest := by
  cases lexeme with
  | null => exact scan_word (by decide) fun _ => rfl
  | truth value =>
      cases value with
      | true => exact scan_word (by decide) fun _ => rfl
      | false => exact scan_word (by decide) fun _ => rfl
  | number value =>
      cases value with
      | natural value => exact scan_natural plain (hrest trivial)
      | negative size => exact scan_negative plain.1 plain.2 (hrest trivial)
      | floating text => exact plain.elim
  | string text => exact scan_writeString text rest
  | malformed => exact plain.elim
  | _ => exact scan_of_readLexeme? (by decide) rfl

theorem endsNumber_write {lexeme : Lexeme} (plain : lexeme.Plain) (hnumber : ¬ lexeme.IsNumber)
    (rest : Text) : EndsNumber (lexeme.write ++ rest) := by
  intro c hc
  cases lexeme with
  | number value => exact absurd trivial hnumber
  | malformed => exact plain.elim
  | truth value =>
      cases value <;> cases hc <;> decide
  | _ => cases hc; decide

/-- Plain lexemes with no number right behind another come back from their text. -/
theorem scan_write {lexemes : List Lexeme} (plain : ∀ lexeme ∈ lexemes, lexeme.Plain)
    (apart : lexemes.IsChain fun a b => ¬ (a.IsNumber ∧ b.IsNumber)) :
    scan (write lexemes) = lexemes := by
  induction lexemes with
  | nil =>
      rw [write, List.flatMap_nil, scan]
  | cons lexeme rest ih =>
      have hplain := plain lexeme List.mem_cons_self
      have hrest := ih (fun other h => plain other (List.mem_cons_of_mem _ h)) apart.tail
      have hends : lexeme.IsNumber → EndsNumber (write rest) := by
        intro hnumber
        cases rest with
        | nil =>
            intro c hc
            cases hc
        | cons next more =>
            have hnext := (List.isChain_cons_cons.1 apart).1
            rw [write, List.flatMap_cons]
            exact endsNumber_write (plain next (by simp)) (fun h => hnext ⟨hnumber, h⟩) _
      have hscan := scan_write_append hplain hends
      rw [hrest] at hscan
      exact hscan

end Json

end Logbook
