import Logbook.Level.Parse
import Logbook.Proofs.CapitalLetters
import Mathlib.Data.List.Forall2
import Mathlib.Data.List.TakeWhile

/-!
# Names of levels

Which texts name a level. Reading turns a text into capitals before it compares it with the names;
these are such that only letters of ASCII, in either case, and the dotless i come to stand for their
letters.
-/

namespace Logbook

namespace Text

/-! ## Blanks around a text -/

theorem exists_trim (text : Text) : ∃ before after, text = before ++ trim text ++ after ∧
    (∀ c ∈ before, isBlank c = true) ∧ ∀ c ∈ after, isBlank c = true := by
  let start := trimStart text
  have hstart : text.takeWhile isBlank ++ start = text := List.takeWhile_append_dropWhile
  have hend : trim text ++ (start.reverse.takeWhile isBlank).reverse = start := by
    rw [trim, trimEnd, ← List.reverse_append, List.takeWhile_append_dropWhile, List.reverse_reverse]
  refine ⟨text.takeWhile isBlank, (start.reverse.takeWhile isBlank).reverse, ?_, ?_, ?_⟩
  · rw [List.append_assoc, hend, hstart]
  · exact fun c hc => List.mem_takeWhile_imp hc
  · exact fun c hc => List.mem_takeWhile_imp (List.mem_reverse.1 hc)

theorem trimStart_of_not_blank {text : Text} (h : ∀ c ∈ text, isBlank c = false) :
    trimStart text = text := by
  cases text with
  | nil => rfl
  | cons c rest => exact List.dropWhile_cons_of_neg (by simp [h c List.mem_cons_self])

theorem trim_append {before word after : Text} (hbefore : ∀ c ∈ before, isBlank c = true)
    (hword : ∀ c ∈ word, isBlank c = false) (hafter : ∀ c ∈ after, isBlank c = true) :
    trim (before ++ word ++ after) = word := by
  have hstart : trimStart (before ++ word ++ after) = trimStart (word ++ after) := by
    rw [List.append_assoc]
    exact List.dropWhile_append_of_pos hbefore
  have hend : trimEnd (word ++ after) = word := by
    have hreverse : ∀ c ∈ after.reverse, isBlank c = true := fun c hc =>
      hafter c (List.mem_reverse.1 hc)
    rw [trimEnd, List.reverse_append, List.dropWhile_append_of_pos hreverse, ← trimStart,
      trimStart_of_not_blank fun c hc => hword c (List.mem_reverse.1 hc), List.reverse_reverse]
  rw [trim, hstart]
  cases word with
  | nil =>
      have hnone : trimStart after = [] := List.dropWhile_eq_nil_iff.2 hafter
      simp [hnone, trimEnd]
  | cons c rest =>
      have hc : ¬ isBlank c = true := by simp [hword c List.mem_cons_self]
      rwa [trimStart, List.cons_append, List.dropWhile_cons_of_neg hc]

end Text

namespace Level

/-! ## Letters -/

/-- A letter of a name is written as itself, as its small letter, or, when it is `I`, as the dotless
i. -/
def Writes (c letter : Char) : Prop := c = letter ∨ c = letter.toLower ∨ (c = 'ı' ∧ letter = 'I')

/-- The words for a level: its names, letter by letter. -/
def Named (level : Level) (word : Text) : Prop :=
  List.Forall₂ Writes word level.name ∨ List.Forall₂ Writes word level.shortName

theorem toNat_of_isUpper {letter : Char} (h : letter.isUpper = true) : letter.toNat < 0x80 := by
  have hbounds : 'A'.val ≤ letter.val ∧ letter.val ≤ 'Z'.val := of_decide_eq_true h
  exact Nat.lt_of_le_of_lt (UInt32.le_iff_toNat_le.1 hbounds.2) (by decide)

/-- In ASCII, the characters with a capital are that capital and its small letter. -/
theorem toUpper_eq_iff {c letter : Char} (hc : c.toNat < 0x80) (h : letter.isUpper = true) :
    c.toUpper = letter ↔ c = letter ∨ c = letter.toLower := by
  have hback : c.toUpper.isUpper = true → c = c.toUpper ∨ c = c.toUpper.toLower :=
    Text.ascii_forall
      (p := fun d => d.toUpper.isUpper = true → d = d.toUpper ∨ d = d.toUpper.toLower)
      (by decide) hc
  have hkept : letter.isUpper = true → letter.toUpper = letter ∧ letter.toLower.toUpper = letter :=
    Text.ascii_forall (p := fun d => d.isUpper = true → d.toUpper = d ∧ d.toLower.toUpper = d)
      (by decide) (toNat_of_isUpper h)
  constructor
  · rintro rfl
    exact hback h
  · rintro (rfl | rfl)
    · exact (hkept h).1
    · exact (hkept h).2

theorem toLower_of_isUpper {letter : Char} (h : letter.isUpper = true) :
    letter.toLower.toNat < 0x80 ∧ Text.isBlank letter = false ∧
      Text.isBlank letter.toLower = false := by
  refine Text.ascii_forall (p := fun d => d.isUpper = true → d.toLower.toNat < 0x80 ∧
    Text.isBlank d = false ∧ Text.isBlank d.toLower = false) ?_ (toNat_of_isUpper h) h
  decide

def IsLetter (c : Char) : Prop := c.toNat < 0x80 ∨ c = 'ı'

theorem Writes.isLetter {c letter : Char} (hwrites : Writes c letter) (h : letter.isUpper = true) :
    IsLetter c := by
  rcases hwrites with rfl | rfl | ⟨hi, -⟩
  · exact .inl (toNat_of_isUpper h)
  · exact .inl (toLower_of_isUpper h).1
  · exact .inr hi

theorem IsLetter.exists_capital {c : Char} (hc : IsLetter c) :
    ∃ letter, Text.capitals c = [letter] := by
  rcases hc with hascii | rfl
  · exact ⟨c.toUpper, Text.capitals_of_ascii hascii⟩
  · exact ⟨'I', Text.capitals_dotless⟩

theorem IsLetter.capitals_eq_iff {c letter : Char} (hc : IsLetter c)
    (h : letter.isUpper = true) : Text.capitals c = [letter] ↔ Writes c letter := by
  unfold Writes
  rcases hc with hascii | rfl
  · have hne : c ≠ 'ı' := by
      rintro rfl
      exact absurd hascii (by decide)
    simp [Text.capitals_of_ascii hascii, toUpper_eq_iff hascii h, hne]
  · have hne : 'ı' ≠ letter := by
      rintro rfl
      exact absurd (toNat_of_isUpper h) (by decide)
    have hneLower : 'ı' ≠ letter.toLower := by
      intro heq
      have hsmall := (toLower_of_isUpper h).1
      rw [← heq] at hsmall
      exact absurd hsmall (by decide)
    simp [Text.capitals_dotless, hne, hneLower, eq_comm]

/-- Nothing that stands for a letter is a blank. -/
theorem Writes.not_blank {c letter : Char} (hwrites : Writes c letter)
    (h : letter.isUpper = true) : Text.isBlank c = false := by
  rcases hwrites with rfl | rfl | ⟨rfl, -⟩
  · exact (toLower_of_isUpper h).2.1
  · exact (toLower_of_isUpper h).2.2
  · decide

/-! ## Names -/

def names (level : Level) : List Text := [level.name, level.shortName]

theorem isUpper_of_mem_names {level : Level} :
    ∀ name ∈ level.names, ∀ letter ∈ name, letter.isUpper = true := by
  have hall : ∀ name ∈ level.names, name.all Char.isUpper = true := by cases level <;> decide
  exact fun name hname => List.all_eq_true.1 (hall name hname)

/-- No character outside of ASCII has its capitals in a name, but for the dotless i. -/
theorem not_borrowed_infix {level : Level} :
    ∀ name ∈ level.names, ∀ borrowed ∈ Text.borrowedCapitals, ¬ borrowed <:+: name := by
  cases level <;> decide +kernel

/-- A word whose capitals are a name has letters of ASCII and the dotless i only. -/
theorem isLetter_of_upper {level : Level} {word : Text} (h : Text.upper word ∈ level.names) :
    ∀ c ∈ word, IsLetter c := by
  intro c hc
  by_contra hother
  obtain ⟨hascii, hne⟩ := not_or.1 hother
  have hpart : Text.capitals c <:+: Text.upper word := List.infix_flatMap_of_mem hc _
  rcases Text.capitals_of_not_ascii (Nat.not_lt.1 hascii) hne with ⟨d, hd, hforeign⟩ | hborrowed
  · have hupper := isUpper_of_mem_names _ h d (hpart.subset hd)
    exact absurd (toNat_of_isUpper hupper) (Nat.not_lt.2 hforeign)
  · exact not_borrowed_infix _ h _ hborrowed hpart

theorem exists_writes {word name : Text} (h : List.Forall₂ Writes word name) {c : Char}
    (hc : c ∈ word) : ∃ letter ∈ name, Writes c letter := by
  induction h with
  | nil => cases hc
  | cons hfirst _ ih =>
      rcases List.mem_cons.1 hc with rfl | hrest
      · exact ⟨_, List.mem_cons_self, hfirst⟩
      · obtain ⟨letter, hm, hwrites⟩ := ih hrest
        exact ⟨letter, List.mem_cons_of_mem _ hm, hwrites⟩

/-- Each character of a word for a level stands for a capital. -/
theorem Named.exists_letter {level : Level} {word : Text} (h : level.Named word) {c : Char}
    (hc : c ∈ word) : ∃ letter, letter.isUpper = true ∧ Writes c letter := by
  rcases h with h | h <;> obtain ⟨letter, hm, hwrites⟩ := exists_writes h hc
  · exact ⟨letter, isUpper_of_mem_names _ List.mem_cons_self letter hm, hwrites⟩
  · have hshort : level.shortName ∈ level.names := List.mem_cons_of_mem _ List.mem_cons_self
    exact ⟨letter, isUpper_of_mem_names _ hshort letter hm, hwrites⟩

theorem Named.isLetter {level : Level} {word : Text} (h : level.Named word) :
    ∀ c ∈ word, IsLetter c := by
  intro c hc
  obtain ⟨letter, hupper, hwrites⟩ := h.exists_letter hc
  exact hwrites.isLetter hupper

theorem Named.not_blank {level : Level} {word : Text} (h : level.Named word) :
    ∀ c ∈ word, Text.isBlank c = false := by
  intro c hc
  obtain ⟨letter, hupper, hwrites⟩ := h.exists_letter hc
  exact hwrites.not_blank hupper

/-- Letter by letter, a word of such characters has a name for its capitals if it writes it. -/
theorem upper_eq_iff {word name : Text} (hword : ∀ c ∈ word, IsLetter c)
    (hname : ∀ letter ∈ name, letter.isUpper = true) :
    Text.upper word = name ↔ List.Forall₂ Writes word name := by
  induction word generalizing name with
  | nil => cases name <;> simp [Text.upper]
  | cons c rest ih =>
      obtain ⟨hc, hrest⟩ := List.forall_mem_cons.1 hword
      obtain ⟨capital, hcapital⟩ := hc.exists_capital
      rw [Text.upper, List.flatMap_cons, ← Text.upper, hcapital, List.singleton_append]
      cases name with
      | nil => simp
      | cons letter others =>
          obtain ⟨hletter, hothers⟩ := List.forall_mem_cons.1 hname
          rw [List.cons.injEq, List.forall₂_cons, ih hrest hothers, ← hc.capitals_eq_iff hletter,
            hcapital, List.singleton_inj]

/-- The words for a level are those whose capitals are a name of it. -/
theorem upper_mem_names_iff {level : Level} {word : Text} :
    Text.upper word ∈ level.names ↔ level.Named word := by
  have hiff : (∀ c ∈ word, IsLetter c) → (Text.upper word ∈ level.names ↔ level.Named word) := by
    intro hword
    have hname := upper_eq_iff hword (isUpper_of_mem_names level.name List.mem_cons_self)
    have hshort := upper_eq_iff hword
      (isUpper_of_mem_names level.shortName (List.mem_cons_of_mem _ List.mem_cons_self))
    rw [names, List.mem_pair, hname, hshort, Named]
  exact ⟨fun h => (hiff (isLetter_of_upper h)).1 h, fun h => (hiff h.isLetter).2 h⟩

/-! ## Reading -/

theorem ofName?_eq_some_iff {text : Text} {level : Level} :
    ofName? text = some level ↔ text ∈ level.names := by
  constructor
  · intro h
    have hfound := List.find?_some h
    simpa [names] using hfound
  · intro h
    rcases List.mem_pair.1 h with rfl | rfl
    · exact ofName?_name level
    · exact ofName?_shortName level

theorem parse_eq_ok_iff {text : Text} {level : Level} :
    parse text = .ok level ↔ level.Named (Text.trim text) := by
  rw [← upper_mem_names_iff, ← ofName?_eq_some_iff, ← ofText?, parse]
  cases ofText? text <;> simp

/-- A text is read as a level exactly when its capitals, by the mapping of Unicode and without the
blanks around it, are a name of the level, which is to say that a word for the level stands between
blanks: its full or its short name, each letter in either case, or as the dotless i where it is an
`I`. Every other text is refused with an error that quotes it as it is. -/
theorem read_by_name (text : Text) :
    (∀ level, parse text = .ok level ↔ Text.upper (Text.trim text) ∈ level.names) ∧
    (∀ level, parse text = .ok level ↔ level.Named (Text.trim text)) ∧
    (∀ level, parse text = .ok level ↔
      ∃ before word after, text = before ++ word ++ after ∧ level.Named word ∧
        (∀ c ∈ before, Text.isBlank c = true) ∧ ∀ c ∈ after, Text.isBlank c = true) ∧
    (parse text = .error (.configuration "LogLevel".toList
        ("invalid log level: '".toList ++ text ++ "'".toList)) ↔
      ∀ level : Level, ¬ level.Named (Text.trim text)) := by
  refine ⟨fun level => ?_, fun level => parse_eq_ok_iff, fun level => ?_, ?_⟩
  · rw [parse_eq_ok_iff, upper_mem_names_iff]
  · rw [parse_eq_ok_iff]
    constructor
    · intro h
      obtain ⟨before, after, htext, hbefore, hafter⟩ := Text.exists_trim text
      exact ⟨before, _, after, htext, h, hbefore, hafter⟩
    · rintro ⟨before, word, after, rfl, h, hbefore, hafter⟩
      rwa [Text.trim_append hbefore h.not_blank hafter]
  · simp only [← parse_eq_ok_iff]
    unfold parse
    cases ofText? text with
    | none => simp [invalid]
    | some level => simp

example : parse "\u3000wArnıng\n".toList = .ok .warning := by decide +kernel

end Level

end Logbook
