import Logbook.Json.Reading

/-!
# The grammar of JSON

The texts of JSON, stated without the scanner: blanks, strings with all their escapes, numerals,
and arrays and objects of any depth with blanks wherever they may stand. A text of the grammar is
scanned up to its end, whatever is written behind it. What matters of a value in front is its first
lexeme, which is the whole value, unless it opens an array or an object or is too large a number.
-/

namespace Logbook.Json

/-! ## Texts of the grammar -/

def Blank (text : Text) : Prop := ∀ c ∈ text, c = ' ' ∨ c = '\n' ∨ c = '\t' ∨ c = '\r'

inductive HexUnit : Text → Nat → Prop where
  | digits {a b c d : Char} {i j k l : Nat} : Text.hexValue? a = some i →
      Text.hexValue? b = some j → Text.hexValue? c = some k → Text.hexValue? d = some l →
      HexUnit [a, b, c, d] (((i * 16 + j) * 16 + k) * 16 + l)

/-- What stands for one character inside of a string: the character itself, a short escape, or an
escape by number, which for characters above `0xFFFF` takes a pair of surrogates. -/
inductive SpellsChar : Text → Char → Prop where
  | plain {c : Char} : c ≠ '"' → c ≠ '\\' → ' ' ≤ c → SpellsChar [c] c
  | short {letter c : Char} : (letter, c) ∈ shortEscapes → SpellsChar ['\\', letter] c
  | number {digits : Text} {n : Nat} : HexUnit digits n → n < 0xD800 ∨ 0xDFFF < n →
      SpellsChar ('\\' :: 'u' :: digits) (Char.ofNat n)
  | pair {digits more : Text} {high low : Nat} : HexUnit digits high → 0xD800 ≤ high →
      high ≤ 0xDBFF → HexUnit more low → 0xDC00 ≤ low → low ≤ 0xDFFF →
      SpellsChar ('\\' :: 'u' :: (digits ++ '\\' :: 'u' :: more))
        (Char.ofNat (0x10000 + (high - 0xD800) * 0x400 + (low - 0xDC00)))

inductive Spells : Text → Text → Prop where
  | nil : Spells [] []
  | cons {spelling more text : Text} {c : Char} :
      SpellsChar spelling c → Spells more text → Spells (spelling ++ more) (c :: text)

def Digits (text : Text) : Prop := text ≠ [] ∧ ∀ c ∈ text, c.isDigit = true

inductive Fraction : Text → Prop where
  | none : Fraction []
  | digits {digits : Text} : Digits digits → Fraction ('.' :: digits)

inductive Exponent : Text → Prop where
  | none : Exponent []
  | digits {e : Char} {sign digits : Text} : e = 'e' ∨ e = 'E' →
      sign = [] ∨ sign = ['+'] ∨ sign = ['-'] → Digits digits → Exponent (e :: (sign ++ digits))

/-- A number. Before the point there is no zero in front of other digits. -/
inductive Numeral : Text → Prop where
  | digits {sign whole fraction exponent : Text} : sign = [] ∨ sign = ['-'] → Digits whole →
      (whole.head? = some '0' → whole = ['0']) → Fraction fraction → Exponent exponent →
      Numeral (sign ++ (whole ++ (fraction ++ exponent)))

inductive Member (value : Text → Prop) : Text × Text → Text → Prop where
  | named {front spelling name middle space text back : Text} : Blank front →
      Spells spelling name → Blank middle → Blank space → value text → Blank back →
      Member value (name, text)
        (front ++ '"' :: (spelling ++ '"' :: (middle ++ ':' :: (space ++ (text ++ back)))))

inductive Members (value : Text → Prop) : List (Text × Text) → Text → Prop where
  | none {blank : Text} : Blank blank → Members value [] blank
  | one {member : Text × Text} {text : Text} : Member value member text →
      Members value [member] text
  | more {member next : Text × Text} {members : List (Text × Text)} {text rest : Text} :
      Member value member text → Members value (next :: members) rest →
      Members value (member :: next :: members) (text ++ ',' :: rest)

inductive Elements (value : Text → Prop) : List Text → Text → Prop where
  | none {blank : Text} : Blank blank → Elements value [] blank
  | one {front text back : Text} : Blank front → value text → Blank back →
      Elements value [text] (front ++ (text ++ back))
  | more {front text back next rest : Text} {elements : List Text} : Blank front → value text →
      Blank back → Elements value (next :: elements) rest →
      Elements value (text :: next :: elements) (front ++ (text ++ (back ++ ',' :: rest)))

/-- The text of a value, with no blanks around it. -/
inductive Value : Text → Prop where
  | null : Value "null".toList
  | yes : Value "true".toList
  | no : Value "false".toList
  | number {text : Text} : Numeral text → Value text
  | string {spelling text : Text} : Spells spelling text → Value ('"' :: (spelling ++ ['"']))
  | array {elements : List Text} {text : Text} : Elements Value elements text →
      Value ('[' :: (text ++ [']']))
  | object {members : List (Text × Text)} {text : Text} : Members Value members text →
      Value ('\x7b' :: (text ++ ['\x7d']))

inductive ObjectDocument (members : List (Text × Text)) : Text → Prop where
  | text {front inside back : Text} : Blank front → Members Value members inside → Blank back →
      ObjectDocument members (front ++ '\x7b' :: (inside ++ '\x7d' :: back))

inductive ArrayDocument (elements : List Text) : Text → Prop where
  | text {front inside back : Text} : Blank front → Elements Value elements inside → Blank back →
      ArrayDocument elements (front ++ '[' :: (inside ++ ']' :: back))

/-! ## Blanks, marks and words -/

theorem scan_of_readLexeme? {c : Char} {rest behind : Text} {lexeme : Lexeme}
    (hspace : isSpace c = false) (h : readLexeme? c rest = some (lexeme, behind)) :
    scan (c :: rest) = lexeme :: scan behind := by
  rw [scan, if_neg (by simp [hspace])]
  split
  · rename_i heq
    rw [h] at heq
    cases heq
    rfl
  · rename_i heq
    rw [h] at heq
    cases heq

theorem scan_blank {blank : Text} (h : Blank blank) (rest : Text) :
    scan (blank ++ rest) = scan rest := by
  induction blank with
  | nil => rfl
  | cons c more ih =>
      have hspace : isSpace c = true := by
        simpa [isSpace, or_assoc] using h c List.mem_cons_self
      rw [List.cons_append, scan, if_pos hspace, ih fun d hd => h d (List.mem_cons_of_mem _ hd)]

theorem scan_comma (rest : Text) : scan (',' :: rest) = .comma :: scan rest :=
  scan_of_readLexeme? (by decide) rfl

theorem scan_colon (rest : Text) : scan (':' :: rest) = .colon :: scan rest :=
  scan_of_readLexeme? (by decide) rfl

theorem scan_openArray (rest : Text) : scan ('[' :: rest) = .openArray :: scan rest :=
  scan_of_readLexeme? (by decide) rfl

theorem scan_closeArray (rest : Text) : scan (']' :: rest) = .closeArray :: scan rest :=
  scan_of_readLexeme? (by decide) rfl

theorem scan_openObject (rest : Text) : scan ('\x7b' :: rest) = .openObject :: scan rest :=
  scan_of_readLexeme? (by decide) rfl

theorem scan_closeObject (rest : Text) : scan ('\x7d' :: rest) = .closeObject :: scan rest :=
  scan_of_readLexeme? (by decide) rfl

theorem behindWord?_append (word rest : Text) : behindWord? word (word ++ rest) = some rest := by
  have hprefix : word.isPrefixOf (word ++ rest) = true :=
    List.isPrefixOf_iff_prefix.2 (List.prefix_append word rest)
  simp only [behindWord?, if_pos hprefix, List.drop_left]

theorem scan_word {c : Char} {word rest : Text} {lexeme : Lexeme} (hspace : isSpace c = false)
    (h : ∀ text, readLexeme? c text = (behindWord? word text).map (lexeme, ·)) :
    scan ((c :: word) ++ rest) = lexeme :: scan rest := by
  refine scan_of_readLexeme? hspace ?_
  rw [h]
  exact congrArg (Option.map (lexeme, ·)) (behindWord?_append word rest)

/-! ## Strings -/

theorem readUnit?_digits {digits : Text} {n : Nat} (h : HexUnit digits n) (rest : Text) :
    readUnit? (digits ++ rest) = some (n, rest) := by
  obtain ⟨ha, hb, hc, hd⟩ := h
  simp only [List.cons_append, List.nil_append, readUnit?, ha, hb, hc, hd, Option.bind_eq_bind,
    Option.bind_some, Option.pure_def]

theorem readNumbered?_number {digits : Text} {n : Nat} (h : HexUnit digits n)
    (hscalar : n < 0xD800 ∨ 0xDFFF < n) (rest : Text) :
    readNumbered? (digits ++ rest) = some (Char.ofNat n, rest) := by
  have hlow : isLowSurrogate n = false := by
    simp [isLowSurrogate]
    omega
  have hhigh : isHighSurrogate n = false := by
    simp [isHighSurrogate]
    omega
  simp [readNumbered?, readUnit?_digits h, hlow, hhigh]

theorem readNumbered?_pair {digits more : Text} {high low : Nat} (h : HexUnit digits high)
    (hhigh : 0xD800 ≤ high) (hhigh' : high ≤ 0xDBFF) (h' : HexUnit more low)
    (hlow : 0xDC00 ≤ low) (hlow' : low ≤ 0xDFFF) (rest : Text) :
    readNumbered? (digits ++ '\\' :: 'u' :: (more ++ rest)) =
      some (joinSurrogates high low, rest) := by
  have hnotlow : isLowSurrogate high = false := by
    simp [isLowSurrogate]
    omega
  have hishigh : isHighSurrogate high = true := by
    simp [isHighSurrogate]
    omega
  have hislow : isLowSurrogate low = true := by
    simp [isLowSurrogate]
    omega
  simp [readNumbered?, readUnit?_digits h, readUnit?_digits h', hnotlow, hishigh, hislow]

theorem readEscape?_of_lookup {letter meant : Char} (hne : letter ≠ 'u')
    (h : shortEscapes.lookup letter = some meant) (rest : Text) :
    readEscape? (letter :: rest) = some (meant, rest) := by
  unfold readEscape?
  split
  · rename_i heq
    cases heq
  · rename_i heq
    cases heq
    exact absurd rfl hne
  · rename_i heq
    cases heq
    rw [h]
    rfl

theorem readString?_escape {text behind : Text} {meant : Char}
    (h : readEscape? text = some (meant, behind)) :
    readString? ('\\' :: text) =
      (readString? behind).map fun found => (meant :: found.1, found.2) := by
  rw [readString?, if_neg (by decide), if_pos rfl]
  split
  · rename_i heq
    rw [h] at heq
    cases heq
    rfl
  · rename_i heq
    rw [h] at heq
    cases heq

/-- What stands for a character is read as that character. -/
theorem readString?_spellsChar {spelling : Text} {c : Char} (h : SpellsChar spelling c)
    (rest : Text) :
    readString? (spelling ++ rest) =
      (readString? rest).map fun found => (c :: found.1, found.2) := by
  cases h with
  | plain hquote hbackslash hcontrol =>
      rw [List.singleton_append, readString?, if_neg hquote, if_neg hbackslash,
        if_neg (Char.not_lt.2 hcontrol)]
  | @short letter c hshort =>
      have hall : ∀ pair ∈ shortEscapes,
          pair.1 ≠ 'u' ∧ shortEscapes.lookup pair.1 = some pair.2 := by decide
      obtain ⟨hne, hmeant⟩ := hall (letter, c) hshort
      exact readString?_escape (readEscape?_of_lookup hne hmeant rest)
  | number hunit hscalar =>
      exact readString?_escape (readNumbered?_number hunit hscalar rest)
  | @pair digits more high low hunit hhigh hhigh' hunit' hlow hlow' =>
      rw [List.cons_append, List.cons_append, List.append_assoc, List.cons_append,
        List.cons_append]
      exact readString?_escape (readNumbered?_pair hunit hhigh hhigh' hunit' hlow hlow' rest)

theorem readString?_spells {spelling text : Text} (h : Spells spelling text) (rest : Text) :
    readString? (spelling ++ '"' :: rest) = some (text, rest) := by
  induction h with
  | nil => rw [List.nil_append, readString?, if_pos rfl]
  | cons hchar _ ih =>
      rw [List.append_assoc, readString?_spellsChar hchar, ih]
      rfl

theorem scan_string {spelling text : Text} (h : Spells spelling text) (rest : Text) :
    scan ('"' :: (spelling ++ '"' :: rest)) = .string text :: scan rest := by
  refine scan_of_readLexeme? (by decide) ?_
  exact congrArg (Option.map fun found => (Lexeme.string found.1, found.2))
    (readString?_spells h rest)

def isPlain (c : Char) : Bool := c != '"' && c != '\\' && !decide (c < ' ')

theorem spells_self {text : Text} (h : text.all isPlain = true) : Spells text text := by
  induction text with
  | nil => exact .nil
  | cons c rest ih =>
      rw [List.all_cons, Bool.and_eq_true] at h
      obtain ⟨⟨hquote, hbackslash⟩, hcontrol⟩ : (c ≠ '"' ∧ c ≠ '\\') ∧ ¬ c < ' ' := by
        simpa [isPlain] using h.1
      exact .cons (.plain hquote hbackslash (Char.not_lt.1 hcontrol)) (ih h.2)

/-! ## Numerals -/

def EndsNumber (text : Text) : Prop :=
  ∀ c ∈ text.head?, c.isDigit = false ∧ c ≠ '.' ∧ c ≠ 'e' ∧ c ≠ 'E'

theorem endsNumber_blank {blank rest : Text} (h : Blank blank) (hrest : EndsNumber rest) :
    EndsNumber (blank ++ rest) := by
  cases blank with
  | nil => exact hrest
  | cons c more =>
      rintro _ ⟨⟩
      rcases h c List.mem_cons_self with rfl | rfl | rfl | rfl <;> decide

theorem endsNumber_mark {c : Char} (h : c = ',' ∨ c = '\x7d' ∨ c = ']') (rest : Text) :
    EndsNumber (c :: rest) := by
  rintro _ ⟨⟩
  rcases h with rfl | rfl | rfl <;> decide

def EndsDigits (text : Text) : Prop := ∀ c ∈ text.head?, c.isDigit = false

theorem EndsNumber.endsDigits {text : Text} (h : EndsNumber text) : EndsDigits text :=
  fun c hc => (h c hc).1

theorem takeWhile_digits {digits rest : Text} (h : Digits digits) (hrest : EndsDigits rest) :
    (digits ++ rest).takeWhile Char.isDigit = digits := by
  rw [List.takeWhile_append_of_pos h.2]
  cases rest with
  | nil => simp
  | cons c rest => simp [hrest c rfl]

theorem dropWhile_digits {digits rest : Text} (h : Digits digits) (hrest : EndsDigits rest) :
    (digits ++ rest).dropWhile Char.isDigit = rest := by
  rw [List.dropWhile_append_of_pos h.2]
  cases rest with
  | nil => rfl
  | cons c rest => simp [hrest c rfl]

theorem Digits.exists_cons {digits : Text} (h : Digits digits) :
    ∃ c more, digits = c :: more ∧ c.isDigit = true := by
  obtain ⟨c, more, rfl⟩ := List.exists_cons_of_ne_nil h.1
  exact ⟨c, more, rfl, h.2 c List.mem_cons_self⟩

/-- A number was read up to a text, or it is none that can be held. -/
def Ends (found : Option (Number × Text)) (rest : Text) : Prop :=
  found = none ∨ ∃ number, found = some (number, rest)

theorem ends_map (number? : Option Number) (rest : Text) : Ends (number?.map (·, rest)) rest := by
  cases number? with
  | none => exact .inl rfl
  | some number => exact .inr ⟨number, rfl⟩

theorem endsDigits_exponent {exponent rest : Text} (h : Exponent exponent)
    (hrest : EndsDigits rest) : EndsDigits (exponent ++ rest) := by
  cases h with
  | none => exact hrest
  | digits he _ _ =>
      rintro _ ⟨⟩
      rcases he with rfl | rfl <;> decide

theorem endsDigits_fraction {fraction rest : Text} (h : Fraction fraction)
    (hrest : EndsDigits rest) : EndsDigits (fraction ++ rest) := by
  cases h with
  | none => exact hrest
  | digits _ =>
      rintro _ ⟨⟩
      decide

theorem exists_readExponent? {sign digits rest : Text}
    (hsign : sign = [] ∨ sign = ['+'] ∨ sign = ['-']) (h : Digits digits)
    (hrest : EndsDigits rest) :
    ∃ exponent, readExponent? (sign ++ digits ++ rest) = some (exponent, rest) := by
  have htake := takeWhile_digits h hrest
  have hdrop := dropWhile_digits h hrest
  rcases hsign with rfl | rfl | rfl
  · obtain ⟨c, more, rfl, hc⟩ := h.exists_cons
    unfold readExponent?
    split
    · rename_i heq
      cases heq
      exact absurd hc (by decide)
    · rename_i heq
      cases heq
      exact absurd hc (by decide)
    · rw [List.nil_append, htake, hdrop]
      exact ⟨_, if_neg h.1⟩
  · simp only [List.cons_append, List.nil_append, readExponent?, htake, hdrop, if_neg h.1]
    exact ⟨_, rfl⟩
  · simp only [List.cons_append, List.nil_append, readExponent?, htake, hdrop, if_neg h.1]
    exact ⟨_, rfl⟩

theorem ends_readTail? (negative : Bool) (whole fraction : Text) {exponent rest : Text}
    (h : Exponent exponent) (hrest : EndsNumber rest) :
    Ends (readTail? negative whole fraction (exponent ++ rest)) rest := by
  cases h with
  | none =>
      rw [List.nil_append]
      cases rest with
      | nil => exact ends_map _ _
      | cons c more =>
          obtain ⟨-, -, he, hE⟩ := hrest c rfl
          rw [readTail?, if_neg (by simp [he, hE])]
          exact ends_map _ _
  | @digits e sign digits he hsign hdigits =>
      obtain ⟨exponent, hread⟩ := exists_readExponent? hsign hdigits hrest.endsDigits
      rw [List.cons_append, readTail?, if_pos (by simpa using he), hread]
      exact ends_map _ _

theorem ends_readUnsigned? (negative : Bool) {whole fraction exponent rest : Text}
    (h : Digits whole) (hzero : whole.head? = some '0' → whole = ['0'])
    (hfraction : Fraction fraction) (hexponent : Exponent exponent) (hrest : EndsNumber rest) :
    Ends (readUnsigned? negative (whole ++ (fraction ++ (exponent ++ rest)))) rest := by
  have hends := endsDigits_fraction hfraction (endsDigits_exponent hexponent hrest.endsDigits)
  have hgood : ¬ (whole = [] ∨ (1 < whole.length ∧ whole.head? = some '0')) := by
    rintro (hnil | ⟨hlong, hhead⟩)
    · exact h.1 hnil
    · rw [hzero hhead] at hlong
      simp at hlong
  simp only [readUnsigned?, takeWhile_digits h hends, dropWhile_digits h hends, if_neg hgood]
  cases hfraction with
  | digits hdigits =>
      have hends' := endsDigits_exponent hexponent hrest.endsDigits
      simp only [List.cons_append, takeWhile_digits hdigits hends',
        dropWhile_digits hdigits hends', if_neg hdigits.1]
      exact ends_readTail? negative whole _ hexponent hrest
  | none =>
      have htail := ends_readTail? negative whole [] hexponent hrest
      rw [List.nil_append]
      cases hexponent with
      | digits he hsign hdigits =>
          rcases he with rfl | rfl
          · exact htail
          · exact htail
      | none =>
          rw [List.nil_append]
          split
          · exact absurd rfl (hrest '.' rfl).2.1
          · exact htail
          · exact htail
          · exact ends_map _ _

theorem readLexeme?_of_isDigit {c : Char} (h : c.isDigit = true) (rest : Text) :
    readLexeme? c rest =
      (readUnsigned? false (c :: rest)).map fun found => (.number found.1, found.2) := by
  unfold readLexeme?
  split <;> first | exact absurd h (by decide) | rw [if_pos h]

theorem isSpace_of_isDigit {c : Char} (h : c.isDigit = true) : isSpace c = false := by
  cases hspace : isSpace c with
  | false => rfl
  | true =>
      simp only [isSpace, Bool.or_eq_true, decide_eq_true_eq] at hspace
      rcases hspace with ((rfl | rfl) | rfl) | rfl <;> exact absurd h (by decide)

/-- What a number was read from is scanned as that number, and if it is none that can be held, the
scan ends with it. -/
theorem scan_of_ends {c : Char} {rest behind : Text} (hspace : isSpace c = false)
    {found : Option (Number × Text)} (h : Ends found behind)
    (hread : readLexeme? c rest = found.map fun found => (.number found.1, found.2)) :
    (∃ number, scan (c :: rest) = .number number :: scan behind) ∨
      scan (c :: rest) = [.malformed] := by
  rcases h with rfl | ⟨number, rfl⟩
  · refine .inr ?_
    rw [scan, if_neg (by simp [hspace])]
    split
    · rename_i heq
      rw [hread] at heq
      cases heq
    · rfl
  · exact .inl ⟨number, scan_of_readLexeme? hspace hread⟩

theorem scan_numeral {numeral rest : Text} (h : Numeral numeral) (hrest : EndsNumber rest) :
    (∃ number, scan (numeral ++ rest) = .number number :: scan rest) ∨
      scan (numeral ++ rest) = [.malformed] := by
  cases h with
  | @digits sign whole fraction exponent hsign hwhole hzero hfraction hexponent =>
      have hends (negative : Bool) :=
        ends_readUnsigned? negative hwhole hzero hfraction hexponent hrest
      simp only [List.append_assoc]
      rcases hsign with rfl | rfl
      · obtain ⟨c, more, rfl, hc⟩ := hwhole.exists_cons
        exact scan_of_ends (isSpace_of_isDigit hc) (hends false) (readLexeme?_of_isDigit hc _)
      · exact scan_of_ends (by decide) (hends true) rfl

/-! ## Values -/

/-- A lexeme behind which something of the value can be missing: it opens an array or an object, or
nothing could be made of the text. -/
def Lexeme.Open (lexeme : Lexeme) : Prop :=
  lexeme = .openArray ∨ lexeme = .openObject ∨ lexeme = .malformed

/-- A value is one lexeme, or its first lexeme is an open one. -/
theorem scan_value {text rest : Text} (h : Value text) (hrest : EndsNumber rest) :
    (∃ lexeme, scan (text ++ rest) = lexeme :: scan rest) ∨
      ∃ lexeme more, scan (text ++ rest) = lexeme :: more ∧ lexeme.Open := by
  cases h with
  | null => exact .inl ⟨_, scan_word (by decide) fun _ => rfl⟩
  | yes => exact .inl ⟨_, scan_word (by decide) fun _ => rfl⟩
  | no => exact .inl ⟨_, scan_word (by decide) fun _ => rfl⟩
  | number hnumeral =>
      obtain ⟨number, hscan⟩ | hscan := scan_numeral hnumeral hrest
      · exact .inl ⟨_, hscan⟩
      · exact .inr ⟨_, [], hscan, .inr (.inr rfl)⟩
  | string hspells =>
      rw [List.cons_append, List.append_assoc]
      exact .inl ⟨_, scan_string hspells rest⟩
  | array _ => exact .inr ⟨_, _, scan_openArray _, .inl rfl⟩
  | object _ => exact .inr ⟨_, _, scan_openObject _, .inr (.inl rfl)⟩

/-- A member in front is scanned as its name, a colon and its value. -/
theorem scan_member {value : Text → Prop} {name text whole : Text}
    (h : Member value (name, text) whole) :
    value text ∧ ∃ back, Blank back ∧
      ∀ rest, scan (whole ++ rest) = .string name :: .colon :: scan (text ++ (back ++ rest)) := by
  cases h with
  | @named front spelling _ middle space _ back hfront hspells hmiddle hspace hvalue hback =>
      refine ⟨hvalue, back, hback, fun rest => ?_⟩
      simp only [List.append_assoc, List.cons_append]
      rw [scan_blank hfront, scan_string hspells, scan_blank hmiddle, scan_colon,
        scan_blank hspace]

end Logbook.Json
