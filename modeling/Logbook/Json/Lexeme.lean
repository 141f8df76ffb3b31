import Logbook.Decimal.Shortest

/-!
# Lexemes of JSON

A document is scanned into lexemes from left to right. Where no lexeme begins, or one is not
completed, the scan ends with `malformed`; so a reader meets the fault exactly when it gets there.
-/

namespace Logbook.Json

/-- A number as readers tell it apart: one of the first `2 ^ 64` natural numbers, a negative
number of 64 bits given by its size, or any other, given by its text. -/
inductive Number where
  | natural (value : Nat)
  | negative (size : Nat)
  | floating (text : Text)
  deriving DecidableEq, Repr

inductive Lexeme where
  | null
  | truth (value : Bool)
  | number (value : Number)
  | string (text : Text)
  | openObject
  | closeObject
  | openArray
  | closeArray
  | comma
  | colon
  | malformed
  deriving DecidableEq, Repr

/-! ## Strings -/

def readUnit? : Text → Option (Nat × Text)
  | a :: b :: c :: d :: rest => do
      let a ← Text.hexValue? a
      let b ← Text.hexValue? b
      let c ← Text.hexValue? c
      let d ← Text.hexValue? d
      return (((a * 16 + b) * 16 + c) * 16 + d, rest)
  | _ => none

theorem length_lt_of_readUnit? {text rest : Text} {unit : Nat}
    (h : readUnit? text = some (unit, rest)) : rest.length < text.length := by
  unfold readUnit? at h
  split at h
  · simp only [Option.bind_eq_bind, Option.bind_eq_some_iff, Option.pure_def, Option.some.injEq,
      Prod.mk.injEq] at h
    obtain ⟨_, _, _, _, _, _, _, _, _, rfl⟩ := h
    simp
    omega
  · cases h

def shortEscapes : List (Char × Char) :=
  [('"', '"'), ('\\', '\\'), ('/', '/'), ('b', '\x08'), ('f', '\x0c'), ('n', '\n'), ('r', '\r'),
    ('t', '\t')]

def isHighSurrogate (unit : Nat) : Bool := 0xD800 ≤ unit && unit ≤ 0xDBFF

def isLowSurrogate (unit : Nat) : Bool := 0xDC00 ≤ unit && unit ≤ 0xDFFF

def joinSurrogates (high low : Nat) : Char :=
  Char.ofNat (0x10000 + (high - 0xD800) * 0x400 + (low - 0xDC00))

/-- The character of an escape by number. A high surrogate needs a low one behind it; together
they stand for one character. -/
def readNumbered? (text : Text) : Option (Char × Text) :=
  match readUnit? text with
  | none => none
  | some (unit, rest) =>
      if isLowSurrogate unit then none
      else if isHighSurrogate unit then
        match rest with
        | '\\' :: 'u' :: rest =>
            match readUnit? rest with
            | some (low, rest) =>
                if isLowSurrogate low then some (joinSurrogates unit low, rest) else none
            | none => none
        | _ => none
      else some (Char.ofNat unit, rest)

theorem length_lt_of_readNumbered? {text rest : Text} {c : Char}
    (h : readNumbered? text = some (c, rest)) : rest.length < text.length := by
  unfold readNumbered? at h
  split at h
  · cases h
  · rename_i unit behind hu
    have hlen := length_lt_of_readUnit? hu
    split at h
    · cases h
    · split at h
      · split at h
        · rename_i tail
          split at h
          · rename_i low after hl
            have hlow := length_lt_of_readUnit? hl
            split at h
            · simp only [Option.some.injEq, Prod.mk.injEq] at h
              rw [← h.2]
              simp only [List.length_cons] at hlen
              omega
            · cases h
          · cases h
        · cases h
      · cases h
        exact hlen

/-- The character of an escape, and the text behind it; the backslash has been read. -/
def readEscape? : Text → Option (Char × Text)
  | [] => none
  | 'u' :: rest => readNumbered? rest
  | c :: rest => (shortEscapes.lookup c).map fun meant => (meant, rest)

theorem length_lt_of_readEscape? {text rest : Text} {c : Char}
    (h : readEscape? text = some (c, rest)) : rest.length < text.length := by
  unfold readEscape? at h
  split at h
  · cases h
  · have := length_lt_of_readNumbered? h
    simp
    omega
  · obtain ⟨meant, _, he⟩ := Option.map_eq_some_iff.1 h
    cases he
    simp

/-- The text of a string up to its closing quote, and what follows; the opening quote has been
read. -/
def readString? (text : Text) : Option (Text × Text) :=
  match text with
  | [] => none
  | c :: rest =>
      if c = '"' then some ([], rest)
      else if c = '\\' then
        match h : readEscape? rest with
        | some (meant, behind) =>
            have := length_lt_of_readEscape? h
            (readString? behind).map fun found => (meant :: found.1, found.2)
        | none => none
      else if c < ' ' then none
      else (readString? rest).map fun found => (c :: found.1, found.2)
  termination_by text.length
  decreasing_by all_goals simp; try omega

theorem length_lt_of_readString? {text rest found : Text}
    (h : readString? text = some (found, rest)) : rest.length < text.length := by
  induction hn : text.length using Nat.strongRecOn generalizing text found with
  | _ n ih =>
      subst hn
      unfold readString? at h
      split at h
      · cases h
      · rename_i c tail
        split at h
        · cases h
          simp
        · split at h
          · split at h
            · rename_i meant behind he
              have hlen := length_lt_of_readEscape? he
              obtain ⟨inner, hi, heq⟩ := Option.map_eq_some_iff.1 h
              cases heq
              have := ih _ (by simp; omega) hi rfl
              simp
              omega
            · cases h
          · split at h
            · cases h
            · obtain ⟨inner, hi, heq⟩ := Option.map_eq_some_iff.1 h
              cases heq
              have := ih _ (by simp) hi rfl
              simp
              omega

/-! ## Numbers -/

def greatestWord : Nat := Nat.pow 2 64 - 1

/-- Takes digits into a significand while it stays within 64 bits, and counts the digits taken. -/
def gather : Text → Nat → Nat × Nat
  | [], significand => (significand, 0)
  | c :: rest, significand =>
      let next := significand * 10 + Text.digitValue c
      if greatestWord < next then (significand, 0)
      else
        let (final, count) := gather rest next
        (final, count + 1)

/-- A number with a fraction or an exponent, or one too long for 64 bits: of its digits those that
fit into 64 bits count, and the power of ten moves accordingly. -/
def readFloating? (negative : Bool) (whole fraction : Text) (exponent : Int) : Option Number :=
  let (significand, taken) := gather whole 0
  let (significand, used) := gather fraction significand
  let power : Int := (whole.length - taken : Nat) - (used : Int) + exponent
  (Decimal.Binary64.scale? significand power).map fun x =>
    .floating ((if negative then ['-'] else []) ++ x.shortest.write Decimal.standardForm)

/-- An exponent and the text behind it; nothing when its digits are missing. -/
def readExponent? : Text → Option (Int × Text)
  | '+' :: rest =>
      let digits := rest.takeWhile Char.isDigit
      if digits = [] then none else some (Text.readDecimal digits, rest.dropWhile Char.isDigit)
  | '-' :: rest =>
      let digits := rest.takeWhile Char.isDigit
      if digits = [] then none else some (-Text.readDecimal digits, rest.dropWhile Char.isDigit)
  | rest =>
      let digits := rest.takeWhile Char.isDigit
      if digits = [] then none else some (Text.readDecimal digits, rest.dropWhile Char.isDigit)

def readTail? (negative : Bool) (whole fraction text : Text) : Option (Number × Text) :=
  match text with
  | [] => (readFloating? negative whole fraction 0).map (·, [])
  | c :: rest =>
      if c = 'e' || c = 'E' then
        match readExponent? rest with
        | none => none
        | some (exponent, behind) =>
            (readFloating? negative whole fraction exponent).map (·, behind)
      else (readFloating? negative whole fraction 0).map (·, c :: rest)

def wholeNumber? (negative : Bool) (whole : Text) : Option Number :=
  let value := Text.readDecimal whole
  if negative then
    if value = 0 ∨ Nat.pow 2 63 < value then readFloating? true whole [] 0
    else some (.negative value)
  else if greatestWord < value then readFloating? false whole [] 0
  else some (.natural value)

def readUnsigned? (negative : Bool) (text : Text) : Option (Number × Text) :=
  let whole := text.takeWhile Char.isDigit
  let behind := text.dropWhile Char.isDigit
  if whole = [] ∨ (1 < whole.length ∧ whole.head? = some '0') then none
  else
    match behind with
    | '.' :: rest =>
        let fraction := rest.takeWhile Char.isDigit
        if fraction = [] then none
        else readTail? negative whole fraction (rest.dropWhile Char.isDigit)
    | 'e' :: _ => readTail? negative whole [] behind
    | 'E' :: _ => readTail? negative whole [] behind
    | _ => (wholeNumber? negative whole).map (·, behind)

theorem length_dropWhile_le (text : Text) :
    (text.dropWhile Char.isDigit).length ≤ text.length := by
  have h := congrArg List.length (List.takeWhile_append_dropWhile (p := Char.isDigit) (l := text))
  rw [List.length_append] at h
  omega

theorem length_le_of_readExponent? {text rest : Text} {exponent : Int}
    (h : readExponent? text = some (exponent, rest)) : rest.length ≤ text.length := by
  have hd := fun t => length_dropWhile_le t
  unfold readExponent? at h
  split at h
  all_goals
    dsimp only at h
    split at h
    · cases h
    · cases h
      first
        | exact hd _
        | exact Nat.le_succ_of_le (hd _)

theorem length_le_of_readTail? {negative : Bool} {whole fraction text rest : Text}
    {number : Number} (h : readTail? negative whole fraction text = some (number, rest)) :
    rest.length ≤ text.length := by
  unfold readTail? at h
  split at h
  · obtain ⟨_, _, he⟩ := Option.map_eq_some_iff.1 h
    cases he
    exact Nat.le_refl _
  · split at h
    · split at h
      · cases h
      · rename_i exponent behind hx
        have := length_le_of_readExponent? hx
        obtain ⟨_, _, he⟩ := Option.map_eq_some_iff.1 h
        cases he
        exact Nat.le_succ_of_le this
    · obtain ⟨_, _, he⟩ := Option.map_eq_some_iff.1 h
      cases he
      exact Nat.le_refl _

theorem length_lt_of_readUnsigned? {negative : Bool} {text rest : Text} {number : Number}
    (h : readUnsigned? negative text = some (number, rest)) : rest.length < text.length := by
  have hsplit := congrArg List.length
    (List.takeWhile_append_dropWhile (p := Char.isDigit) (l := text))
  unfold readUnsigned? at h
  dsimp only at h
  split at h
  · cases h
  · rename_i hw
    have hpos : 0 < (text.takeWhile Char.isDigit).length :=
      List.length_pos_iff.2 fun h' => hw (.inl h')
    rw [List.length_append] at hsplit
    split at h
    · rename_i tail hb
      rw [hb] at hsplit
      split at h
      · cases h
      · have := length_le_of_readTail? h
        have := length_dropWhile_le tail
        rw [List.length_cons] at hsplit
        omega
    · have := length_le_of_readTail? h
      omega
    · have := length_le_of_readTail? h
      omega
    · obtain ⟨_, _, he⟩ := Option.map_eq_some_iff.1 h
      cases he
      omega

/-! ## The scan -/

def isSpace (c : Char) : Bool := c = ' ' || c = '\n' || c = '\t' || c = '\r'

def behindWord? (word text : Text) : Option Text :=
  if word.isPrefixOf text then some (text.drop word.length) else none

theorem length_le_of_behindWord? {word text rest : Text} (h : behindWord? word text = some rest) :
    rest.length ≤ text.length := by
  unfold behindWord? at h
  split at h
  · cases h
    simp
  · cases h

/-- The lexeme whose first character is `c`, and the text behind it. -/
def readLexeme? (c : Char) (rest : Text) : Option (Lexeme × Text) :=
  match c with
  | '\x7b' => some (.openObject, rest)
  | '\x7d' => some (.closeObject, rest)
  | '[' => some (.openArray, rest)
  | ']' => some (.closeArray, rest)
  | ',' => some (.comma, rest)
  | ':' => some (.colon, rest)
  | '"' => (readString? rest).map fun found => (.string found.1, found.2)
  | 'n' => (behindWord? ['u', 'l', 'l'] rest).map (.null, ·)
  | 't' => (behindWord? ['r', 'u', 'e'] rest).map (.truth true, ·)
  | 'f' => (behindWord? ['a', 'l', 's', 'e'] rest).map (.truth false, ·)
  | '-' => (readUnsigned? true rest).map fun found => (.number found.1, found.2)
  | c =>
      if c.isDigit then
        (readUnsigned? false (c :: rest)).map fun found => (.number found.1, found.2)
      else none

theorem length_le_of_readLexeme? {c : Char} {rest behind : Text} {lexeme : Lexeme}
    (h : readLexeme? c rest = some (lexeme, behind)) : behind.length ≤ rest.length := by
  unfold readLexeme? at h
  split at h
  case h_7 =>
    obtain ⟨_, hs, he⟩ := Option.map_eq_some_iff.1 h
    cases he
    exact Nat.le_of_lt (length_lt_of_readString? hs)
  case h_8 =>
    obtain ⟨_, hs, he⟩ := Option.map_eq_some_iff.1 h
    cases he
    exact length_le_of_behindWord? hs
  case h_9 =>
    obtain ⟨_, hs, he⟩ := Option.map_eq_some_iff.1 h
    cases he
    exact length_le_of_behindWord? hs
  case h_10 =>
    obtain ⟨_, hs, he⟩ := Option.map_eq_some_iff.1 h
    cases he
    exact length_le_of_behindWord? hs
  case h_11 =>
    obtain ⟨_, hs, he⟩ := Option.map_eq_some_iff.1 h
    cases he
    exact Nat.le_of_lt (length_lt_of_readUnsigned? hs)
  case h_12 =>
    split at h
    · obtain ⟨_, hs, he⟩ := Option.map_eq_some_iff.1 h
      cases he
      exact Nat.le_of_lt_succ (length_lt_of_readUnsigned? hs)
    · cases h
  all_goals
    cases h
    exact Nat.le_refl _

/-- The lexemes of a text; blanks between them do not count. -/
def scan (text : Text) : List Lexeme :=
  match text with
  | [] => []
  | c :: rest =>
      if isSpace c then scan rest
      else
        match h : readLexeme? c rest with
        | some (lexeme, behind) =>
            have := length_le_of_readLexeme? h
            lexeme :: scan behind
        | none => [.malformed]
  termination_by text.length
  decreasing_by all_goals simp; try omega

end Logbook.Json
