import Logbook.Format.Token
import Mathlib.Data.List.TakeWhile

/-!
# The forms of tokens

The grammar of tokens, stated without the reader: a dollar sign and, between braces, a name with an
argument behind a colon or without. `Token.read?` finds a token exactly where the text has one of
these forms, and `pieces` takes each token that it finds as a whole.
-/

namespace Logbook

namespace Token

def NameLetter (c : Char) : Prop :=
  ('A' ≤ c ∧ c ≤ 'Z') ∨ ('a' ≤ c ∧ c ≤ 'z') ∨ ('0' ≤ c ∧ c ≤ '9') ∨ c = '_'

/-- The texts that spell a token. An argument ends at the first closing brace, so it holds none. -/
inductive Spells : Text → Token → Prop where
  | bare {name : Text} : name ≠ [] → (∀ c ∈ name, NameLetter c) →
      Spells ('$' :: '\x7b' :: (name ++ ['\x7d'])) ⟨name, none⟩
  | argued {name argument : Text} : name ≠ [] → (∀ c ∈ name, NameLetter c) → '\x7d' ∉ argument →
      Spells ('$' :: '\x7b' :: (name ++ ':' :: (argument ++ ['\x7d']))) ⟨name, some argument⟩

theorem isNameChar_iff (c : Char) : isNameChar c = true ↔ NameLetter c := by
  have upper : c.isUpper = true ↔ 'A' ≤ c ∧ c ≤ 'Z' := decide_eq_true_iff
  have lower : c.isLower = true ↔ 'a' ≤ c ∧ c ≤ 'z' := by
    change (decide ('a' ≤ c) && decide (c ≤ 'z')) = true ↔ _
    simp only [Bool.and_eq_true, decide_eq_true_eq]
  have digit : c.isDigit = true ↔ '0' ≤ c ∧ c ≤ '9' := by
    change (decide ('0' ≤ c) && decide (c ≤ '9')) = true ↔ _
    simp only [Bool.and_eq_true, decide_eq_true_eq]
  change ((c.isUpper || c.isLower) || c.isDigit || decide (c = '_')) = true ↔ _
  simp only [NameLetter, Bool.or_eq_true, upper, lower, digit, decide_eq_true_eq, or_assoc]

theorem Spells.eq_source {text : Text} {token : Token} (h : Spells text token) :
    text = token.source := by
  cases h <;> simp [source]

theorem takeWhile_name {name rest : Text} {c : Char} (letters : ∀ c ∈ name, NameLetter c)
    (stop : isNameChar c = false) : (name ++ c :: rest).takeWhile isNameChar = name := by
  rw [List.takeWhile_append_of_pos fun d hd => (isNameChar_iff d).2 (letters d hd)]
  simp [stop]

theorem dropWhile_name {name rest : Text} {c : Char} (letters : ∀ c ∈ name, NameLetter c)
    (stop : isNameChar c = false) : (name ++ c :: rest).dropWhile isNameChar = c :: rest := by
  rw [List.dropWhile_append_of_pos fun d hd => (isNameChar_iff d).2 (letters d hd)]
  simp [stop]

theorem readEnd?_argument {name argument rest : Text} (closed : '\x7d' ∉ argument) :
    readEnd? name (':' :: (argument ++ '\x7d' :: rest)) =
      some (⟨name, some argument⟩, rest) := by
  have all : ∀ c ∈ argument, decide (c ≠ '\x7d') = true := by
    intro c hc
    simpa using fun he : c = '\x7d' => closed (he ▸ hc)
  simp only [readEnd?, List.dropWhile_append_of_pos all, List.takeWhile_append_of_pos all]
  simp

/-- Where a token is spelled, it is read, whatever follows. -/
theorem read?_append {text : Text} {token : Token} (h : Spells text token) (rest : Text) :
    read? (text ++ rest) = some (token, rest) := by
  cases h with
  | @bare name nonempty letters =>
      have stop : isNameChar '\x7d' = false := by decide
      simp [read?, takeWhile_name letters stop, dropWhile_name letters stop, nonempty, readEnd?]
  | @argued name argument nonempty letters closed =>
      have stop : isNameChar ':' = false := by decide
      simp [read?, takeWhile_name letters stop, dropWhile_name letters stop, nonempty,
        readEnd?_argument closed]

theorem spells_of_readEnd? {name text rest : Text} {token : Token} (nonempty : name ≠ [])
    (letters : ∀ c ∈ name, NameLetter c) (h : readEnd? name text = some (token, rest)) :
    Spells token.source token := by
  unfold readEnd? at h
  split at h
  · cases h
    simpa [source] using Spells.bare nonempty letters
  · rename_i tail
    split at h
    · cases h
      have closed : '\x7d' ∉ tail.takeWhile (· ≠ '\x7d') := by
        intro hm
        simpa using List.mem_takeWhile_imp hm
      simpa [source] using Spells.argued nonempty letters closed
    · cases h
  · cases h

theorem spells_of_read? {text rest : Text} {token : Token}
    (h : read? text = some (token, rest)) : Spells token.source token := by
  unfold read? at h
  split at h
  · dsimp only at h
    split at h
    · cases h
    · rename_i tail nonempty
      have letters : ∀ c ∈ tail.takeWhile isNameChar, NameLetter c := fun c hc =>
        (isNameChar_iff c).1 (List.mem_takeWhile_imp hc)
      exact spells_of_readEnd? nonempty letters h
  · cases h

/-- A token is read exactly where one is spelled. -/
theorem read?_eq_some_iff {text rest : Text} {token : Token} :
    read? text = some (token, rest) ↔
      ∃ spelling, Spells spelling token ∧ text = spelling ++ rest := by
  constructor
  · intro h
    exact ⟨token.source, spells_of_read? h, source_append_of_read? h⟩
  · rintro ⟨spelling, h, rfl⟩
    exact read?_append h rest

def NoneAt (text : Text) : Prop :=
  ∀ spelling token rest, Spells spelling token → text ≠ spelling ++ rest

theorem read?_eq_none_iff {text : Text} : read? text = none ↔ NoneAt text := by
  constructor
  · intro h spelling token rest hs ht
    rw [ht, read?_append hs] at h
    cases h
  · intro h
    cases hr : read? text with
    | none => rfl
    | some found =>
        obtain ⟨spelling, hs, ht⟩ := read?_eq_some_iff.1 hr
        exact absurd ht (h spelling found.1 found.2 hs)

end Token

theorem pieces_append_of_spells {spelling : Text} {token : Token}
    (h : Token.Spells spelling token) (rest : Text) :
    pieces (spelling ++ rest) = .token token :: pieces rest := by
  have hr := Token.read?_append h rest
  cases ht : spelling ++ rest with
  | nil => rw [ht] at hr; cases hr
  | cons c tail =>
      rw [ht] at hr
      rw [pieces]
      split
      · rename_i found behind hf
        rw [hr] at hf
        cases hf
        rfl
      · rename_i hf
        rw [hr] at hf
        cases hf

theorem pieces_cons_of_noneAt {c : Char} {rest : Text} (h : Token.NoneAt (c :: rest)) :
    pieces (c :: rest) = .plain c :: pieces rest := by
  have hr := Token.read?_eq_none_iff.2 h
  rw [pieces]
  split
  · rename_i hf
    rw [hr] at hf
    cases hf
  · rfl

end Logbook
