/-!
# Text and bytes

Text is a list of characters and a byte string a list of octets, so that every rule about them is
an induction on lists. `Text.cut?` finds the first occurrence of a needle; replacing the first
occurrence and asking whether one exists are both read off it.
-/

namespace Logbook

abbrev Text := List Char

abbrev Bytes := List UInt8

namespace Text

/-- What stands before and after the first occurrence of `needle`. -/
def cut? (needle : Text) : Text → Option (Text × Text)
  | [] => if needle = [] then some ([], []) else none
  | c :: rest =>
      if needle.isPrefixOf (c :: rest) then some ([], (c :: rest).drop needle.length)
      else (cut? needle rest).map fun parts => (c :: parts.1, parts.2)

def Contains (needle text : Text) : Prop := (cut? needle text).isSome

instance (needle text : Text) : Decidable (Contains needle text) := by
  unfold Contains; infer_instance

/-- The first occurrence of `needle` gives way to `replacement`; without one the text stays. -/
def replaceFirst (needle replacement text : Text) : Text :=
  match cut? needle text with
  | some (before, after) => before ++ replacement ++ after
  | none => text

theorem append_of_cut? {needle text before after : Text}
    (h : cut? needle text = some (before, after)) : text = before ++ needle ++ after := by
  induction text generalizing before after with
  | nil =>
      by_cases hn : needle = []
      · simp [cut?, hn] at h
        simp [hn, h]
      · simp [cut?, hn] at h
  | cons c rest ih =>
      unfold cut? at h
      split at h
      · rename_i hp
        cases h
        obtain ⟨tail, ht⟩ := List.isPrefixOf_iff_prefix.1 hp
        rw [← ht]
        simp
      · cases hc : cut? needle rest with
        | none => simp [hc] at h
        | some parts =>
            rw [hc] at h
            cases h
            simp [ih hc]

theorem replaceFirst_of_cut? {needle text before after : Text} (replacement : Text)
    (h : cut? needle text = some (before, after)) :
    replaceFirst needle replacement text = before ++ replacement ++ after := by
  simp [replaceFirst, h]

theorem replaceFirst_of_not_contains {needle text : Text} (replacement : Text)
    (h : ¬ Contains needle text) : replaceFirst needle replacement text = text := by
  unfold Contains at h
  cases hc : cut? needle text with
  | none => simp [replaceFirst, hc]
  | some parts => simp [hc] at h

/-- Every occurrence of `needle`, found from left to right, gives way to `replacement`. -/
def replaceAll (needle replacement : Text) : Text → Text
  | [] => []
  | c :: rest =>
      if needle ≠ [] ∧ needle.isPrefixOf (c :: rest) then
        replacement ++ replaceAll needle replacement (rest.drop (needle.length - 1))
      else c :: replaceAll needle replacement rest
  termination_by text => text.length
  decreasing_by all_goals simp; try omega

/-- The pieces between the occurrences of `separator`; one more than there are occurrences. -/
def splitOn (separator : Char) : Text → List Text
  | [] => [[]]
  | c :: rest =>
      if c = separator then [] :: splitOn separator rest
      else
        match splitOn separator rest with
        | piece :: pieces => (c :: piece) :: pieces
        | [] => [[c]]

theorem splitOn_ne_nil (separator : Char) (text : Text) : splitOn separator text ≠ [] := by
  cases text with
  | nil => simp [splitOn]
  | cons c rest =>
      unfold splitOn
      split
      · simp
      · split <;> simp

def joinWith (separator : Text) : List Text → Text
  | [] => []
  | [piece] => piece
  | piece :: pieces => piece ++ separator ++ joinWith separator pieces

theorem joinWith_splitOn (separator : Char) (text : Text) :
    joinWith [separator] (splitOn separator text) = text := by
  induction text with
  | nil => rfl
  | cons c rest ih =>
      unfold splitOn
      split
      · rename_i hc
        cases hs : splitOn separator rest with
        | nil => exact absurd hs (splitOn_ne_nil separator rest)
        | cons piece pieces =>
            rw [hs] at ih
            simp [joinWith, ih, hc]
      · cases hs : splitOn separator rest with
        | nil => exact absurd hs (splitOn_ne_nil separator rest)
        | cons piece pieces =>
            rw [hs] at ih
            cases pieces with
            | nil => simpa [joinWith] using ih
            | cons next pieces => simpa [joinWith] using ih

end Text

def spaces (width : Nat) : Text := List.replicate width ' '

@[simp] theorem length_spaces (width : Nat) : (spaces width).length = width := by
  simp [spaces]

end Logbook
