import Logbook.Text.Basic

/-!
# Searching texts

The first occurrence of a needle as an infix of the text.
-/

namespace Logbook.Text

theorem contains_iff_infix (needle text : Text) : Contains needle text ↔ needle <:+: text := by
  unfold Contains
  induction text with
  | nil =>
      by_cases h : needle = []
      · simp [cut?, h]
      · simp [cut?, h]
  | cons c rest ih =>
      rw [List.infix_cons_iff, ← ih, cut?]
      by_cases h : needle.isPrefixOf (c :: rest) = true
      · simp [h, List.isPrefixOf_iff_prefix.1 h]
      · have hp : ¬ needle <+: c :: rest := fun hp => h (List.isPrefixOf_iff_prefix.2 hp)
        simp [h, hp]

theorem infix_replaceFirst {needle text : Text} (replacement : Text)
    (h : Contains needle text) : replacement <:+: replaceFirst needle replacement text := by
  unfold Contains at h
  obtain ⟨⟨before, after⟩, hc⟩ := Option.isSome_iff_exists.1 h
  rw [replaceFirst_of_cut? replacement hc]
  exact List.infix_append before replacement after

/-- The first occurrence stays the first one when text is added behind. -/
theorem cut?_append {needle text before after : Text} (h : cut? needle text = some (before, after))
    (more : Text) : cut? needle (text ++ more) = some (before, after ++ more) := by
  induction text generalizing before after with
  | nil =>
      by_cases hn : needle = []
      · simp [cut?, hn] at h
        cases more <;> simp [cut?, hn, h]
      · simp [cut?, hn] at h
  | cons c rest ih =>
      unfold cut? at h
      rw [List.cons_append, cut?, ← List.cons_append]
      split at h
      · rename_i hp
        have hhead := List.isPrefixOf_iff_prefix.1 hp
        cases h
        rw [if_pos (List.isPrefixOf_iff_prefix.2 (hhead.trans (List.prefix_append _ more))),
          List.drop_append_of_le_length hhead.length_le]
      · rename_i hp
        obtain ⟨parts, hparts, heq⟩ := Option.map_eq_some_iff.1 h
        cases heq
        -- the needle fits into the rest, so that what is added cannot complete it at the front
        have hlength : needle.length ≤ (c :: rest).length := by
          rw [append_of_cut? hparts]
          simp
          omega
        have hfront : ¬ needle.isPrefixOf ((c :: rest) ++ more) = true := fun hfront =>
          hp (List.isPrefixOf_iff_prefix.2 (List.prefix_of_prefix_length_le
            (List.isPrefixOf_iff_prefix.1 hfront) (List.prefix_append _ more) hlength))
        rw [if_neg hfront, ih hparts]
        rfl

/-- Before the first occurrence of a needle there is none. -/
theorem not_contains_of_cut? {needle text before after : Text} (hne : needle ≠ [])
    (h : cut? needle text = some (before, after)) : ¬ Contains needle before := by
  intro hcontains
  obtain ⟨⟨first, second⟩, hfirst⟩ := Option.isSome_iff_exists.1 hcontains
  have hagain := cut?_append hfirst (needle ++ after)
  rw [← List.append_assoc, ← append_of_cut? h, h] at hagain
  have hsame : before = first := congrArg Prod.fst (Option.some.inj hagain)
  have hlength := congrArg List.length (append_of_cut? hfirst)
  have hpos := List.length_pos_iff.2 hne
  simp only [List.length_append, hsame] at hlength
  omega

theorem not_contains_tail {needle rest : Text} {c : Char} (h : ¬ Contains needle (c :: rest)) :
    ¬ Contains needle rest := by
  rw [ contains_iff_infix] at h ⊢
  exact fun hrest => h (hrest.trans (List.infix_cons (List.infix_refl rest)))

/-- A needle of two different characters behind a text without it is the first one. With two equal
ones the last character of the text could begin an earlier one. -/
theorem cut?_pair {a b : Char} (hab : a ≠ b) {before : Text} (h : ¬ Contains [a, b] before)
    (after : Text) : cut? [a, b] (before ++ [a, b] ++ after) = some (before, after) := by
  induction before with
  | nil => simp [cut?]
  | cons c rest ih =>
      have hfront : ¬ [a, b].isPrefixOf (c :: (rest ++ [a, b] ++ after)) = true := by
        rw [ contains_iff_infix] at h
        rw [List.isPrefixOf_iff_prefix]
        rintro ⟨tail, htail⟩
        cases rest with
        | nil =>
            -- the second character would be the first one of the needle behind
            cases htail
            exact hab rfl
        | cons d more =>
            cases htail
            exact h (List.prefix_append [a, b] more).isInfix
      rw [List.cons_append, List.cons_append, cut?, if_neg hfront, ih (not_contains_tail h)]
      rfl

end Logbook.Text
