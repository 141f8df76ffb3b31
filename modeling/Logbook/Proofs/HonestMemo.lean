import Logbook.Placeholder.Basic

/-!
# Honest memos

A memo is honest when everything that it remembers of levels and of fields is what the functions
without a memo give. Rendering a level out of an honest memo is rendering it anew, and leaves the
memo honest.
-/

namespace Logbook

namespace Memo

/-- What is remembered under the name of the level placeholder is the text of the level, and what
is remembered of an argument is its fields. -/
structure Honest (memo : Memo) : Prop where
  levels : ∀ level argument text,
    memo.output? ⟨Builtin.levelName, level, argument⟩ = some text →
      text = Builtin.levelText level argument
  splits : memo.SplitsTrue

theorem honest_empty : empty.Honest := by
  constructor
  · intro level argument text h
    cases h
  · intro argument fields h
    cases h

theorem Honest.split {memo : Memo} (h : memo.Honest) (argument : Text) :
    (memo.split argument).2.Honest := by
  constructor
  · intro level other text ht
    apply h.levels level other text
    simpa only [output?, outputs_split] using ht
  · exact h.splits.split argument

theorem Honest.store {memo : Memo} (h : memo.Honest) (level : Level) (argument : Text) :
    (memo.store ⟨Builtin.levelName, level, argument⟩
      (Builtin.levelText level argument)).Honest := by
  constructor
  · intro other otherArgument text ht
    rw [output?_store] at ht
    split at ht
    · rename_i hkey
      cases hkey
      cases ht
      rfl
    · exact h.levels other otherArgument text ht
  · exact h.splits

theorem Honest.store_of_ne {memo : Memo} (h : memo.Honest) {key : MemoKey}
    (hname : key.name ≠ Builtin.levelName) (value : Text) : (memo.store key value).Honest := by
  constructor
  · intro level argument text ht
    have hkey : key ≠ ⟨Builtin.levelName, level, argument⟩ := fun hkey => hname (hkey ▸ rfl)
    rw [output?_store, if_neg hkey] at ht
    exact h.levels level argument text ht
  · exact h.splits

theorem Honest.rememberedLevel_eq {memo : Memo} (h : memo.Honest) (level : Level)
    (argument : Text) :
    (Builtin.rememberedLevel level argument memo).1 = Builtin.levelText level argument := by
  unfold Builtin.rememberedLevel
  cases hm : memo.output? ⟨Builtin.levelName, level, argument⟩ with
  | some text =>
      rw [output_of_some _ hm]
      exact h.levels level argument text hm
  | none =>
      rw [output_of_none _ hm]
      simp only [split_eq h.splits, Builtin.levelText]

theorem Honest.rememberedLevel {memo : Memo} (h : memo.Honest) (level : Level)
    (argument : Text) : (Builtin.rememberedLevel level argument memo).2.Honest := by
  unfold Builtin.rememberedLevel
  cases hm : memo.output? ⟨Builtin.levelName, level, argument⟩ with
  | some text =>
      rw [output_of_some _ hm]
      exact h
  | none =>
      rw [output_of_none _ hm]
      simp only [split_eq h.splits]
      exact (h.split argument).store level argument

end Memo

end Logbook
