import Logbook.Argument
import Logbook.Level.Basic
import Logbook.Table

/-!
# Memo

Work that depends on a level and an argument alone is done once and remembered: outputs under the
name of their placeholder, the level and the argument, and the fields of an argument under the
argument. Everything is forgotten at once.
-/

namespace Logbook

structure MemoKey where
  name : Text
  level : Level
  argument : Text
  deriving DecidableEq, Repr

structure Memo where
  outputs : Table MemoKey Text := {}
  splits : Table Text (List Text) := {}

namespace Memo

def empty : Memo := {}

def output? (memo : Memo) (key : MemoKey) : Option Text := memo.outputs.find? key

def store (memo : Memo) (key : MemoKey) (value : Text) : Memo :=
  { memo with outputs := memo.outputs.insert key value }

def split (memo : Memo) (argument : Text) : List Text × Memo :=
  match memo.splits.find? argument with
  | some fields => (fields, memo)
  | none =>
      let fields := Argument.split argument
      (fields, { memo with splits := memo.splits.insert argument fields })

/-- The output under a key. Only where none is remembered, `compute` runs and its result is
stored. -/
def output (memo : Memo) (key : MemoKey) (compute : Memo → Text × Memo) : Text × Memo :=
  match memo.output? key with
  | some value => (value, memo)
  | none =>
      let (value, after) := compute memo
      (value, after.store key value)

theorem output_of_some {memo : Memo} {key : MemoKey} {value : Text}
    (compute : Memo → Text × Memo) (h : memo.output? key = some value) :
    memo.output key compute = (value, memo) := by
  simp [output, h]

theorem output_of_none {memo : Memo} {key : MemoKey} (compute : Memo → Text × Memo)
    (h : memo.output? key = none) :
    memo.output key compute = ((compute memo).1, (compute memo).2.store key (compute memo).1) := by
  simp [output, h]

@[simp] theorem output?_store (memo : Memo) (key other : MemoKey) (value : Text) :
    (memo.store key value).output? other =
      if key = other then some value else memo.output? other := by
  simp [store, output?]

@[simp] theorem splits_store (memo : Memo) (key : MemoKey) (value : Text) :
    (memo.store key value).splits = memo.splits := rfl

@[simp] theorem outputs_split (memo : Memo) (argument : Text) :
    (memo.split argument).2.outputs = memo.outputs := by
  unfold split
  split <;> rfl

/-- Whatever is remembered of fields is what splitting gives. -/
def SplitsTrue (memo : Memo) : Prop :=
  ∀ argument fields, memo.splits.find? argument = some fields → fields = Argument.split argument

theorem split_eq {memo : Memo} (h : memo.SplitsTrue) (argument : Text) :
    (memo.split argument).1 = Argument.split argument := by
  unfold split
  cases hf : memo.splits.find? argument with
  | none => rfl
  | some fields => exact h argument fields hf

theorem SplitsTrue.split {memo : Memo} (h : memo.SplitsTrue) (argument : Text) :
    (memo.split argument).2.SplitsTrue := by
  intro other fields hf
  unfold Memo.split at hf
  split at hf
  · exact h other fields hf
  · simp at hf
    split at hf
    · rename_i he
      cases hf
      rw [he]
    · exact h other fields hf

end Memo

end Logbook
