import Logbook.Proofs.HonestMemo

/-!
# Tasks on the memo

Work on the memo as programs: what a call computes may call the memo in turn, and what comes next
may depend on every answer. Beside the memo stands a history, the calls that stored a value in the
order in which they began; forgetting takes nothing out of it and only begins a new epoch. What the
memo remembers under a key is the value of the first call for that key in the present epoch.
-/

namespace Logbook.Memo

inductive Task where
  | answer (text : Text)
  | output (key : MemoKey) (compute : Task) (next : Text → Task)
  | split (argument : Text) (next : List Text → Task)
  | forget (next : Task)

namespace Task

def run : Task → Memo → Text × Memo
  | .answer text, memo => (text, memo)
  | .output key compute next, memo =>
      let found := memo.output key compute.run
      (next found.1).run found.2
  | .split argument next, memo =>
      let found := memo.split argument
      (next found.1).run found.2
  | .forget next, _ => next.run .empty

theorem run_output (key : MemoKey) (compute : Task) (next : Text → Task) (memo : Memo) :
    (output key compute next).run memo =
      (next (memo.output key compute.run).1).run (memo.output key compute.run).2 := rfl

theorem run_split (argument : Text) (next : List Text → Task) (memo : Memo) :
    (split argument next).run memo =
      (next (memo.split argument).1).run (memo.split argument).2 := rfl

def runAll (tasks : List Task) (memo : Memo) : Memo :=
  tasks.foldl (fun memo task => (task.run memo).2) memo

def level (level : Level) (argument : Text) : Task :=
  .output ⟨Builtin.levelName, level, argument⟩
    (.split argument fun fields => .answer (Builtin.levelColumn level fields)) .answer

theorem run_level (shown : Level) (argument : Text) (memo : Memo) :
    (level shown argument).run memo = Builtin.rememberedLevel shown argument memo := rfl

end Task

/-! ## Histories -/

/-- A call that stored a value, with the number of times that everything had been forgotten by
then. -/
structure Stored where
  key : MemoKey
  value : Text
  epoch : Nat
  deriving DecidableEq, Repr

def Stored.isFor (call : Stored) (key : MemoKey) (epoch : Nat) : Bool :=
  call.key = key && call.epoch = epoch

/-- The calls that stored a value, in the order in which they began, and the present epoch. -/
structure History where
  stored : List Stored := []
  epoch : Nat := 0
  deriving DecidableEq, Repr

/-- What the first call for a key stored since everything was forgotten. -/
def History.first? (history : History) (key : MemoKey) : Option Text :=
  (history.stored.find? fun call => call.isFor key history.epoch).map Stored.value

theorem Stored.isFor_iff {call : Stored} {key : MemoKey} {epoch : Nat} :
    call.isFor key epoch = true ↔ call.key = key ∧ call.epoch = epoch := by
  simp [isFor]

theorem History.first?_eq_none_iff {history : History} {key : MemoKey} :
    history.first? key = none ↔
      ∀ call ∈ history.stored, call.key = key → call.epoch ≠ history.epoch := by
  rw [first?, Option.map_eq_none_iff, List.find?_eq_none]
  simp only [Stored.isFor_iff, not_and]

/-- What a task comes to: its answer, the calls of its own that stored a value, and the epoch. -/
structure Outcome where
  text : Text
  stored : List Stored
  epoch : Nat

def History.after (history : History) (outcome : Outcome) : History :=
  { stored := history.stored ++ outcome.stored, epoch := outcome.epoch }

/-- The outcome of a call that stores what its computation comes to. The call began before all that
its computation calls. -/
def Outcome.called (computed : Outcome) (key : MemoKey) : Outcome :=
  { computed with stored := ⟨key, computed.text, computed.epoch⟩ :: computed.stored }

def Outcome.followed (first rest : Outcome) : Outcome :=
  { rest with stored := first.stored ++ rest.stored }

theorem History.after_followed (history : History) (first rest : Outcome) :
    history.after (first.followed rest) = (history.after first).after rest := by
  simp only [after, Outcome.followed, List.append_assoc]

/-- What a task comes to after a history, without a memo. A call computes exactly when no call for
its key has stored a value in the present epoch. -/
def Task.told : Task → History → Outcome
  | .answer text, history => { text, stored := [], epoch := history.epoch }
  | .output key compute next, history =>
      match history.first? key with
      | some value => (next value).told history
      | none =>
          let called := (compute.told history).called key
          called.followed ((next called.text).told (history.after called))
  | .split argument next, history => (next (Argument.split argument)).told history
  | .forget next, history => next.told { history with epoch := history.epoch + 1 }

theorem Task.told_output_of_some {key : MemoKey} {value : Text} {history : History}
    (h : history.first? key = some value) (compute : Task) (next : Text → Task) :
    (output key compute next).told history = (next value).told history := by
  rw [told, h]

theorem Task.told_output_of_none {key : MemoKey} {history : History}
    (h : history.first? key = none) (compute : Task) (next : Text → Task) :
    (output key compute next).told history =
      ((compute.told history).called key).followed
        ((next (compute.told history).text).told
          (history.after ((compute.told history).called key))) := by
  rw [told, h]
  rfl

/-- A call alone answers what was stored first, or else what it computes. -/
theorem Task.text_told_output (key : MemoKey) (compute : Task) (history : History) :
    ((output key compute .answer).told history).text =
      (history.first? key).getD (compute.told history).text := by
  cases h : history.first? key with
  | some value =>
      rw [told_output_of_some h]
      rfl
  | none =>
      rw [told_output_of_none h]
      rfl

theorem Task.le_epoch_told (task : Task) (history : History) :
    history.epoch ≤ (task.told history).epoch := by
  induction task generalizing history with
  | answer text => exact Nat.le_refl _
  | output key compute next ihCompute ihNext =>
      cases h : history.first? key with
      | some value =>
          rw [told_output_of_some h]
          exact ihNext value history
      | none =>
          rw [told_output_of_none h]
          exact Nat.le_trans (ihCompute history)
            (ihNext _ (history.after ((compute.told history).called key)))
  | split argument next ih => exact ih _ history
  | forget next ih =>
      exact Nat.le_of_succ_le (ih { history with epoch := history.epoch + 1 })

/-! ## A memo and its history -/

/-- The memo remembers what the history tells, and fields as splitting gives them. -/
structure Agrees (memo : Memo) (history : History) : Prop where
  outputs : ∀ key, memo.output? key = history.first? key
  splits : memo.SplitsTrue
  past : ∀ call ∈ history.stored, call.epoch ≤ history.epoch

theorem agrees_empty : empty.Agrees {} where
  outputs _ := rfl
  splits := honest_empty.splits
  past _ h := by cases h

theorem Agrees.split {memo : Memo} {history : History} (agrees : memo.Agrees history)
    (argument : Text) : (memo.split argument).2.Agrees history where
  outputs key := by
    rw [← agrees.outputs, output?, outputs_split, output?]
  splits := agrees.splits.split argument
  past := agrees.past

theorem Agrees.forget {memo : Memo} {history : History} (agrees : memo.Agrees history) :
    empty.Agrees { history with epoch := history.epoch + 1 } where
  outputs key := by
    have hnone : history.stored.find? (·.isFor key (history.epoch + 1)) = none := by
      rw [List.find?_eq_none]
      intro call hcall hfor
      have hpast := agrees.past call hcall
      have hepoch := (Stored.isFor_iff.1 hfor).2
      omega
    rw [History.first?, hnone]
    rfl
  splits := honest_empty.splits
  past call hcall := Nat.le_succ_of_le (agrees.past call hcall)

/-- A call that stores what it has computed was the first for its key to begin. -/
theorem Agrees.store {memo after : Memo} {history : History} {outcome : Outcome}
    (agrees : memo.Agrees history) (later : after.Agrees (history.after outcome)) {key : MemoKey}
    (hfirst : history.first? key = none) (hepoch : history.epoch ≤ outcome.epoch) :
    (after.store key outcome.text).Agrees (history.after (outcome.called key)) where
  outputs other := by
    rw [output?_store, later.outputs]
    simp only [History.first?, History.after, Outcome.called, List.find?_append]
    split
    · rename_i heq
      subst heq
      have hnone : history.stored.find? (·.isFor key outcome.epoch) = none := by
        rw [List.find?_eq_none]
        intro call hcall hfor
        obtain ⟨hkey, hlate⟩ := Stored.isFor_iff.1 hfor
        -- the epoch of an earlier call is past, so the task has not forgotten anything
        have hsame : call.epoch = history.epoch :=
          Nat.le_antisymm (agrees.past call hcall) (hlate ▸ hepoch)
        exact History.first?_eq_none_iff.1 hfirst call hcall hkey hsame
      have hnew : (⟨key, outcome.text, outcome.epoch⟩ : Stored).isFor key outcome.epoch = true :=
        Stored.isFor_iff.2 ⟨rfl, rfl⟩
      rw [hnone, List.find?_cons_of_pos (by exact hnew)]
      rfl
    · rename_i hne
      have hnew : ¬ (⟨key, outcome.text, outcome.epoch⟩ : Stored).isFor other outcome.epoch :=
        fun hfor => hne (Stored.isFor_iff.1 hfor).1
      rw [List.find?_cons_of_neg (by exact hnew)]
  splits := later.splits
  past call hcall := by
    rcases List.mem_append.1 hcall with hold | hnew
    · exact Nat.le_trans (agrees.past call hold) hepoch
    · rcases List.mem_cons.1 hnew with rfl | hinner
      · exact Nat.le_refl _
      · exact later.past call (List.mem_append_right _ hinner)

/-- Every task gives the answer that the history tells, and the memo goes on agreeing. -/
theorem Agrees.run {memo : Memo} {history : History} (agrees : memo.Agrees history) (task : Task) :
    (task.run memo).1 = (task.told history).text ∧
      (task.run memo).2.Agrees (history.after (task.told history)) := by
  induction task generalizing memo history with
  | answer text =>
      refine ⟨rfl, ?_⟩
      rw [Task.told, History.after, List.append_nil]
      exact agrees
  | output key compute next ihCompute ihNext =>
      have houtput := agrees.outputs key
      rw [Task.run_output]
      cases hfirst : history.first? key with
      | some value =>
          rw [output_of_some _ (houtput.trans hfirst), Task.told_output_of_some hfirst]
          exact ihNext value agrees
      | none =>
          obtain ⟨hanswer, hlater⟩ := ihCompute agrees
          have hstored := agrees.store hlater hfirst (compute.le_epoch_told history)
          rw [output_of_none _ (houtput.trans hfirst), hanswer, Task.told_output_of_none hfirst,
            History.after_followed]
          exact ihNext (compute.told history).text hstored
  | split argument next ih =>
      rw [Task.run_split, split_eq agrees.splits]
      exact ih _ (agrees.split argument)
  | forget next ih => exact ih agrees.forget

def Task.tellAll (tasks : List Task) (history : History) : History :=
  tasks.foldl (fun history task => history.after (task.told history)) history

theorem Agrees.runAll {memo : Memo} {history : History} (agrees : memo.Agrees history)
    (tasks : List Task) : (Task.runAll tasks memo).Agrees (Task.tellAll tasks history) := by
  induction tasks generalizing memo history with
  | nil => exact agrees
  | cons task rest ih => exact ih (agrees.run task).2

/-! ## Keys apart -/

namespace Task

def Within (keys : MemoKey → Prop) : Task → Prop
  | .answer _ => True
  | .output key compute next => keys key ∧ compute.Within keys ∧ ∀ text, (next text).Within keys
  | .split _ next => ∀ fields, (next fields).Within keys
  | .forget next => next.Within keys

def Keeps : Task → Prop
  | .answer _ => True
  | .output _ compute next => compute.Keeps ∧ ∀ text, (next text).Keeps
  | .split _ next => ∀ fields, (next fields).Keeps
  | .forget _ => False

theorem keeps_level (shown : Level) (argument : Text) : (level shown argument).Keeps :=
  ⟨fun _ => trivial, fun _ => trivial⟩

theorem Keeps.epoch_told {task : Task} (keeps : task.Keeps) (history : History) :
    (task.told history).epoch = history.epoch := by
  induction task generalizing history with
  | answer text => rfl
  | output key compute next ihCompute ihNext =>
      cases h : history.first? key with
      | some value =>
          rw [told_output_of_some h]
          exact ihNext value (keeps.2 value) history
      | none =>
          rw [told_output_of_none h]
          exact (ihNext _ (keeps.2 _) _).trans (ihCompute keeps.1 history)
  | split argument next ih => exact ih _ (keeps _) history
  | forget next => exact keeps.elim

end Task

/-- Two memos that remember the same under some keys, and true fields. -/
structure Alike (keys : MemoKey → Prop) (memo other : Memo) : Prop where
  outputs : ∀ key, keys key → memo.output? key = other.output? key
  splits : memo.SplitsTrue
  otherSplits : other.SplitsTrue

theorem Alike.split {keys : MemoKey → Prop} {memo other : Memo} (alike : memo.Alike keys other)
    (argument : Text) : (memo.split argument).2.Alike keys (other.split argument).2 where
  outputs key hkey := by
    simpa only [output?, outputs_split] using alike.outputs key hkey
  splits := alike.splits.split argument
  otherSplits := alike.otherSplits.split argument

theorem Alike.store {keys : MemoKey → Prop} {memo other : Memo} (alike : memo.Alike keys other)
    (key : MemoKey) (value : Text) : (memo.store key value).Alike keys (other.store key value) where
  outputs found hfound := by rw [output?_store, output?_store, alike.outputs found hfound]
  splits := alike.splits
  otherSplits := alike.otherSplits

/-- What is remembered under other keys shows in no answer and gets into no entry. -/
theorem Alike.run {keys : MemoKey → Prop} {memo other : Memo} (alike : memo.Alike keys other)
    {task : Task} (within : task.Within keys) :
    (task.run memo).1 = (task.run other).1 ∧ (task.run memo).2.Alike keys (task.run other).2 := by
  induction task generalizing memo other with
  | answer text => exact ⟨rfl, alike⟩
  | output key compute next ihCompute ihNext =>
      obtain ⟨hkey, hcompute, hnext⟩ := within
      have houtput := alike.outputs key hkey
      rw [Task.run_output, Task.run_output]
      cases hfound : other.output? key with
      | some value =>
          rw [output_of_some _ (houtput.trans hfound), output_of_some _ hfound]
          exact ihNext value alike (hnext value)
      | none =>
          obtain ⟨hanswer, hafter⟩ := ihCompute alike hcompute
          rw [output_of_none _ (houtput.trans hfound), output_of_none _ hfound, hanswer]
          exact ihNext _ (hafter.store key _) (hnext _)
  | split argument next ih =>
      rw [Task.run_split, Task.run_split, split_eq alike.splits, split_eq alike.otherSplits]
      exact ih _ (alike.split argument) (within _)
  | forget next ih =>
      have hempty : empty.Alike keys empty :=
        ⟨fun _ _ => rfl, honest_empty.splits, honest_empty.splits⟩
      exact ih hempty within

theorem output?_run_of_within {keys : MemoKey → Prop} {task : Task} (within : task.Within keys)
    (keeps : task.Keeps) {key : MemoKey} (hkey : ¬ keys key) (memo : Memo) :
    (task.run memo).2.output? key = memo.output? key := by
  induction task generalizing memo with
  | answer text => rfl
  | output called compute next ihCompute ihNext =>
      obtain ⟨hcalled, hcompute, hnext⟩ := within
      rw [Task.run_output, ihNext _ (hnext _) (keeps.2 _)]
      cases hfound : memo.output? called with
      | some value => rw [output_of_some _ hfound]
      | none =>
          have hne : called ≠ key := fun heq => hkey (heq ▸ hcalled)
          rw [output_of_none _ hfound, output?_store, if_neg hne, ihCompute hcompute keeps.1]
  | split argument next ih =>
      rw [Task.run_split, ih _ (within _) (keeps _), output?, outputs_split, output?]
  | forget next => exact keeps.elim

/-! ## What is kept -/

structure Grows (memo after : Memo) : Prop where
  outputs : ∀ key value, memo.output? key = some value → after.output? key = some value
  splits : ∀ argument fields, memo.splits.find? argument = some fields →
    after.splits.find? argument = some fields

theorem Grows.refl (memo : Memo) : memo.Grows memo := ⟨fun _ _ => id, fun _ _ => id⟩

theorem Grows.trans {memo next after : Memo} (first : memo.Grows next) (second : next.Grows after) :
    memo.Grows after where
  outputs key value h := second.outputs key value (first.outputs key value h)
  splits argument fields h := second.splits argument fields (first.splits argument fields h)

theorem grows_split (memo : Memo) (argument : Text) : memo.Grows (memo.split argument).2 where
  outputs key value h := by rwa [output?, outputs_split]
  splits other fields h := by
    unfold Memo.split
    split
    · exact h
    · rename_i hnone
      have hne : argument ≠ other := by
        rintro rfl
        rw [hnone] at h
        cases h
      simpa [hne] using h

theorem Task.Keeps.grows {task : Task} (keeps : task.Keeps) (memo : Memo) :
    memo.Grows (task.run memo).2 := by
  induction task generalizing memo with
  | answer text => exact .refl memo
  | output key compute next ihCompute ihNext =>
      rw [run_output]
      refine .trans ?_ (ihNext _ (keeps.2 _) _)
      cases hfound : memo.output? key with
      | some value =>
          rw [output_of_some _ hfound]
          exact .refl memo
      | none =>
          rw [output_of_none _ hfound]
          have hcomputed := ihCompute keeps.1 memo
          refine ⟨fun other value h => ?_, hcomputed.splits⟩
          -- only what was not remembered before the call is stored
          have hne : key ≠ other := by
            rintro rfl
            rw [hfound] at h
            cases h
          rw [output?_store, if_neg hne]
          exact hcomputed.outputs other value h
  | split argument next ih => exact (grows_split memo argument).trans (ih _ (keeps _) _)
  | forget next => exact keeps.elim

theorem grows_runAll {tasks : List Task} (keeps : ∀ task ∈ tasks, task.Keeps) (memo : Memo) :
    memo.Grows (Task.runAll tasks memo) := by
  induction tasks generalizing memo with
  | nil => exact .refl memo
  | cons task rest ih =>
      obtain ⟨hfirst, hrest⟩ := List.forall_mem_cons.1 keeps
      exact (hfirst.grows memo).trans (ih hrest _)

theorem epoch_tellAll {tasks : List Task} (keeps : ∀ task ∈ tasks, task.Keeps)
    (history : History) : (Task.tellAll tasks history).epoch = history.epoch := by
  induction tasks generalizing history with
  | nil => rfl
  | cons task rest ih =>
      obtain ⟨hfirst, hrest⟩ := List.forall_mem_cons.1 keeps
      exact (ih hrest _).trans (hfirst.epoch_told history)

end Logbook.Memo
