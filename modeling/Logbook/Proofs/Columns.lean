import Logbook.Proofs.TextSearch
import Logbook.Record

/-!
# Columns

Where the cursor of a terminal stands after a text, character by character: a line feed brings it to
the start of a line, and what belongs to an escape does not move it. The column of a message is the
column of the cursor after all that is rendered before it.
-/

namespace Logbook

/-- What the next character is to a terminal: one to show, the one behind an escape, or one inside a
control sequence. -/
inductive Cursor.Mode where
  | plain
  | escape
  | control
  deriving DecidableEq, Repr

structure Cursor where
  column : Nat := 0
  mode : Cursor.Mode := .plain
  deriving DecidableEq, Repr

namespace Cursor

def step (cursor : Cursor) (c : Char) : Cursor :=
  if c = '\n' then {}
  else
    match cursor.mode with
    | .plain =>
        if c = '\x1b' then { cursor with mode := .escape }
        else { cursor with column := cursor.column + 1 }
    | .escape => { cursor with mode := if c = '[' then .control else .plain }
    | .control => { cursor with mode := if isControlEnd c then .plain else .control }

def after (cursor : Cursor) (text : Text) : Cursor := text.foldl step cursor

def columnAfter (text : Text) : Nat := (after {} text).column

theorem after_append (cursor : Cursor) (first second : Text) :
    cursor.after (first ++ second) = (cursor.after first).after second := List.foldl_append

theorem after_cons (cursor : Cursor) (c : Char) (rest : Text) :
    cursor.after (c :: rest) = (cursor.step c).after rest := rfl

theorem step_newline (cursor : Cursor) : cursor.step '\n' = {} := rfl

theorem step_plain {c : Char} (hline : c ≠ '\n') (hescape : c ≠ '\x1b') (column : Nat) :
    step ⟨column, .plain⟩ c = ⟨column + 1, .plain⟩ := by
  simp [step, hline, hescape]

theorem step_escape {c : Char} (hline : c ≠ '\n') (hbracket : c ≠ '[') (column : Nat) :
    step ⟨column, .escape⟩ c = ⟨column, .plain⟩ := by
  simp [step, hline, hbracket]

theorem step_control {c : Char} (hline : c ≠ '\n') (column : Nat) :
    step ⟨column, .control⟩ c = ⟨column, if isControlEnd c then .plain else .control⟩ := by
  simp [step, hline]

theorem after_spaces (column width : Nat) :
    after ⟨column, .plain⟩ (spaces width) = ⟨column + width, .plain⟩ := by
  induction width generalizing column with
  | zero => rfl
  | succ width ih =>
      have hstep : step ⟨column, .plain⟩ ' ' = ⟨column + 1, .plain⟩ :=
        step_plain (by decide) (by decide) column
      show after (step ⟨column, .plain⟩ ' ') (spaces width) = _
      rw [hstep, ih]
      congr 1
      omega

/-- After a line feed and spaces it does not matter what came before. -/
theorem columnAfter_indented (text : Text) (width : Nat) :
    columnAfter (text ++ '\n' :: spaces width) = width := by
  unfold columnAfter
  rw [after_append, after_cons, step_newline, after_spaces]
  exact Nat.zero_add width

end Cursor

/-! ## Lines -/

/-- A text of whole lines, each with its line feed, or an empty one. -/
def WholeLines (text : Text) : Prop := text = [] ∨ text.getLast? = some '\n'

instance (text : Text) : Decidable (WholeLines text) := by unfold WholeLines; infer_instance

theorem Cursor.after_of_getLast? {text : Text} (h : text.getLast? = some '\n') (cursor : Cursor) :
    cursor.after text = {} := by
  obtain ⟨front, rfl⟩ := List.getLast?_eq_some_iff.1 h
  rw [after_append, after_cons, step_newline]
  rfl

theorem Cursor.after_wholeLines {text : Text} (h : WholeLines text) : after {} text = {} := by
  rcases h with rfl | hlast
  · rfl
  · exact after_of_getLast? hlast {}

/-- A text is whole lines and a last line without a line feed. -/
theorem exists_wholeLines (text : Text) :
    ∃ lead, WholeLines lead ∧ text = lead ++ lastLine text ∧ '\n' ∉ lastLine text := by
  refine ⟨(text.reverse.dropWhile (· ≠ '\n')).reverse, ?_, ?_, ?_⟩
  · unfold WholeLines
    rw [List.getLast?_reverse]
    cases hdrop : text.reverse.dropWhile (· ≠ '\n') with
    | nil => exact .inl rfl
    | cons c rest =>
        have hstop := List.head?_dropWhile_not (fun c : Char => decide (c ≠ '\n')) text.reverse
        rw [hdrop] at hstop
        exact .inr (by simpa using hstop)
  · rw [lastLine, ← List.reverse_append, List.takeWhile_append_dropWhile, List.reverse_reverse]
  · intro hm
    have hshown := List.all_eq_true.1 List.all_takeWhile '\n' (List.mem_reverse.1 hm)
    simp at hshown

/-- On one line the cursor goes as far as the visible width of what is written; inside a control
sequence first comes its end. -/
theorem Cursor.column_after_line :
    (∀ text : Text, '\n' ∉ text → ∀ column,
      (after ⟨column, .plain⟩ text).column = column + visibleWidth text) ∧
    ∀ text : Text, '\n' ∉ text → ∀ column,
      (after ⟨column, .control⟩ text).column = column + visibleWidthInControl text := by
  apply visibleWidth.mutual_induct
  case case1 => exact fun _ _ => rfl
  case case2 =>
    intro rest ih hline column
    have hrest := (List.ne_and_not_mem_of_not_mem_cons
      (List.ne_and_not_mem_of_not_mem_cons hline).2).2
    exact ih hrest column
  case case3 =>
    intro c rest hbracket ih hline column
    obtain ⟨hc, hrest⟩ := List.ne_and_not_mem_of_not_mem_cons
      (List.ne_and_not_mem_of_not_mem_cons hline).2
    rw [after_cons, after_cons, show step ⟨column, .plain⟩ '\x1b' = ⟨column, .escape⟩ from rfl,
      step_escape hc.symm hbracket, ih hrest, visibleWidth]
    exact hbracket
  case case4 => exact fun _ _ => rfl
  case case5 =>
    intro c rest hcontrol hpair hlone ih hline column
    obtain ⟨hc, hrest⟩ := List.ne_and_not_mem_of_not_mem_cons hline
    have hescape : c ≠ '\x1b' := by
      rintro rfl
      cases rest with
      | nil => exact hlone rfl rfl
      | cons d more => exact hpair d more rfl rfl
    rw [after_cons, step_plain hc.symm hescape, ih hrest,
      visibleWidth.eq_5 c rest hcontrol hpair hlone]
    omega
  case case6 => exact fun _ _ => rfl
  case case7 =>
    intro c rest hend ih hline column
    obtain ⟨hc, hrest⟩ := List.ne_and_not_mem_of_not_mem_cons hline
    rw [after_cons, step_control hc.symm, if_pos hend, ih hrest, visibleWidthInControl, if_pos hend]
  case case8 =>
    intro c rest hend ih hline column
    obtain ⟨hc, hrest⟩ := List.ne_and_not_mem_of_not_mem_cons hline
    rw [after_cons, step_control hc.symm, if_neg hend, ih hrest, visibleWidthInControl, if_neg hend]

/-- Whatever lines come before, the cursor is as far as the last line is wide. -/
theorem Cursor.columnAfter_eq (text : Text) :
    columnAfter text = visibleWidth (lastLine text) := by
  obtain ⟨lead, hlead, heq, hline⟩ := exists_wholeLines text
  have hlast := column_after_line.1 (lastLine text) hline 0
  rw [columnAfter, heq, after_append, after_wholeLines hlead, ← heq]
  exact hlast.trans (Nat.zero_add _)

/-! ## Messages -/

/-- Behind a text without a message token the next one is the first. -/
theorem cut?_messageToken {before : Text} (h : ¬ Builtin.messageToken <:+: before) (after : Text) :
    Text.cut? Builtin.messageToken (before ++ Builtin.messageToken ++ after) =
      some (before, after) :=
  Text.cut?_pair (by decide) (mt (Text.contains_iff_infix _ _).1 h) after

/-- The column of a message is where the cursor stands before it. -/
theorem messageColumn_of_free {before : Text} (h : ¬ Builtin.messageToken <:+: before)
    (after : Text) :
    messageColumn (before ++ Builtin.messageToken ++ after) = Cursor.columnAfter before := by
  rw [messageColumn, cut?_messageToken h, Cursor.columnAfter_eq]

end Logbook
