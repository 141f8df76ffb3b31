import Logbook.Proofs.FormatterMoves
import Logbook.Proofs.MemoTasks

/-!
# The memo in the course of a run

A run is watched with its history of calls: commands and records come in any order, with tasks of
others on the memo between them. The levels that formats render are calls among the rest. Everything
is forgotten when that is asked for and when a format is given other placeholders, and at no other
time.
-/

namespace Logbook

variable {σ : Type}

def Segment.task? (level : Level) : Segment σ → Option Memo.Task
  | .replacement token .level => some (.level level token.argumentText)
  | _ => none

def Formatter.isFormat : Formatter σ → Bool
  | .format _ => true
  | .stamp _ => false

def FormatterMove.registers : FormatterMove σ → Bool
  | .registered _ _ => true
  | .replaced _ => true
  | _ => false

def MemoCommand.task : MemoCommand → Memo.Task
  | .output key value => .output key (.answer value) .answer
  | .split argument => .split argument fun _ => .answer []
  | .forget => .forget (.answer [])
  | .level shown argument => .level shown argument

namespace Session

/-! ## What acts do to the memo -/

def levelTasks (session : Session σ) (index : Nat) (level : Level) : List Memo.Task :=
  match session.formatters[index]? with
  | some (.format format) => format.compile.filterMap (Segment.task? level)
  | _ => []

def registers (session : Session σ) (command : FormatCommand σ) : Bool :=
  match session.commandMove? command with
  | some (index, move) => move.registers && (session.formatters[index]?).any Formatter.isFormat
  | none => false

/-- Whether an act empties the memo: it is asked to, or it gives a format other placeholders. -/
def forgets (session : Session σ) : Act σ → Bool
  | .memo .forget => true
  | .format command => session.registers command
  | _ => false

def formatTasks (session : Session σ) (command : FormatCommand σ) : List Memo.Task :=
  match command with
  | .render handle context _ =>
      (session.formatter? handle).elim [] fun found => session.levelTasks found.1 context.level
  | _ => bif session.registers command then [.forget (.answer [])] else []

def tasks (session : Session σ) : Act σ → List Memo.Task
  | .format command => session.formatTasks command
  | .memo command => [command.task]
  | .make logger entry _ _ _ =>
      (session.loggers.settings? logger).elim [] fun settings =>
        session.levelTasks settings.formatter entry.level
  | _ => []

theorem memo_renderAll (context : Context) (prefixText : Text) (segments : List (Segment σ))
    (desk : Desk σ) : (Segment.renderAll context prefixText segments desk).2.memo =
      Memo.Task.runAll (segments.filterMap (Segment.task? context.level)) desk.memo := by
  induction segments generalizing desk with
  | nil => rfl
  | cons segment rest ih =>
      have hrest := ih (segment.render context prefixText desk).2
      cases segment with
      | replacement token placeholder => cases placeholder <;> exact hrest
      | _ => exact hrest

theorem memo_render (session : Session σ) (index : Nat) (context : Context) (prefixText : Text) :
    (session.render index context prefixText).2.desk.memo =
      Memo.Task.runAll (session.levelTasks index context.level) session.desk.memo := by
  unfold render levelTasks
  cases session.formatters[index]? with
  | none => rfl
  | some formatter =>
      cases formatter with
      | format format => exact memo_renderAll context prefixText format.compile session.desk
      | stamp stamp => rfl

theorem memo_rendered (session : Session σ) (logger : Nat) (context : Context) :
    (session.rendered logger context).desk.memo =
      Memo.Task.runAll ((session.loggers.settings? logger).elim [] fun settings =>
        session.levelTasks settings.formatter context.level) session.desk.memo := by
  unfold rendered
  cases session.loggers.settings? logger with
  | none => rfl
  | some settings => exact session.memo_render settings.formatter context settings.prefixText

/-- A command that changes a formatter empties the memo if it gives a format other placeholders. -/
theorem memo_changed {session : Session σ} {command : FormatCommand σ} (handle : String)
    (move : FormatterMove σ) (change : Formatter σ → Formatter σ × Desk σ)
    (hrun : (session.runFormat command).2 = (session.withFormatter handle fun index formatter =>
      (session.putFormatter index (change formatter)).done).2)
    (hmove : session.commandMove? command =
      (session.formatter? handle).map fun found => (found.1, move))
    (hchange : ∀ formatter, (change formatter).2.memo =
      bif move.registers && formatter.isFormat then .empty else session.desk.memo) :
    (session.runFormat command).2.desk.memo = Memo.Task.runAll
      (bif session.registers command then [.forget (.answer [])] else []) session.desk.memo := by
  have hempty : ∀ emptied : Bool, Memo.Task.runAll
      (bif emptied then [.forget (.answer [])] else []) session.desk.memo =
        bif emptied then .empty else session.desk.memo := by
    intro emptied
    cases emptied <;> rfl
  rw [hrun, hempty, withFormatter_eq, registers, hmove]
  cases hfound : session.formatter? handle with
  | none => rfl
  | some found =>
      have hat := getElem?_of_formatter? hfound
      simp only [Option.map_some, hat, Option.any_some]
      exact hchange found.2

theorem memo_runFormat (session : Session σ) (command : FormatCommand σ) :
    (session.runFormat command).2.desk.memo =
      Memo.Task.runAll (session.formatTasks command) session.desk.memo := by
  have hwith := @withFormatter_cases _
    (fun after => after.desk.memo = session.desk.memo) session rfl
  cases command with
  | make handle template registry => rfl
  | stamp handle text => rfl
  | borrow handle logger =>
      simp only [runFormat]
      split <;> rfl
  | register handle name placeholder =>
      exact memo_changed handle _ _ rfl rfl fun formatter => by cases formatter <;> rfl
  | setRegistry handle registry =>
      exact memo_changed handle _ _ rfl rfl fun formatter => by cases formatter <;> rfl
  | copyRegistry handle source without =>
      cases hsource : session.formatter? source with
      | none =>
          simp only [runFormat, withFormatter_eq, formatTasks, registers, commandMove?, hsource]
          rfl
      | some origin =>
          let registry := lessen origin.2.registry without
          refine memo_changed handle (.replaced registry)
            (fun formatter => formatter.setRegistry registry session.desk) ?_ ?_
            fun formatter => by cases formatter <;> rfl
          · rw [runFormat, withFormatter_eq, hsource]
          · rw [commandMove?, hsource]
            rfl
  | reset handle =>
      exact memo_changed handle _ _ rfl rfl fun formatter => by cases formatter <;> rfl
  | names handle => exact hwith fun index formatter => rfl
  | describe handle tall => exact hwith fun index formatter => by cases formatter <;> rfl
  | template handle => exact hwith fun index formatter => by cases formatter <;> rfl
  | render handle context prefixText =>
      simp only [runFormat, withFormatter_eq, formatTasks]
      cases session.formatter? handle with
      | none => rfl
      | some found => exact session.memo_render found.1 context prefixText

theorem memo_runMemo (session : Session σ) (command : MemoCommand) :
    (session.runMemo command).2.desk.memo = (command.task.run session.desk.memo).2 := by
  cases command <;> rfl

theorem memo_perform (session : Session σ) (act : Act σ) :
    (session.perform act).desk.memo =
      Memo.Task.runAll (session.tasks act) session.desk.memo := by
  cases act with
  | sink command =>
      obtain ⟨outlets, sinkHandles, h⟩ := session.runSink_frame command
      simp only [perform, release, h]
      rfl
  | router command =>
      obtain ⟨outlets, routers, routerHandles, wrappers, h⟩ := session.runRouter_frame command
      simp only [perform, release, h]
      rfl
  | format command => exact session.memo_runFormat command
  | memo command => exact session.memo_runMemo command
  | logger command =>
      obtain ⟨grown, loggers, hgrown, h⟩ | ⟨router, h⟩ := session.runLogger_frame command
      · simp only [perform, release, h, hgrown.desk]
        rfl
      · simp only [perform, release, h, flushRouter]
        rfl
  | enter handle =>
      simp only [perform]
      split <;> rfl
  | make logger entry site instant message =>
      obtain ⟨outlets, h⟩ := session.deliver_rendered logger entry site instant message
      simp only [perform, release, leave, h]
      exact session.memo_rendered logger ⟨entry.level, site, instant⟩

/-- An act that empties the memo does nothing else with it, and any other act never forgets. -/
theorem tasks_of_forgets {session : Session σ} {act : Act σ} (h : session.forgets act = true) :
    session.tasks act = [.forget (.answer [])] := by
  cases act with
  | format command =>
      have hregisters : session.registers command = true := h
      cases command with
      | render handle context prefixText =>
          cases hfound : session.formatter? handle <;>
            simp [registers, commandMove?, hfound, FormatterMove.registers] at hregisters
      | _ => simp [tasks, formatTasks, hregisters]
  | memo command =>
      cases command with
      | forget => rfl
      | _ => cases h
  | _ => cases h

theorem keeps_levelTasks (session : Session σ) (index : Nat) (level : Level) :
    ∀ task ∈ session.levelTasks index level, task.Keeps := by
  unfold levelTasks
  split
  · intro task htask
    obtain ⟨segment, -, hsegment⟩ := List.mem_filterMap.1 htask
    unfold Segment.task? at hsegment
    split at hsegment
    · cases hsegment
      exact Memo.Task.keeps_level _ _
    · cases hsegment
  · exact List.forall_mem_nil _

theorem keeps_tasks {session : Session σ} {act : Act σ} (h : session.forgets act = false) :
    ∀ task ∈ session.tasks act, task.Keeps := by
  cases act with
  | format command =>
      have hregisters : session.registers command = false := h
      cases command with
      | render handle context prefixText =>
          simp only [tasks, formatTasks]
          cases session.formatter? handle with
          | none => exact List.forall_mem_nil _
          | some found => exact session.keeps_levelTasks found.1 context.level
      | _ => simp [tasks, formatTasks, hregisters]
  | memo command =>
      refine List.forall_mem_singleton.2 ?_
      cases command with
      | output key value => exact ⟨trivial, fun _ => trivial⟩
      | split argument => exact fun _ => trivial
      | forget => cases h
      | level shown argument => exact Memo.Task.keeps_level shown argument
  | make logger entry site instant message =>
      simp only [tasks]
      cases session.loggers.settings? logger with
      | none => exact List.forall_mem_nil _
      | some settings => exact session.keeps_levelTasks settings.formatter entry.level
  | _ => exact List.forall_mem_nil _

end Session

/-! ## Watched runs -/

/-- A step of a run: an act, or a task of somebody else's on the memo. -/
inductive Step (σ : Type) where
  | act (act : Act σ)
  | work (task : Memo.Task)

structure Watched (σ : Type) where
  session : Session σ
  history : Memo.History := {}

namespace Watched

def start (own : σ) : Watched σ := { session := .fresh own }

def tasks (watched : Watched σ) : Step σ → List Memo.Task
  | .act act => watched.session.tasks act
  | .work task => [task]

def take (watched : Watched σ) (step : Step σ) : Watched σ :=
  { session :=
      match step with
      | .act act => watched.session.perform act
      | .work task => watched.session.setMemo (task.run watched.session.desk.memo).2
    history := Memo.Task.tellAll (watched.tasks step) watched.history }

def takeAll (watched : Watched σ) (steps : List (Step σ)) : Watched σ := steps.foldl take watched

theorem memo_take (watched : Watched σ) (step : Step σ) :
    (watched.take step).session.desk.memo =
      Memo.Task.runAll (watched.tasks step) watched.session.desk.memo := by
  cases step with
  | act act => exact watched.session.memo_perform act
  | work task => rfl

theorem session_takeAll_acts (watched : Watched σ) (acts : List (Act σ)) :
    (watched.takeAll (acts.map .act)).session = watched.session.performAll acts := by
  induction acts generalizing watched with
  | nil => rfl
  | cons act rest ih => exact ih (watched.take (.act act))

/-- After every step the memo remembers what its history tells. -/
theorem agrees_takeAll {watched : Watched σ}
    (agrees : watched.session.desk.memo.Agrees watched.history) (steps : List (Step σ)) :
    (watched.takeAll steps).session.desk.memo.Agrees (watched.takeAll steps).history := by
  induction steps generalizing watched with
  | nil => exact agrees
  | cons step rest ih =>
      have hstep : (watched.take step).session.desk.memo.Agrees (watched.take step).history := by
        rw [memo_take]
        exact agrees.runAll (watched.tasks step)
      exact ih hstep

/-- An act forgets everything or nothing. -/
theorem memo_take_act (watched : Watched σ) (act : Act σ) :
    let after := watched.take (.act act)
    if watched.session.forgets act then
      after.session.desk.memo = .empty ∧ after.history.epoch = watched.history.epoch + 1
    else
      watched.session.desk.memo.Grows after.session.desk.memo ∧
        after.history.epoch = watched.history.epoch := by
  intro after
  have hmemo : after.session.desk.memo =
      Memo.Task.runAll (watched.session.tasks act) watched.session.desk.memo :=
    watched.memo_take (.act act)
  have hhistory : after.history =
      Memo.Task.tellAll (watched.session.tasks act) watched.history := rfl
  rw [hmemo, hhistory]
  split
  · rename_i hforgets
    rw [Session.tasks_of_forgets hforgets]
    exact ⟨rfl, rfl⟩
  · rename_i hforgets
    have hkeeps := Session.keeps_tasks (eq_false_of_ne_true hforgets)
    exact ⟨Memo.grows_runAll hkeeps _, Memo.epoch_tellAll hkeeps _⟩

end Watched

namespace Session

/-! ## Answers -/

section

variable {session : Session σ} {history : Memo.History}
  (agrees : session.desk.memo.Agrees history)
include agrees

theorem answer_output (key : MemoKey) (value : Text) :
    (session.runMemo (.output key value)).1 =
      .ok (.memo ((history.first? key).getD value) (history.first? key).isNone) := by
  have hanswer := (agrees.run (.output key (.answer value) .answer)).1
  rw [Memo.Task.text_told_output] at hanswer
  have hvalue : (session.desk.memo.output key fun memo => (value, memo)).1 =
      (history.first? key).getD value := hanswer
  simp only [runMemo, agrees.outputs key, hvalue]

theorem answer_level (level : Level) (argument : Text) :
    (session.runMemo (.level level argument)).1 =
      .ok (.text ((history.first? ⟨Builtin.levelName, level, argument⟩).getD
        (Builtin.levelText level argument))) := by
  have hanswer := (agrees.run (.level level argument)).1
  rw [Memo.Task.run_level, Memo.Task.level, Memo.Task.text_told_output] at hanswer
  simp only [runMemo, hanswer]
  rfl

theorem answer_split (argument : Text) :
    (session.runMemo (.split argument)).1 = .ok (.texts (Argument.split argument)) := by
  simp only [runMemo, Memo.split_eq agrees.splits]

end

/-- Whatever commands, records and tasks of others on the memo come before: when some call has
stored a value for a key since everything was forgotten, a call for that key answers what the first
of these stored and computes nothing; otherwise it computes, and stores what it has computed. So do
the levels that are rendered, and tasks whose computations make calls in turn. What is remembered
under other keys neither shows in an answer nor changes. An act forgets everything, outputs and
fields, when it asks for that or gives a format other placeholders, and loses nothing otherwise. -/
theorem memo_follows_history (own : σ) :
    (∀ commands : List (Command σ),
      ((Watched.start own).takeAll ((actsAll commands (fresh own)).map .act)).session =
        execAll commands (fresh own)) ∧
    ∀ steps : List (Step σ),
      let watched := (Watched.start own).takeAll steps
      let session := watched.session
      let history := watched.history
      let memo := session.desk.memo
      (∀ key compute, memo.output key compute =
        match history.first? key with
        | some value => (value, memo)
        | none => ((compute memo).1, (compute memo).2.store key (compute memo).1)) ∧
      (∀ key value, (session.runMemo (.output key value)).1 =
        .ok (.memo ((history.first? key).getD value) (history.first? key).isNone)) ∧
      (∀ level argument, (session.runMemo (.level level argument)).1 =
        .ok (.text ((history.first? ⟨Builtin.levelName, level, argument⟩).getD
          (Builtin.levelText level argument)))) ∧
      (∀ argument, (session.runMemo (.split argument)).1 =
        .ok (.texts (Argument.split argument))) ∧
      (∀ task : Memo.Task, (task.run memo).1 = (task.told history).text) ∧
      (∀ (keys : MemoKey → Prop) (task : Memo.Task), task.Within keys →
        (∀ other : Memo, memo.Alike keys other →
          (task.run memo).1 = (task.run other).1 ∧
            (task.run memo).2.Alike keys (task.run other).2) ∧
          (task.Keeps → ∀ key, ¬ keys key → (task.run memo).2.output? key = memo.output? key)) ∧
      ∀ act : Act σ,
        let after := watched.take (.act act)
        if session.forgets act then
          (session.perform act).desk.memo = .empty ∧ after.history.epoch = history.epoch + 1
        else
          memo.Grows (session.perform act).desk.memo ∧ after.history.epoch = history.epoch := by
  refine ⟨fun commands => ?_, fun steps => ?_⟩
  · rw [Watched.session_takeAll_acts, ← performAll_actsAll]
    rfl
  intro watched session history memo
  have agrees : memo.Agrees history := Watched.agrees_takeAll Memo.agrees_empty steps
  have hcall : ∀ key compute, memo.output key compute =
      match history.first? key with
      | some value => (value, memo)
      | none => ((compute memo).1, (compute memo).2.store key (compute memo).1) := by
    intro key compute
    cases hfirst : history.first? key with
    | some value => exact Memo.output_of_some compute ((agrees.outputs key).trans hfirst)
    | none => exact Memo.output_of_none compute ((agrees.outputs key).trans hfirst)
  refine ⟨hcall, answer_output agrees, answer_level agrees, answer_split agrees,
    fun task => (agrees.run task).1, fun keys task within => ⟨fun other alike => ?_, ?_⟩,
    fun act => watched.memo_take_act act⟩
  · exact alike.run within
  · exact fun keeps key hkey => Memo.output?_run_of_within within keeps hkey memo

def ownKey : MemoKey := ⟨"own".toList, .info, []⟩

/-- A format renders a level, somebody calls for a key while computing the value for it, and the
format is reset. -/
def revisited : List (Step Unit) :=
  [.act (.format (.make "f" (some "$\x7blevel\x7d".toList) none)),
    .act (.format (.make "g" none none)),
    .act (.format (.render "f" { level := .info, instant := ⟨0, 0, 0⟩ } [])),
    .work (.output ownKey
      (.output ownKey (.answer "inner".toList) fun _ => .answer "outer".toList) .answer),
    .act (.format (.reset "f"))]

/-- The call that began first is answered from then on, and a level does not touch it. When the
other format is given a placeholder, nothing is left. -/
theorem memo_follows_history_revisited :
    let session := ((Watched.start ()).takeAll revisited).session
    let memo := session.desk.memo
    let change : Act Unit := .format (.register "g" "x".toList (.pure fun _ _ => []))
    (∀ compute, memo.output ownKey compute = ("outer".toList, memo)) ∧
      (session.runMemo (.level .info [])).1 = .ok (.text "INFO".toList) ∧
      ((Memo.Task.level .error []).run memo).2.output? ownKey = memo.output? ownKey ∧
      (session.perform change).desk.memo = .empty := by
  intro session memo change
  obtain ⟨-, hsteps⟩ := memo_follows_history ()
  obtain ⟨hcall, -, hlevel, -, -, hkeys, hacts⟩ := hsteps revisited
  have hfirst : ((Watched.start ()).takeAll revisited).history.first? ownKey =
      some "outer".toList := by decide +kernel
  have hshown : ((Watched.start ()).takeAll revisited).history.first?
      ⟨Builtin.levelName, .info, []⟩ = some "INFO".toList := by decide +kernel
  have hforgets : session.forgets change = true := by decide +kernel
  refine ⟨fun compute => ?_, ?_, ?_, ?_⟩
  · rw [hcall, hfirst]
  · rw [hlevel, hshown]
    rfl
  · obtain ⟨-, hothers⟩ := hkeys (fun key => key.name = Builtin.levelName) (.level .error [])
      ⟨rfl, fun _ => trivial, fun _ => trivial⟩
    exact hothers (Memo.Task.keeps_level _ _) ownKey (by decide)
  · have hact := hacts change
    rw [if_pos hforgets] at hact
    exact hact.1

end Session

end Logbook
