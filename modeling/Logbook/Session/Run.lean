import Logbook.Session.Loggers

/-!
# Runs

Commands carried out one after the other. The commands inside a message run after the gate of the
logger has admitted the record and before its settings are read, and the logger lives until the
record is made; a record that is stopped leaves the session as it was. After each command, sinks
that nothing holds any more are closed.
-/

namespace Logbook.Session

variable {σ : Type}

/-- A result whose session has let go of what only the earlier one holds. -/
def settle (before : Session σ) (result : Result σ) : Result σ :=
  (result.1, before.release result.2)

mutual

def exec : Command σ → Session σ → Result σ
  | .sink command, session => settle session (session.runSink command)
  | .router command, session => settle session (session.runRouter command)
  | .format command, session => settle session (session.runFormat command)
  | .memo command, session => settle session (session.runMemo command)
  | .logger command, session => settle session (session.runLogger command)
  | .log handle entry site instant message effects, session =>
      match session.loggers.find? handle with
      | none => session.misused
      | some logger =>
          if session.admits logger entry then
            let worded := execAll effects (session.enter logger)
            settle worded (worded.deliver logger entry site instant message).leave.done
          else session.done
  | .discard, session => session.done

/-- Carries out commands in order, whatever their outcomes. -/
def execAll : List (Command σ) → Session σ → Session σ
  | [], session => session
  | command :: rest, session => execAll rest (exec command session).2

end

theorem exec_log_of_stopped {session : Session σ} {handle : String} {logger : Nat} {entry : Entry}
    (site : Option CallSite) (instant : Time.Instant) (message : Text)
    (effects : List (Command σ)) (hfind : session.loggers.find? handle = some logger)
    (hgate : session.admits logger entry = false) :
    exec (.log handle entry site instant message effects) session = (.ok .done, session) := by
  simp [exec, hfind, hgate, done]

/-! ## What a step shows -/

def eventsSince (session : Session σ) (length : Nat) : List Event :=
  session.outlets.journal.drop length

def gainOf (events : List Event) (sink : Nat) : Bytes :=
  (events.filterMap (Event.gained? sink)).flatten

/-- What the named sinks took during some events, as text; only those that took something. -/
def gains (session : Session σ) (events : List Event) : List (String × Text) :=
  let gain (entry : String × Nat) := (entry.1, Text.decode (gainOf events entry.2))
  (session.sinkHandles.entries.map gain).filter fun entry => entry.2 ≠ []

def exits (events : List Event) : List (ExitAction × Nat) := events.filterMap Event.exit?

/-- What shows of a formatter: whether it is compiled and its tokens, or how often it was used. -/
inductive FormatterView where
  | format (compiled : Bool) (tokens : List Text)
  | stamp (renders : Nat)
  deriving DecidableEq, Repr

def viewFormatter : Formatter σ → FormatterView
  | .format format => .format format.isCompiled format.compiledTokens
  | .stamp stamp => .stamp stamp.renders

def formatterViews (session : Session σ) : List (String × FormatterView) :=
  session.formatterHandles.entries.filterMap fun entry =>
    if entry.2.borrowed then none
    else
      (session.formatters[entry.2.index]?).map fun formatter =>
        (entry.1, viewFormatter formatter)

/-! ## Programs -/

def ended? (events : List Event) : Option Nat :=
  (exits events).findSome? fun found =>
    match found.1 with
    | .terminate => some found.2
    | .notify _ => none

/-- Carries out commands until one of them ends the program; the code is zero when none does. -/
def runProgram : List (Command σ) → Session σ → Nat × Session σ
  | [], session => (0, session)
  | command :: rest, session =>
      let after := (exec command session).2
      match ended? (after.eventsSince session.outlets.journal.length) with
      | some code => (code, after)
      | none => runProgram rest after

end Logbook.Session
