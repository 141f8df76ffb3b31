import Logbook.Config.Json
import Logbook.Router

/-!
# Settings of a logger

What a logger needs besides its level: where its formatter and its router stand, the prefix, the
way continuation lines are shifted, what happens after a fatal record, and where failures are
reported. A `Plan` is what the maker of a logger asks for.
-/

namespace Logbook

/-- What happens after a fatal record: the program ends, or a caller is told under a tag. -/
inductive ExitAction where
  | terminate
  | notify (tag : Text)
  deriving DecidableEq, Repr

def fatalExitCode : Nat := 1

structure Settings where
  formatter : Nat
  router : Nat
  prefixText : Text := []
  indent : Indent := .disabled
  exit : ExitAction
  fallback : Endpoint
  deriving DecidableEq, Repr

/-- What a logger starts from: the standard, settings, or settings in a document. -/
inductive PlanBase where
  | standard
  | config (config : Config)
  | document (json : Text)
  deriving DecidableEq, Repr

/-- What is asked for a new logger. A formatter by name goes before a template, a router by name
before a sink, a fixed shift before alignment. -/
structure Plan where
  base : PlanBase := .standard
  level : Option Level := none
  template : Option Text := none
  formatter : Option String := none
  sink : Option String := none
  router : Option String := none
  prefixText : Option Text := none
  indentLines : Option Bool := none
  shiftIndent : Option Nat := none
  fallback : Option String := none
  exit : ExitAction := .terminate
  deriving DecidableEq, Repr

def Indent.ofLines (enabled : Bool) : Indent := if enabled then .auto else .disabled

namespace Plan

structure Start where
  level : Level := Level.standard
  template : Option Text := none
  prefixText : Text := []
  indent : Indent := .disabled
  deriving DecidableEq, Repr

inductive Refusal where
  | unread (fault : Json.Fault)
  | invalid (error : LogError)
  deriving DecidableEq, Repr

/-- The start that settings give when they are accepted. -/
def startOf (config : Config) : Except Refusal Start :=
  match config.validate with
  | .error error => .error (.invalid error)
  | .ok () => .ok ⟨config.level, some config.format, config.prefixText, config.indent⟩

def start (plan : Plan) : Except Refusal Start :=
  match plan.base with
  | .standard => .ok {}
  | .config config => startOf config
  | .document json =>
      match Config.ofJson json with
      | .error fault => .error (.unread fault)
      | .ok config => startOf config

def indent (plan : Plan) (start : Start) : Indent :=
  match plan.shiftIndent, plan.indentLines with
  | some width, _ => .shift width
  | none, some enabled => .ofLines enabled
  | none, none => start.indent

end Plan

def describeLogger (level : Level) (prefixText : Text) (indent : Indent) (children : Nat) : Text :=
  "Logger \x7b level: ".toList ++ level.title ++ ", prefix: ".toList ++ Text.quoted prefixText ++
    ", indent: ".toList ++ indent.describe ++ ", children: ".toList ++ Text.decimal children ++
    " \x7d".toList

def Config.build (config : Config) : Except LogError Text :=
  match config.validate with
  | .error error => .error error
  | .ok () => .ok (describeLogger config.level config.prefixText config.indent 0)

end Logbook
