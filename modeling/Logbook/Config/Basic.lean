import Logbook.Error
import Logbook.Format.Basic
import Logbook.Record

/-!
# Settings

The settings of a logger that can be kept in a document. A template without a message token is
refused, since it would drop the body of every record.
-/

namespace Logbook

structure Config where
  level : Level := Level.standard
  format : Text := Format.standardTemplate
  prefixText : Text := []
  indentLines : Bool := false
  shiftIndent : Option UInt64 := none
  deriving DecidableEq, Repr

namespace Config

def standard : Config := {}

/-- The way of the settings to shift continuation lines; a fixed width goes before alignment. -/
def indent (config : Config) : Indent :=
  match config.shiftIndent with
  | some width => .shift width.toNat
  | none => if config.indentLines then .auto else .disabled

def withoutMessage (format : Text) : LogError :=
  .configuration "format".toList
    ("template ".toList ++ Text.quoted format ++ " has no %s message token".toList)

def validate (config : Config) : Except LogError Unit :=
  if Text.Contains Builtin.messageToken config.format then .ok ()
  else .error (withoutMessage config.format)

def describe (config : Config) : Text :=
  "LoggerConfig \x7b level: ".toList ++ config.level.title ++ ", format: ".toList ++
    Text.quoted config.format ++ ", prefix: ".toList ++ Text.quoted config.prefixText ++
    ", indent_lines: ".toList ++ Format.truth config.indentLines ++ ", shift_indent: ".toList ++
    (match config.shiftIndent with
      | none => "None".toList
      | some width => "Some(".toList ++ Text.decimal width.toNat ++ [')']) ++
    " \x7d".toList

end Config

end Logbook
