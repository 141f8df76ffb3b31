import Logbook.Level.Basic
import Logbook.Text.Quoted

/-!
# Errors

What can go wrong between a record and its sink, as causes; `LogError.message` holds every
wording.
-/

namespace Logbook

inductive IoKind where
  | notFound
  | permissionDenied
  | brokenPipe
  | alreadyExists
  | writeZero
  | timedOut
  | unexpectedEof
  | invalidInput
  | other
  deriving DecidableEq, Repr

def IoKind.description : IoKind → Text
  | .notFound => "entity not found".toList
  | .permissionDenied => "permission denied".toList
  | .brokenPipe => "broken pipe".toList
  | .alreadyExists => "entity already exists".toList
  | .writeZero => "write zero".toList
  | .timedOut => "timed out".toList
  | .unexpectedEof => "unexpected end of file".toList
  | .invalidInput => "invalid input parameter".toList
  | .other => "other error".toList

/-- A refusal of the system, with words of its own or those of its kind. -/
structure IoError where
  kind : IoKind
  detail : Option Text := none
  deriving DecidableEq, Repr

def IoError.text (error : IoError) : Text := error.detail.getD error.kind.description

inductive LogError where
  | unrouted (level : Level)
  | operation (doing detail : Text) (source : IoError)
  | io (source : IoError)
  | configuration (component detail : Text)
  | writer (detail : Text)
  deriving DecidableEq, Repr

namespace LogError

def message : LogError → Text
  | .unrouted level => "there are no appenders for level ".toList ++ level.name
  | .operation doing detail _ =>
      "IO error while ".toList ++ doing ++ ": ".toList ++ detail
  | .io source => "IO error: ".toList ++ source.text
  | .configuration component detail =>
      "Invalid configuration for ".toList ++ component ++ ": ".toList ++ detail
  | .writer detail => "Writer error: ".toList ++ detail

def describe? : LogError → Option Text
  | .unrouted level => some ("NoAppender \x7b level: ".toList ++ level.title ++ " \x7d".toList)
  | .configuration component detail =>
      some ("InvalidConfiguration \x7b component: ".toList ++ Text.quoted component ++
        ", message: ".toList ++ Text.quoted detail ++ " \x7d".toList)
  | .writer detail => some ("WriterError(".toList ++ Text.quoted detail ++ [')'])
  | _ => none

def source? : LogError → Option IoError
  | .operation _ _ source => some source
  | .io source => some source
  | _ => none

end LogError

end Logbook
