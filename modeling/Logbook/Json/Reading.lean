import Logbook.Json.Lexeme
import Logbook.Text.Quoted

/-!
# Reading values from JSON

Typed values are read from the lexemes of a document as they come. A reader takes what it needs
and returns the rest; a document that does not fit is refused at the first lexeme that shows it,
whatever follows.
-/

namespace Logbook.Json

inductive Found where
  | null
  | truth (value : Bool)
  | number (value : Number)
  | string (text : Text)
  | sequence
  | map
  | unitVariant
  deriving DecidableEq, Repr

inductive Fault where
  /-- The document is no JSON, or ends too early or too late. -/
  | malformed
  | wrongType (found : Found) (expected : Text)
  | wrongValue (found : Found) (expected : Text)
  | unknownField (name : Text) (known : List Text)
  | repeatedField (name : Text)
  | unknownVariant (name : Text) (known : List Text)
  | refused (detail : Text)
  deriving DecidableEq, Repr

def Number.describe : Number → Text
  | .natural value => "integer `".toList ++ Text.decimal value ++ "`".toList
  | .negative size => "integer `-".toList ++ Text.decimal size ++ "`".toList
  | .floating text => "floating point `".toList ++ text ++ "`".toList

def Found.describe : Found → Text
  | .null => "null".toList
  | .truth true => "boolean `true`".toList
  | .truth false => "boolean `false`".toList
  | .number value => value.describe
  | .string text => "string ".toList ++ Text.quoted text
  | .sequence => "sequence".toList
  | .map => "map".toList
  | .unitVariant => "unit variant".toList

def listNames (names : List Text) : Text :=
  Text.joinWith [',', ' '] (names.map fun name => "`".toList ++ name ++ "`".toList)

namespace Fault

def message? : Fault → Option Text
  | .malformed => none
  | .wrongType found expected =>
      some ("invalid type: ".toList ++ found.describe ++ ", expected ".toList ++ expected)
  | .wrongValue found expected =>
      some ("invalid value: ".toList ++ found.describe ++ ", expected ".toList ++ expected)
  | .unknownField name known =>
      some ("unknown field `".toList ++ name ++ "`, expected one of ".toList ++ listNames known)
  | .repeatedField name => some ("duplicate field `".toList ++ name ++ "`".toList)
  | .unknownVariant name known =>
      some ("unknown variant `".toList ++ name ++ "`, expected one of ".toList ++ listNames known)
  | .refused detail => some detail

end Fault

/-- What the first lexeme shows of a value; nothing when no value begins there. -/
def Found.ofLexeme? : Lexeme → Option Found
  | .null => some .null
  | .truth value => some (.truth value)
  | .number value => some (.number value)
  | .string text => some (.string text)
  | .openArray => some .sequence
  | .openObject => some .map
  | _ => none

def mismatch (expected : Text) : List Lexeme → Fault
  | [] => .malformed
  | lexeme :: _ =>
      match Found.ofLexeme? lexeme with
      | some found => .wrongType found expected
      | none => .malformed

/-- A reader takes a value from the front of the lexemes. -/
abbrev Reader (α : Type) := List Lexeme → Except Fault (α × List Lexeme)

def readText (expected : Text) : Reader Text
  | .string text :: rest => .ok (text, rest)
  | lexemes => .error (mismatch expected lexemes)

def readTruth : Reader Bool
  | .truth value :: rest => .ok (value, rest)
  | lexemes => .error (mismatch "a boolean".toList lexemes)

def wordName : Text := "usize".toList

def readWord : Reader UInt64
  | .number (.natural value) :: rest => .ok (UInt64.ofNat value, rest)
  | .number (.negative size) :: _ =>
      .error (.wrongValue (.number (.negative size)) wordName)
  | lexemes => .error (mismatch wordName lexemes)

def readOptional {α : Type} (read : Reader α) : Reader (Option α)
  | .null :: rest => .ok (none, rest)
  | lexemes =>
      match read lexemes with
      | .ok (value, rest) => .ok (some value, rest)
      | .error fault => .error fault

def readColon : List Lexeme → Except Fault (List Lexeme)
  | .colon :: rest => .ok rest
  | _ => .error .malformed

/-- Reads a whole document: nothing may follow the value. -/
def readDocument {α : Type} (read : Reader α) (document : Text) : Except Fault α :=
  match read (scan document) with
  | .ok (value, []) => .ok value
  | .ok (_, _ :: _) => .error .malformed
  | .error fault => .error fault

end Logbook.Json
