import Logbook.Json.Reading
import Logbook.Json.Writing
import Logbook.Time.Format

/-!
# Ways to write a time in JSON

Two of them are a name, a layout of the user's is an object with one member. A name may also stand
in such an object, with `null` as its value.
-/

namespace Logbook.Time.Format

def variants : List Text := ["DateTime".toList, "Unix".toList, "Custom".toList]

def lexemes : Format → List Json.Lexeme
  | .dateTime => [.string "DateTime".toList]
  | .unix => [.string "Unix".toList]
  | .custom layout => Json.objectLexemes [("Custom".toList, [.string layout])]

def json (format : Format) : Text := Json.write format.lexemes

/-- The ways to write a time by name; the layout is still missing. -/
inductive Variant where
  | dateTime
  | unix
  | custom

def variant? (name : Text) : Except Json.Fault Variant :=
  if name = "DateTime".toList then .ok .dateTime
  else if name = "Unix".toList then .ok .unix
  else if name = "Custom".toList then .ok .custom
  else .error (.unknownVariant name variants)

def readNull : Json.Reader Unit
  | .null :: rest => .ok ((), rest)
  | lexemes => .error (Json.mismatch "unit".toList lexemes)

def readContent (variant : Variant) : Json.Reader Format := fun lexemes =>
  match variant with
  | .dateTime => (readNull lexemes).map fun found => (.dateTime, found.2)
  | .unix => (readNull lexemes).map fun found => (.unix, found.2)
  | .custom =>
      (Json.readText "a string".toList lexemes).map fun found => (.custom found.1, found.2)

/-- An object of one member, its brace already read. -/
def readMember : Json.Reader Format
  | .string name :: rest => do
      let variant ← variant? name
      let rest ← Json.readColon rest
      let (format, rest) ← readContent variant rest
      match rest with
      | .closeObject :: rest => .ok (format, rest)
      | _ => .error .malformed
  | _ => .error .malformed

def read : Json.Reader Format
  | .string name :: rest =>
      match variant? name with
      | .ok .dateTime => .ok (.dateTime, rest)
      | .ok .unix => .ok (.unix, rest)
      | .ok .custom => .error (.wrongType .unitVariant "newtype variant".toList)
      | .error fault => .error fault
  | .openObject :: rest => readMember rest
  | _ => .error .malformed

def ofJson (document : Text) : Except Json.Fault Format := Json.readDocument read document

def describe : Format → Text
  | .dateTime => "DateTime".toList
  | .unix => "Unix".toList
  | .custom layout => "Custom(".toList ++ Text.quoted layout ++ [')']

end Logbook.Time.Format
