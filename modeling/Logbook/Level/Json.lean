import Logbook.Json.Reading
import Logbook.Json.Writing
import Logbook.Level.Parse

/-!
# Levels in JSON

A level is written as its full name and read by the rules for reading a level.
-/

namespace Logbook.Level

def lexemes (level : Level) : List Json.Lexeme := [.string level.name]

def json (level : Level) : Text := Json.write level.lexemes

def read : Json.Reader Level := fun lexemes =>
  match Json.readText "a string".toList lexemes with
  | .error fault => .error fault
  | .ok (text, rest) =>
      match parse text with
      | .ok level => .ok (level, rest)
      | .error cause => .error (.refused cause.message)

def ofJson (document : Text) : Except Json.Fault Level := Json.readDocument read document

end Logbook.Level
