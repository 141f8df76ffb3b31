import Logbook.Config.Basic
import Logbook.Level.Json

/-!
# Settings in JSON

Settings are written as an object of five fields. They are read from an object with some of the
fields in any order, none of them twice, or from an array of values in the order of the fields;
what is missing keeps its standard.
-/

namespace Logbook

/-- The fields of the settings in their order. -/
inductive ConfigField where
  | level
  | format
  | prefixText
  | indentLines
  | shiftIndent
  deriving DecidableEq, Repr

namespace ConfigField

def all : List ConfigField := [.level, .format, .prefixText, .indentLines, .shiftIndent]

def name : ConfigField → Text
  | .level => "level".toList
  | .format => "format".toList
  | .prefixText => "prefix".toList
  | .indentLines => "indent_lines".toList
  | .shiftIndent => "shift_indent".toList

def ofName? (text : Text) : Option ConfigField := all.find? fun field => field.name = text

def read (field : ConfigField) (config : Config) : Json.Reader Config := fun lexemes =>
  match field with
  | .level => (Level.read lexemes).map fun found => ({ config with level := found.1 }, found.2)
  | .format =>
      (Json.readText "a string".toList lexemes).map fun found =>
        ({ config with format := found.1 }, found.2)
  | .prefixText =>
      (Json.readText "a string".toList lexemes).map fun found =>
        ({ config with prefixText := found.1 }, found.2)
  | .indentLines =>
      (Json.readTruth lexemes).map fun found => ({ config with indentLines := found.1 }, found.2)
  | .shiftIndent =>
      (Json.readOptional Json.readWord lexemes).map fun found =>
        ({ config with shiftIndent := found.1 }, found.2)

end ConfigField

namespace Config

def fieldLexemes (config : Config) : ConfigField → List Json.Lexeme
  | .level => config.level.lexemes
  | .format => [.string config.format]
  | .prefixText => [.string config.prefixText]
  | .indentLines => [.truth config.indentLines]
  | .shiftIndent =>
      match config.shiftIndent with
      | none => [.null]
      | some width => [.number (.natural width.toNat)]

def lexemes (config : Config) : List Json.Lexeme :=
  Json.objectLexemes (ConfigField.all.map fun field => (field.name, config.fieldLexemes field))

def json (config : Config) : Text := Json.write config.lexemes

/-- Reads the members of an object up to its brace; a name stands at the front. `missing` are the
fields that have not been read. -/
def readMembers (missing : List ConfigField) (config : Config) : Json.Reader Config
  | .string name :: rest =>
      match ConfigField.ofName? name with
      | none => .error (.unknownField name (ConfigField.all.map ConfigField.name))
      | some field =>
          if _h : field ∈ missing then
            match Json.readColon rest with
            | .error fault => .error fault
            | .ok rest =>
                match field.read config rest with
                | .error fault => .error fault
                | .ok (config, .closeObject :: rest) => .ok (config, rest)
                | .ok (config, .comma :: rest) => readMembers (missing.erase field) config rest
                | .ok _ => .error .malformed
          else .error (.repeatedField name)
  | _ => .error .malformed
  termination_by missing.length
  decreasing_by
    have := List.length_pos_of_mem _h
    rw [List.length_erase_of_mem _h]
    omega

/-- Reads the elements of an array, its bracket already read, for the fields that are left;
`first` is whether none has been read. -/
def readElements (first : Bool) (config : Config) : List ConfigField → Json.Reader Config
  | _, .closeArray :: rest => .ok (config, rest)
  | [], _ => .error .malformed
  | field :: more, lexemes =>
      let lexemes? : Except Json.Fault (List Json.Lexeme) :=
        if first then .ok lexemes
        else
          match lexemes with
          | .comma :: .closeArray :: _ => .error .malformed
          | .comma :: rest => .ok rest
          | _ => .error .malformed
      match lexemes? with
      | .error fault => .error fault
      | .ok lexemes =>
          match field.read config lexemes with
          | .error fault => .error fault
          | .ok (config, rest) => readElements false config more rest

def read : Json.Reader Config
  | .openObject :: .closeObject :: rest => .ok (standard, rest)
  | .openObject :: rest => readMembers ConfigField.all standard rest
  | .openArray :: rest => readElements true standard ConfigField.all rest
  | lexemes => .error (Json.mismatch "struct LoggerConfig".toList lexemes)

def ofJson (document : Text) : Except Json.Fault Config := Json.readDocument read document

end Config

end Logbook
