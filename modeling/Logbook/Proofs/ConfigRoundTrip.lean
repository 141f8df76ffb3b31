import Logbook.Config.Json
import Logbook.Proofs.WrittenJson

/-!
# Settings come back

Settings that are written as JSON and read again are the same settings. The members of an object
are read in any order, each of them taking over one field.
-/

namespace Logbook

theorem Level.ofText?_name (level : Level) : Level.ofText? level.name = some level := by
  cases level <;> rfl

theorem Level.read_lexemes (level : Level) (rest : List Json.Lexeme) :
    Level.read (level.lexemes ++ rest) = .ok (level, rest) := by
  simp only [Level.lexemes, List.singleton_append, Level.read, Json.readText, Level.parse,
    Level.ofText?_name]

namespace ConfigField

def copy (source config : Config) : ConfigField → Config
  | .level => { config with level := source.level }
  | .format => { config with format := source.format }
  | .prefixText => { config with prefixText := source.prefixText }
  | .indentLines => { config with indentLines := source.indentLines }
  | .shiftIndent => { config with shiftIndent := source.shiftIndent }

theorem ofName?_name (field : ConfigField) : ofName? field.name = some field := by
  cases field <;> decide

/-- The value of a field is read as that of the settings that wrote it. -/
theorem read_fieldLexemes (field : ConfigField) (source config : Config)
    (rest : List Json.Lexeme) :
    field.read config (source.fieldLexemes field ++ rest) =
      .ok (field.copy source config, rest) := by
  cases field with
  | level =>
      simp only [read, Config.fieldLexemes, Level.read_lexemes]
      rfl
  | format => rfl
  | prefixText => rfl
  | indentLines => rfl
  | shiftIndent =>
      cases hshift : source.shiftIndent with
      | none => simp [read, copy, Config.fieldLexemes, Json.readOptional, Except.map, hshift]
      | some width =>
          simp [read, copy, Config.fieldLexemes, Json.readOptional, Json.readWord, Except.map,
            hshift]

end ConfigField

namespace Config

def memberLexemes (config : Config) : List ConfigField → List Json.Lexeme
  | [] => []
  | [field] => .string field.name :: .colon :: config.fieldLexemes field
  | field :: more =>
      .string field.name :: .colon :: config.fieldLexemes field ++
        .comma :: config.memberLexemes more

theorem memberLexemes_cons_cons (config : Config) (field next : ConfigField)
    (more : List ConfigField) :
    config.memberLexemes (field :: next :: more) =
      .string field.name :: .colon :: (config.fieldLexemes field ++
        .comma :: config.memberLexemes (next :: more)) := rfl

theorem lexemes_eq (config : Config) :
    config.lexemes =
      .openObject :: (config.memberLexemes ConfigField.all ++ [.closeObject]) := rfl

theorem readMembers_named {missing : List ConfigField} {field : ConfigField}
    (hmissing : field ∈ missing) (config : Config) (lexemes : List Json.Lexeme) :
    readMembers missing config (.string field.name :: .colon :: lexemes) =
      match field.read config lexemes with
      | .error fault => .error fault
      | .ok (next, .closeObject :: rest) => .ok (next, rest)
      | .ok (next, .comma :: rest) => readMembers (missing.erase field) next rest
      | .ok _ => .error .malformed := by
  rw [readMembers, ConfigField.ofName?_name]
  exact dif_pos hmissing

theorem still_missing {field : ConfigField} {fields missing : List ConfigField}
    (hnodup : (field :: fields).Nodup) (hmissing : ∀ other ∈ field :: fields, other ∈ missing) :
    ∀ other ∈ fields, other ∈ missing.erase field := by
  obtain ⟨hnotin, -⟩ := List.nodup_cons.1 hnodup
  intro other hother
  have hne : other ≠ field := by
    rintro rfl
    exact hnotin hother
  exact (List.mem_erase_of_ne hne).2 (hmissing other (List.mem_cons_of_mem _ hother))

/-- Members of different fields that are still missing take these fields over, in any order. -/
theorem readMembers_memberLexemes (source config : Config) {field : ConfigField}
    {fields missing : List ConfigField} (hnodup : (field :: fields).Nodup)
    (hmissing : ∀ other ∈ field :: fields, other ∈ missing) (rest : List Json.Lexeme) :
    readMembers missing config
        (source.memberLexemes (field :: fields) ++ .closeObject :: rest) =
      .ok ((field :: fields).foldl (ConfigField.copy source) config, rest) := by
  have hfield := hmissing field List.mem_cons_self
  induction fields generalizing field missing config with
  | nil =>
      rw [memberLexemes, List.cons_append, List.cons_append, readMembers_named hfield,
        field.read_fieldLexemes]
      rfl
  | cons next fields ih =>
      have hrest := still_missing hnodup hmissing
      have hmore := ih (field.copy source config) hnodup.of_cons hrest
        (hrest next List.mem_cons_self)
      rw [memberLexemes_cons_cons, List.cons_append, List.cons_append, List.append_assoc,
        readMembers_named hfield, List.cons_append, field.read_fieldLexemes]
      exact hmore

/-- Taking over all fields leaves nothing of what was there. -/
theorem foldl_copy_all (source config : Config) :
    ConfigField.all.foldl (ConfigField.copy source) config = source := rfl

theorem read_lexemes (config : Config) : read config.lexemes = .ok (config, []) := by
  have hall : ∀ field ∈ ConfigField.all, field ∈ ConfigField.all := fun _ => id
  have hmembers := readMembers_memberLexemes config standard (by decide) hall []
  rw [← ConfigField.all, foldl_copy_all] at hmembers
  rw [lexemes_eq, read, hmembers]
  intro rest hempty
  cases hempty

/-! ## The written text -/

theorem plain_lexemes (config : Config) : ∀ lexeme ∈ config.lexemes, lexeme.Plain := by
  cases hshift : config.shiftIndent with
  | none =>
      simp [lexemes_eq, memberLexemes, ConfigField.all, fieldLexemes, Level.lexemes, hshift,
        Json.Lexeme.Plain]
  | some width =>
      have hwidth : width.toNat ≤ Json.greatestWord := Nat.le_sub_one_of_lt width.toNat_lt
      simp [lexemes_eq, memberLexemes, ConfigField.all, fieldLexemes, Level.lexemes, hshift,
        Json.Lexeme.Plain, hwidth]

theorem apart_lexemes (config : Config) :
    config.lexemes.IsChain fun a b => ¬ (a.IsNumber ∧ b.IsNumber) := by
  cases hshift : config.shiftIndent <;>
    simp [lexemes_eq, memberLexemes, ConfigField.all, fieldLexemes, Level.lexemes, hshift,
      Json.Lexeme.IsNumber]

/-- Settings come back from their text, whatever level, texts and width they hold. -/
theorem json_round_trip (config : Config) : ofJson config.json = .ok config := by
  have hscan := Json.scan_write config.plain_lexemes config.apart_lexemes
  simp only [ofJson, Json.readDocument, json, hscan, read_lexemes]

end Config

end Logbook
