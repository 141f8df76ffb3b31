import Logbook.Text.Basic

/-!
# Arguments

The argument of a placeholder is a list of fields with colons between them. A colon inside a field
is written behind a backslash; no other backslash has a meaning. The empty argument has no fields.
-/

namespace Logbook.Argument

/-- The fields of a non-empty argument. -/
def fields : Text → List Text
  | [] => [[]]
  | '\\' :: ':' :: rest =>
      match fields rest with
      | field :: more => (':' :: field) :: more
      | [] => [[':']]
  | c :: rest =>
      if c = ':' then [] :: fields rest
      else
        match fields rest with
        | field :: more => (c :: field) :: more
        | [] => [[c]]

def split (argument : Text) : List Text := if argument = [] then [] else fields argument

theorem fields_ne_nil (argument : Text) : fields argument ≠ [] := by
  fun_cases fields argument <;> simp_all

/-- A field as it is written: a backslash before each of its colons. -/
def escape (field : Text) : Text :=
  field.flatMap fun c => if c = ':' then ['\\', ':'] else [c]

def encode (fields : List Text) : Text := Text.joinWith [':'] (fields.map escape)

def fieldAt (fields : List Text) (place : Nat) : Text := (fields[place]?).getD []

end Logbook.Argument
