import Logbook.Text.Basic

/-!
# Paths

The last name on a path whose steps are separated by slashes. Empty steps and steps that stay
where they are do not count, except a single dot at the very start of a relative path.
-/

namespace Logbook.Path

def here : Text := ['.']

def up : Text := ['.', '.']

def steps (path : Text) : List Text :=
  let parts := Text.splitOn '/' path
  match parts with
  | first :: rest =>
      let rest := rest.filter fun part => part ≠ [] ∧ part ≠ here
      if first = [] then rest else first :: rest
  | [] => []

/-- The name a path ends in; a path that ends in a dot step or at the root has none. -/
def fileName? (path : Text) : Option Text :=
  match (steps path).getLast? with
  | some name => if name = here ∨ name = up then none else some name
  | none => none

end Logbook.Path
