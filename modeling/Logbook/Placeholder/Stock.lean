import Logbook.Placeholder.Basic

/-!
# Ready-made placeholders

Placeholders that most users write sooner or later, over one small state: what the echoing ones
have returned so far, and how often each counter was asked.
-/

namespace Logbook.Stock

structure State where
  echoes : List Text := []
  counts : Table Nat Nat := {}

def constant (text : Text) : Placeholder State := .pure fun _ _ => text

/-- A label and the argument between square brackets; the text is noted as well. -/
def echo (label : Text) : Placeholder State :=
  .custom fun _ argument state =>
    let text := ['['] ++ label ++ ['@'] ++ argument ++ [']']
    (text, { state with echoes := state.echoes ++ [text] })

def levelAndArgument : Placeholder State :=
  .pure fun context argument => ['<'] ++ context.level.shortName ++ ['|'] ++ argument ++ ['>']

def fields : Placeholder State :=
  .pure fun _ argument => Text.joinWith ['|'] (Argument.split argument)

/-- How often the counter of this number was asked, this time included. -/
def counter (number : Nat) : Placeholder State :=
  .custom fun _ _ state =>
    let count := (state.counts.find? number).getD 0 + 1
    (Text.decimal count, { state with counts := state.counts.insert number count })

end Logbook.Stock
