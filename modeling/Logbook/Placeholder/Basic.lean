import Logbook.Placeholder.Builtin

/-!
# Placeholders

A placeholder turns the context of a record and the argument in the template into text. It is one
of the built-in ones or a function of the user's, which may keep a state of type `σ`. Built-in
placeholders share the memo; a placeholder of the user's cannot reach it.
-/

namespace Logbook

inductive Placeholder (σ : Type) where
  | level
  | line
  | file
  | time
  | custom (run : Context → Text → σ → Text × σ)

/-- What rendering may read and change: the memo, and the state that the user's placeholders keep.
-/
structure Desk (σ : Type) where
  memo : Memo := {}
  own : σ

namespace Placeholder

variable {σ : Type}

def render (placeholder : Placeholder σ) (context : Context) (argument : Text) (desk : Desk σ) :
    Text × Desk σ :=
  match placeholder with
  | .level =>
      let (text, memo) := Builtin.rememberedLevel context.level argument desk.memo
      (text, { desk with memo })
  | .line => (Builtin.lineText context.site, desk)
  | .file => (Builtin.fileText context.site argument, desk)
  | .time => (Builtin.timeText context.instant argument, desk)
  | .custom run =>
      let (text, own) := run context argument desk.own
      (text, { desk with own })

/-- A placeholder of the user's that keeps no state. -/
def pure (text : Context → Text → Text) : Placeholder σ :=
  .custom fun context argument own => (text context argument, own)

end Placeholder

abbrev Registry (σ : Type) := Table Text (Placeholder σ)

namespace Registry

variable {σ : Type}

def builtin : Registry σ :=
  ⟨[("level".toList, .level), ("line".toList, .line), ("file".toList, .file),
    ("time".toList, .time)]⟩

def builtin? (name : Text) : Option (Placeholder σ) := builtin.find? name

def precedes : Text → Text → Bool
  | [], _ => true
  | _ :: _, [] => false
  | a :: rest, b :: other => a.toNat < b.toNat || (a = b && precedes rest other)

def names (registry : Registry σ) : List Text := registry.keys.mergeSort precedes

end Registry

end Logbook
