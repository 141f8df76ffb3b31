import Logbook.Format.Segment
import Logbook.Text.Quoted

/-!
# Formats

A template with its registry. The first rendering compiles the template; the segments serve until
the registry changes or the format is reset. A change of any registry also empties the memo.
-/

namespace Logbook

structure Format (σ : Type) where
  template : Text
  registry : Registry σ := Registry.builtin
  compiled : Option (List (Segment σ)) := none

namespace Format

variable {σ : Type}

def standardTemplate : Text :=
  "$\x7btime\x7d $\x7blevel:[%s]\\::right:true\x7d $\x7bprefix\x7d%s".toList

def standard : Format σ := { template := standardTemplate }

def isCompiled (format : Format σ) : Bool := format.compiled.isSome

/-- The texts of the replaced tokens; none before the template is compiled. -/
def compiledTokens (format : Format σ) : List Text :=
  Segment.tokens (format.compiled.getD [])

def segments (format : Format σ) : List (Segment σ) :=
  Segment.compile format.registry format.template

/-- The segments that a rendering uses. -/
def compile (format : Format σ) : List (Segment σ) := format.compiled.getD format.segments

/-- The text of one record; afterwards the format is compiled. -/
def render (format : Format σ) (context : Context) (prefixText : Text) (desk : Desk σ) :
    Text × Format σ × Desk σ :=
  let segments := format.compile
  let (text, desk) := Segment.renderAll context prefixText segments desk
  (text, { format with compiled := some segments }, desk)

def reset (format : Format σ) : Format σ := { format with compiled := none }

def withRegistry (format : Format σ) (registry : Registry σ) : Format σ :=
  { format with registry, compiled := none }

def register (format : Format σ) (name : Text) (placeholder : Placeholder σ) : Format σ :=
  format.withRegistry (format.registry.insert name placeholder)

/-- Compiled segments are those of the present registry. -/
def Coherent (format : Format σ) : Prop :=
  ∀ segments, format.compiled = some segments → segments = format.segments

theorem coherent_reset (format : Format σ) : format.reset.Coherent := by
  intro segments h
  cases h

theorem coherent_withRegistry (format : Format σ) (registry : Registry σ) :
    (format.withRegistry registry).Coherent := by
  intro segments h
  cases h

theorem compile_eq_segments {format : Format σ} (h : format.Coherent) :
    format.compile = format.segments := by
  unfold compile
  cases hc : format.compiled with
  | none => rfl
  | some segments => exact h segments hc

theorem coherent_render {format : Format σ} (h : format.Coherent) (context : Context)
    (prefixText : Text) (desk : Desk σ) :
    (format.render context prefixText desk).2.1.Coherent := by
  intro segments hs
  simp only [render, Option.some.injEq] at hs
  rw [← hs, compile_eq_segments h]
  rfl

def quotedList (texts : List Text) : Text :=
  ['['] ++ Text.joinWith [',', ' '] (texts.map Text.quoted) ++ [']']

def truth (value : Bool) : Text := if value then "true".toList else "false".toList

def describe (format : Format σ) : Text :=
  "Format \x7b template: ".toList ++ Text.quoted format.template ++ ", placeholders: ".toList ++
    quotedList format.registry.names ++ ", compiled: ".toList ++ truth format.isCompiled ++
    " \x7d".toList

/-- A list with one item a line, four spaces deeper than `depth`. -/
def tallList (depth : Nat) (texts : List Text) : Text :=
  if texts = [] then ['[', ']']
  else
    ['[', '\n'] ++
      texts.flatMap (fun text => spaces (depth + 4) ++ Text.quoted text ++ [',', '\n']) ++
      spaces depth ++ [']']

def describeTall (format : Format σ) : Text :=
  "Format \x7b\n    template: ".toList ++ Text.quoted format.template ++
    ",\n    placeholders: ".toList ++ tallList 4 format.registry.names ++
    ",\n    compiled: ".toList ++ truth format.isCompiled ++ ",\n\x7d".toList

end Format

/-- A formatter without a template: a fixed text in which two marks stand for the short name of
the level and the prefix. It counts how often it was used and knows no placeholders. -/
structure Stamp where
  text : Text
  renders : Nat := 0
  deriving DecidableEq, Repr

namespace Stamp

def levelMark : Text := "<level>".toList

def prefixMark : Text := "<prefix>".toList

def render (stamp : Stamp) (level : Level) (prefixText : Text) : Text × Stamp :=
  (Text.replaceAll prefixMark prefixText (Text.replaceAll levelMark level.shortName stamp.text),
    { stamp with renders := stamp.renders + 1 })

end Stamp

inductive Formatter (σ : Type) where
  | format (format : Format σ)
  | stamp (stamp : Stamp)

namespace Formatter

variable {σ : Type}

def render (formatter : Formatter σ) (context : Context) (prefixText : Text) (desk : Desk σ) :
    Text × Formatter σ × Desk σ :=
  match formatter with
  | .format found =>
      let (text, found, desk) := found.render context prefixText desk
      (text, .format found, desk)
  | .stamp found =>
      let (text, found) := found.render context.level prefixText
      (text, .stamp found, desk)

def reset : Formatter σ → Formatter σ
  | .format found => .format found.reset
  | .stamp found => .stamp found

def registry : Formatter σ → Registry σ
  | .format found => found.registry
  | .stamp _ => Table.empty

/-- Another registry for a format, which empties the memo. A stamp takes no registry. -/
def setRegistry (formatter : Formatter σ) (registry : Registry σ) (desk : Desk σ) :
    Formatter σ × Desk σ :=
  match formatter with
  | .format found => (.format (found.withRegistry registry), { desk with memo := .empty })
  | .stamp found => (.stamp found, desk)

/-- One placeholder added or replaced, which empties the memo. A stamp takes no placeholder. -/
def register (formatter : Formatter σ) (name : Text) (placeholder : Placeholder σ)
    (desk : Desk σ) : Formatter σ × Desk σ :=
  match formatter with
  | .format found => (.format (found.register name placeholder), { desk with memo := .empty })
  | .stamp found => (.stamp found, desk)

end Formatter

end Logbook
