import Logbook.Time.Layout

/-!
# Ways to write a time

Date and time of day, seconds since the beginning of 1970, or a layout of the user's. A layout
that cannot be read is written as it stands.
-/

namespace Logbook.Time

inductive Format where
  | dateTime
  | unix
  | custom (layout : Text)
  deriving DecidableEq, Repr, Inhabited

namespace Format

def standardLayout : Text := "%Y-%m-%d %H:%M:%S".toList

def ofArgument (argument : Text) : Format :=
  if argument = [] then .dateTime
  else if argument = "timestamp".toList then .unix
  else .custom argument

def renderLayout (layout : Text) (instant : Instant) : Text :=
  match Layout.parse? layout with
  | some items => Layout.render items instant
  | none => layout

def render (format : Format) (instant : Instant) : Text :=
  match format with
  | .dateTime => renderLayout standardLayout instant
  | .unix => Text.signed instant.seconds
  | .custom layout => renderLayout layout instant

end Format

end Logbook.Time
