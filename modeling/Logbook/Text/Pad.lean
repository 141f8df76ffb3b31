import Logbook.Text.Basic

/-!
# Columns

A text written into a column: first cut to the given precision, then filled up to the width. Of an
odd filling around a centred text the larger part goes to the right.
-/

namespace Logbook.Text

inductive Alignment where
  | left
  | right
  | center
  deriving DecidableEq, Repr

structure Column where
  width : Nat
  precision : Option Nat := none
  alignment : Alignment := .left
  fill : Char := ' '

def Column.cut (column : Column) (text : Text) : Text :=
  match column.precision with
  | none => text
  | some precision => text.take precision

def Column.place (column : Column) (text : Text) : Text :=
  let shown := column.cut text
  let missing := column.width - shown.length
  match column.alignment with
  | .left => shown ++ List.replicate missing column.fill
  | .right => List.replicate missing column.fill ++ shown
  | .center =>
      List.replicate (missing / 2) column.fill ++ shown ++
        List.replicate (missing - missing / 2) column.fill

end Logbook.Text
