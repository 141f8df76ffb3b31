import Logbook.Error

/-!
# Tallies

A sink that counts its calls. It can be told to report another count than it was given, or to
fail; octets that it refuses are not kept.
-/

namespace Logbook

structure Tally where
  name : Text := "counting".toList
  reported : Option Nat := none
  failure : Option Text := none
  flushFailure : Option Text := none
  bytes : Bytes := []
  writes : Nat := 0
  flushes : Nat := 0
  deriving DecidableEq, Repr

namespace Tally

def write (tally : Tally) (data : Bytes) : Except LogError Nat × Tally :=
  let tally := { tally with writes := tally.writes + 1 }
  match tally.failure with
  | some detail => (.error (.writer detail), tally)
  | none => (.ok (tally.reported.getD data.length), { tally with bytes := tally.bytes ++ data })

def flush (tally : Tally) : Except LogError Unit × Tally :=
  let tally := { tally with flushes := tally.flushes + 1 }
  match tally.flushFailure with
  | some detail => (.error (.writer detail), tally)
  | none => (.ok (), tally)

end Tally

end Logbook
