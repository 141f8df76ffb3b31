import Logbook.Text.Basic

/-!
# Levels

The six levels of a record, from the most severe to the most talkative. A logger at some level
lets through the records that are at least as severe.
-/

namespace Logbook

inductive Level where
  | fatal
  | error
  | warning
  | info
  | debug
  | trace
  deriving DecidableEq, Repr, Inhabited

namespace Level

def all : List Level := [.fatal, .error, .warning, .info, .debug, .trace]

theorem mem_all (level : Level) : level ∈ all := by cases level <;> decide

def standard : Level := .info

/-- The place in the order of talkativeness. -/
def ordinal : Level → Nat
  | .fatal => 0
  | .error => 1
  | .warning => 2
  | .info => 3
  | .debug => 4
  | .trace => 5

def compare (a b : Level) : Ordering := Ord.compare a.ordinal b.ordinal

/-- Whether a logger at `threshold` lets a record at `level` through. -/
def allows (threshold level : Level) : Bool := level.ordinal ≤ threshold.ordinal

def name : Level → Text
  | .fatal => "FATAL".toList
  | .error => "ERROR".toList
  | .warning => "WARNING".toList
  | .info => "INFO".toList
  | .debug => "DEBUG".toList
  | .trace => "TRACE".toList

def shortName : Level → Text
  | .warning => "WARN".toList
  | level => level.name

/-- The name with one capital, as it stands in descriptions of values. -/
def title : Level → Text
  | .fatal => "Fatal".toList
  | .error => "Error".toList
  | .warning => "Warning".toList
  | .info => "Info".toList
  | .debug => "Debug".toList
  | .trace => "Trace".toList

def width : Nat := 7

def shortWidth : Nat := 5

theorem length_name_le (level : Level) : level.name.length ≤ width := by cases level <;> decide

theorem length_shortName_le (level : Level) : level.shortName.length ≤ shortWidth := by
  cases level <;> decide

end Level

end Logbook
