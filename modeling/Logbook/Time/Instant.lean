import Logbook.Time.Calendar

/-!
# Instants

A point in time, seen on a clock some seconds east of the meridian. Nanoseconds from a whole
second on mark the leap second that follows a second 59.
-/

namespace Logbook.Time

structure Instant where
  seconds : Int
  nanos : Nat := 0
  offset : Int := 0
  deriving DecidableEq, Repr

namespace Instant

def localSeconds (instant : Instant) : Int := instant.seconds + instant.offset

def day (instant : Instant) : Int := instant.localSeconds / 86400

def secondOfDay (instant : Instant) : Nat := (instant.localSeconds % 86400).toNat

def date (instant : Instant) : Date := Date.ofDay instant.day

def hour (instant : Instant) : Nat := instant.secondOfDay / 3600

def minute (instant : Instant) : Nat := instant.secondOfDay / 60 % 60

/-- The second of the minute, 60 in a leap second. -/
def second (instant : Instant) : Nat := instant.secondOfDay % 60 + instant.nanos / 1000000000

def fraction (instant : Instant) : Nat := instant.nanos % 1000000000

theorem secondOfDay_lt (instant : Instant) : instant.secondOfDay < 86400 := by
  unfold secondOfDay; omega

end Instant

end Logbook.Time
