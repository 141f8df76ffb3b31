import Logbook.Error
import Logbook.Sink.Disk

/-!
# Files

Sinks that append to a file through a buffer. A sink writes to its file only between the data of
whole writes: when the buffer has no room for the next data, when the data is as large as the
buffer, on a flush, and when the sink is closed.
-/

namespace Logbook

structure FileSink where
  place : Place
  pending : Bytes := []
  deriving DecidableEq, Repr

namespace FileSink

def capacity : Nat := 8192

def unopened (path : Text) : LogError :=
  .operation "opening log file".toList ("cannot open '".toList ++ path ++ ['\''])
    { kind := .notFound }

def openAt (path : Text) (disk : Disk) : Except LogError (FileSink × Disk) :=
  match disk.open? path with
  | some (place, disk) => .ok ({ place }, disk)
  | none => .error (unopened path)

def flush (sink : FileSink) (disk : Disk) : FileSink × Disk :=
  ({ sink with pending := [] }, disk.append sink.place sink.pending)

def write (sink : FileSink) (data : Bytes) (disk : Disk) : FileSink × Disk :=
  let spare := capacity - sink.pending.length
  let (sink, disk) := if spare < data.length then sink.flush disk else (sink, disk)
  if capacity ≤ data.length then (sink, disk.append sink.place data)
  else ({ sink with pending := sink.pending ++ data }, disk)

end FileSink

end Logbook
