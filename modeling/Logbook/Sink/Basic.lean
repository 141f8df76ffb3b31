import Logbook.Sink.File
import Logbook.Sink.Memory
import Logbook.Sink.Stream
import Logbook.Sink.Tally

/-!
# Sinks

Where octets end up. A sink of the console or of a file acts on the `Host`; the others keep what
they take, and `Sink.kept` is all that they have taken and not given away.
-/

namespace Logbook

inductive ConsoleTarget where
  | stderr
  | stdout
  deriving DecidableEq, Repr, Inhabited

namespace ConsoleTarget

def standard : ConsoleTarget := .stderr

def name : ConsoleTarget → Text
  | .stderr => "stderr".toList
  | .stdout => "stdout".toList

def title : ConsoleTarget → Text
  | .stderr => "Stderr".toList
  | .stdout => "Stdout".toList

end ConsoleTarget

/-- What the program shares with the world: a disk and the two streams of the console. -/
structure Host where
  disk : Disk := {}
  stderr : Bytes := []
  stdout : Bytes := []

def Host.print (host : Host) (target : ConsoleTarget) (data : Bytes) : Host :=
  match target with
  | .stderr => { host with stderr := host.stderr ++ data }
  | .stdout => { host with stdout := host.stdout ++ data }

inductive Sink where
  | memory (memory : Memory)
  | tally (tally : Tally)
  | stream (name : Text) (channel : Channel)
  | file (file : FileSink)
  | console (target : ConsoleTarget)
  | plain

namespace Sink

def streamName : Text := "writer".toList

def name : Sink → Text
  | .memory _ => "memory".toList
  | .tally count => count.name
  | .stream name _ => name
  | .file _ => "file".toList
  | .console target => target.name
  | .plain => "plain".toList

/-- What the sink has taken and still holds. -/
def kept : Sink → Bytes
  | .memory store => store.bytes
  | .tally count => count.bytes
  | .stream _ channel => channel.bytes
  | _ => []

def write (sink : Sink) (data : Bytes) (host : Host) : Except LogError Nat × Sink × Host :=
  match sink with
  | .memory store => (.ok data.length, .memory (store.write data), host)
  | .tally count =>
      let (result, count) := count.write data
      (result, .tally count, host)
  | .stream name channel =>
      let (result, channel) := channel.write data
      (result, .stream name channel, host)
  | .file opened =>
      let (opened, disk) := opened.write data host.disk
      (.ok data.length, .file opened, { host with disk })
  | .console target => (.ok data.length, .console target, host.print target data)
  | .plain => (.ok data.length, .plain, host)

def flush (sink : Sink) (host : Host) : Except LogError Unit × Sink × Host :=
  match sink with
  | .tally count =>
      let (result, count) := count.flush
      (result, .tally count, host)
  | .stream name channel => (channel.flush, .stream name channel, host)
  | .file opened =>
      let (opened, disk) := opened.flush host.disk
      (.ok (), .file opened, { host with disk })
  | sink => (.ok (), sink, host)

end Sink

end Logbook
