import Logbook.Logger.Settings
import Logbook.Sink.Basic

/-!
# Outlets

All sinks with the host they act on, and the journal of what went out. Sinks are known by their
place in the list; they are added and changed but never taken away.
-/

namespace Logbook

inductive Event where
  /-- A logger handed a record to a router. -/
  | handed (logger router : Nat) (level : Level) (record : Bytes)
  /-- A sink took octets. -/
  | gained (sink : Nat) (data : Bytes)
  /-- A logger reported a failed write to a sink. -/
  | reported (logger sink : Nat) (report : Bytes)
  /-- A fatal record was followed by its action. -/
  | exited (logger : Nat) (action : ExitAction) (code : Nat)
  deriving DecidableEq, Repr

def Event.gained? (sink : Nat) : Event → Option Bytes
  | .gained index data => if index = sink then some data else none
  | _ => none

def Event.exit? : Event → Option (ExitAction × Nat)
  | .exited _ action code => some (action, code)
  | _ => none

structure Outlets where
  host : Host := {}
  sinks : List Sink := []
  journal : List Event := []

namespace Outlets

def sink? (outlets : Outlets) (index : Nat) : Option Sink := outlets.sinks[index]?

def name (outlets : Outlets) (index : Nat) : Text :=
  match outlets.sink? index with
  | some sink => sink.name
  | none => []

def note (outlets : Outlets) (event : Event) : Outlets :=
  { outlets with journal := outlets.journal ++ [event] }

def add (outlets : Outlets) (sink : Sink) : Outlets :=
  { outlets with sinks := outlets.sinks ++ [sink] }

def set (outlets : Outlets) (index : Nat) (sink : Sink) : Outlets :=
  { outlets with sinks := outlets.sinks.set index sink }

/-- What one state of a sink holds beyond an earlier one. -/
def gain (before after : Sink) : Bytes := after.kept.drop before.kept.length

def write (index : Nat) (data : Bytes) (outlets : Outlets) : Except LogError Nat × Outlets :=
  match outlets.sink? index with
  | none => (.ok 0, outlets)
  | some sink =>
      let (result, after, host) := sink.write data outlets.host
      let changed := { outlets.set index after with host }
      let gained := gain sink after
      (result, if gained = [] then changed else changed.note (.gained index gained))

def flush (index : Nat) (outlets : Outlets) : Except LogError Unit × Outlets :=
  match outlets.sink? index with
  | none => (.ok (), outlets)
  | some sink =>
      let (result, after, host) := sink.flush outlets.host
      (result, { outlets.set index after with host })

/-- Brings what a file sink still buffers into its file. -/
def close (outlets : Outlets) (index : Nat) : Outlets :=
  match outlets.sink? index with
  | some (.file opened) =>
      let (closed, disk) := opened.flush outlets.host.disk
      { outlets.set index (.file closed) with host := { outlets.host with disk } }
  | _ => outlets

def closeAll (outlets : Outlets) (indices : List Nat) : Outlets := indices.foldl close outlets

def writeRouter (router : Router) (level : Level) (data : Bytes) (outlets : Outlets) :
    Except LogError Nat × Outlets :=
  router.write level (fun endpoint => write endpoint.sink data) outlets

def flushRouter (router : Router) (outlets : Outlets) : Except LogError Unit × Outlets :=
  router.flush (fun endpoint => flush endpoint.sink) outlets

end Outlets

end Logbook
