import Logbook.Logger.Forest
import Logbook.Session.Outlets
import Logbook.Text.Utf8

/-!
# Sessions

Everything that a program sets up for logging: sinks, routers, formatters and loggers, each kind
in a list of its own and named by handles, and the desk that all renderings share. A logger that
emits a record renders it, hands it to its router, and reports a failure to its fallback.
-/

namespace Logbook

/-- A name for a formatter; a borrowed one only repeats the formatter of a logger. -/
structure FormatterHandle where
  index : Nat
  borrowed : Bool := false
  deriving DecidableEq, Repr

structure Session (σ : Type) where
  outlets : Outlets := {}
  sinkHandles : Table String Nat := {}
  routers : List Router := []
  routerHandles : Table String Nat := {}
  /-- How many wrappers of sinks have been made. -/
  wrappers : Nat := 0
  formatters : List (Formatter σ) := []
  formatterHandles : Table String FormatterHandle := {}
  loggers : Forest Settings := {}
  desk : Desk σ

/-- How a record is asked for: at a level, which the gate of the logger may stop, or as a fatal
one, which passes every gate and is followed by the exit. -/
inductive Entry where
  | leveled (level : Level)
  | fatal
  deriving DecidableEq, Repr

def Entry.level : Entry → Level
  | .leveled level => level
  | .fatal => .fatal

namespace Session

variable {σ : Type}

def fresh (own : σ) : Session σ := { desk := { own } }

/-! ## Sinks and routers -/

def addSink (session : Session σ) (sink : Sink) : Nat × Session σ :=
  (session.outlets.sinks.length, { session with outlets := session.outlets.add sink })

/-- A new wrapper of a sink. -/
def wrap (session : Session σ) (sink : Nat) : Endpoint × Session σ :=
  (⟨sink, some session.wrappers⟩, { session with wrappers := session.wrappers + 1 })

def addRouter (session : Session σ) (router : Router) : Nat × Session σ :=
  (session.routers.length, { session with routers := session.routers ++ [router] })

/-- The router at a place; a missing one has no routes. -/
def router (session : Session σ) (index : Nat) : Router :=
  (session.routers[index]?).getD Router.empty

def writeSink (session : Session σ) (index : Nat) (data : Bytes) :
    Except LogError Nat × Session σ :=
  let (result, outlets) := Outlets.write index data session.outlets
  (result, { session with outlets })

def flushSink (session : Session σ) (index : Nat) : Except LogError Unit × Session σ :=
  let (result, outlets) := Outlets.flush index session.outlets
  (result, { session with outlets })

def writeRouter (session : Session σ) (index : Nat) (level : Level) (data : Bytes) :
    Except LogError Nat × Session σ :=
  let (result, outlets) := Outlets.writeRouter (session.router index) level data session.outlets
  (result, { session with outlets })

def flushRouter (session : Session σ) (index : Nat) : Except LogError Unit × Session σ :=
  let (result, outlets) := Outlets.flushRouter (session.router index) session.outlets
  (result, { session with outlets })

def note (session : Session σ) (event : Event) : Session σ :=
  { session with outlets := session.outlets.note event }

/-! ## Formatters -/

def addFormatter (session : Session σ) (formatter : Formatter σ) : Nat × Session σ :=
  (session.formatters.length, { session with formatters := session.formatters ++ [formatter] })

/-- Renders with the formatter at a place; a missing one renders nothing. -/
def render (session : Session σ) (index : Nat) (context : Context) (prefixText : Text) :
    Text × Session σ :=
  match session.formatters[index]? with
  | none => ([], session)
  | some formatter =>
      let (text, formatter, desk) := formatter.render context prefixText session.desk
      (text, { session with formatters := session.formatters.set index formatter, desk })

/-! ## Loggers -/

def admits (session : Session σ) (logger : Nat) : Entry → Bool
  | .fatal => true
  | .leveled level =>
      match session.loggers.level? logger with
      | some threshold => threshold.allows level
      | none => false

def failureReport (error : LogError) : Text :=
  "[LOGGER ERROR] failed to write to log: ".toList ++ error.message ++ ['\n']

/-- Renders a record, hands it to the router and reports a failure to the fallback, whose own
failure is not followed up. -/
def emit (session : Session σ) (logger : Nat) (context : Context) (message : Text) :
    Session σ :=
  match session.loggers.settings? logger with
  | none => session
  | some settings =>
      let (rendered, session) := session.render settings.formatter context settings.prefixText
      let record := Text.encode (assemble settings.indent rendered message)
      let session := session.note (.handed logger settings.router context.level record)
      match session.writeRouter settings.router context.level record with
      | (.ok _, session) => session
      | (.error error, session) =>
          let report := Text.encode (failureReport error)
          let session := session.note (.reported logger settings.fallback.sink report)
          (session.writeSink settings.fallback.sink report).2

def exit (session : Session σ) (logger : Nat) : Session σ :=
  match session.loggers.settings? logger with
  | none => session
  | some settings => session.note (.exited logger settings.exit fatalExitCode)

def deliver (session : Session σ) (logger : Nat) (entry : Entry) (site : Option CallSite)
    (instant : Time.Instant) (message : Text) : Session σ :=
  let session := session.emit logger ⟨entry.level, site, instant⟩ message
  match entry with
  | .leveled _ => session
  | .fatal => session.exit logger

/-! ## What is held -/

/-- The routers that a handle or a living logger holds. -/
def heldRouters (session : Session σ) : List Nat :=
  session.routerHandles.values ++
    session.loggers.living.filterMap fun logger =>
      (session.loggers.settings? logger).map Settings.router

/-- The sinks that a handle, a held router or a living logger holds, each as often as it is held.
The sinks of routers stand in the order of their routes and before those that loggers fall back
on, which is the order in which a router or a logger gives them up. -/
def heldSinks (session : Session σ) : List Nat :=
  session.sinkHandles.values ++
    session.heldRouters.flatMap (fun router =>
      Level.all.flatMap fun level => ((session.router router).endpoints level).map Endpoint.sink) ++
    session.loggers.living.filterMap fun logger =>
      (session.loggers.settings? logger).map fun settings => settings.fallback.sink

/-- The sinks that are held before and not after, in the order in which they were given up for the
last time. -/
def abandoned (before after : Session σ) : List Nat :=
  (Router.distinct before.heldSinks.reverse).reverse.filter (· ∉ after.heldSinks)

/-- The later of two states without the sinks that it no longer holds. -/
def release (before after : Session σ) : Session σ :=
  { after with outlets := after.outlets.closeAll (abandoned before after) }

/-- The session while a record of a logger is being made, which keeps the logger alive. -/
def enter (session : Session σ) (logger : Nat) : Session σ :=
  { session with loggers := session.loggers.enter logger }

def leave (session : Session σ) : Session σ := { session with loggers := session.loggers.leave }

end Session

end Logbook
