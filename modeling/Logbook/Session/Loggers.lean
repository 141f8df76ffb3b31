import Logbook.Session.Formats

/-!
# Commands about loggers

Making loggers, from a plan or below a parent, and changing what one of them is set to. A change
of a logger's settings is seen by no other logger; only a level goes on to the children that
follow.
-/

namespace Logbook.Session

variable {σ : Type}

def withLogger (session : Session σ) (handle : String) (act : Nat → Result σ) : Result σ :=
  match session.loggers.find? handle with
  | none => session.misused
  | some index => act index

def addConsole (session : Session σ) : Nat × Session σ := session.addSink (.console .stderr)

def addTemplate (session : Session σ) (template : Option Text) : Nat × Session σ :=
  session.addFormatter (.format (makeFormat template none))

def addWrapped (session : Session σ) (sink : Nat) : Nat × Session σ :=
  let (endpoint, session) := session.wrap sink
  session.addRouter (.toAll endpoint)

/-- The formatter of a plan: one by name, or one for its template. -/
def planFormatter (session : Session σ) (plan : Plan) (start : Plan.Start) :
    Option (Nat × Session σ) :=
  match plan.formatter with
  | some handle => (session.formatterHandles.find? handle).map fun found => (found.index, session)
  | none => some (session.addTemplate (plan.template <|> start.template))

/-- The router of a plan: one by name, one to its sink, or one to the console. -/
def planRouter (session : Session σ) (plan : Plan) : Option (Nat × Session σ) :=
  match plan.router with
  | some handle => (session.routerHandles.find? handle).map (·, session)
  | none =>
      match plan.sink with
      | some handle => (session.sinkHandles.find? handle).map session.addWrapped
      | none =>
          let (sink, session) := session.addConsole
          some (session.addRouter (.toAll ⟨sink, none⟩))

/-- The fallback of a plan: a new wrapper of its sink, or the console. -/
def planFallback (session : Session σ) (plan : Plan) : Option (Endpoint × Session σ) :=
  match plan.fallback with
  | some handle => (session.sinkHandles.find? handle).map session.wrap
  | none =>
      let (sink, session) := session.addConsole
      some (⟨sink, none⟩, session)

/-- Makes a logger as planned. A plan that cannot be carried out changes nothing. -/
def makeLogger (session : Session σ) (handle : String) (plan : Plan) : Result σ :=
  match plan.start with
  | .error (.unread fault) => (.error (.unread fault), session)
  | .error (.invalid cause) => (.error (.error cause), session)
  | .ok start =>
      let made : Option (Session σ) := do
        let (formatter, session) ← session.planFormatter plan start
        let (router, session) ← session.planRouter plan
        let (fallback, session) ← session.planFallback plan
        let settings : Settings :=
          { formatter, router, prefixText := plan.prefixText.getD start.prefixText,
            indent := plan.indent start, exit := plan.exit, fallback }
        let level := plan.level.getD start.level
        return { session with loggers := session.loggers.plant handle level settings }
      match made with
      | some session => session.done
      | none => session.misused

/-- Makes a child, which takes over all settings of its parent but the prefix. -/
def branchLogger (session : Session σ) (handle parent : String) (prefixText : Option Text) :
    Result σ :=
  session.withLogger parent fun index =>
    match session.loggers.settings? index with
    | none => session.misused
    | some settings =>
        let settings := { settings with prefixText := prefixText.getD [] }
        { session with loggers := session.loggers.branch handle index settings }.done

def changeSettings (session : Session σ) (index : Nat) (change : Settings → Settings) :
    Session σ :=
  { session with loggers := session.loggers.modifySettings index change }

def describeLoggerAt (session : Session σ) (index : Nat) : Result σ :=
  match session.loggers.instance? index with
  | none => session.misused
  | some logger =>
      let settings := logger.settings
      (.ok (.logger logger.level settings.prefixText settings.indent.describe
        (describeLogger logger.level settings.prefixText settings.indent logger.children.length)
        (Level.all.map logger.level.allows)), session)

def runLogger (session : Session σ) : LoggerCommand → Result σ
  | .make handle plan => session.makeLogger handle plan
  | .branch handle parent prefixText => session.branchLogger handle parent prefixText
  | .share handle source =>
      session.withLogger source fun index =>
        { session with loggers := session.loggers.share handle index }.done
  | .drop handle =>
      session.withLogger handle fun _ =>
        { session with loggers := session.loggers.drop handle }.done
  | .describe handle => session.withLogger handle session.describeLoggerAt
  | .setLevel handle level =>
      session.withLogger handle fun index =>
        { session with loggers := session.loggers.setLevel index level }.done
  | .setPrefix handle prefixText =>
      session.withLogger handle fun index =>
        (session.changeSettings index ({ · with prefixText })).done
  | .setIndent handle indent =>
      session.withLogger handle fun index =>
        (session.changeSettings index ({ · with indent })).done
  | .setTemplate handle template =>
      session.withLogger handle fun index =>
        let (formatter, session) := session.addTemplate (some template)
        (session.changeSettings index ({ · with formatter })).done
  | .setFormatter handle formatter =>
      session.withLogger handle fun index =>
        match session.formatterHandles.find? formatter with
        | none => session.misused
        | some found => (session.changeSettings index ({ · with formatter := found.index })).done
  | .setSink handle sink =>
      session.withLogger handle fun index =>
        match session.sinkHandles.find? sink with
        | none => session.misused
        | some sink =>
            let (router, session) := session.addWrapped sink
            (session.changeSettings index ({ · with router })).done
  | .setRouter handle router =>
      session.withLogger handle fun index =>
        match session.routerHandles.find? router with
        | none => session.misused
        | some router => (session.changeSettings index ({ · with router })).done
  | .setFallback handle sink =>
      session.withLogger handle fun index =>
        match session.sinkHandles.find? sink with
        | none => session.misused
        | some sink =>
            let (fallback, session) := session.wrap sink
            (session.changeSettings index ({ · with fallback })).done
  | .setExit handle action =>
      session.withLogger handle fun index =>
        (session.changeSettings index ({ · with exit := action })).done
  | .flush handle =>
      session.withLogger handle fun index =>
        match session.loggers.settings? index with
        | none => session.misused
        | some settings =>
            let (result, session) := session.flushRouter settings.router
            (flushAnswer result, session)

end Logbook.Session
