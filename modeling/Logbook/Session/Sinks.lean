import Logbook.Session.Command

/-!
# Commands about sinks and routers
-/

namespace Logbook.Session

variable {σ : Type}

def misused (session : Session σ) : Result σ := (.error .misuse, session)

def done (session : Session σ) : Result σ := (.ok .done, session)

def countAnswer : Except LogError Nat → Except Failure Answer
  | .ok count => .ok (.count count)
  | .error cause => .error (.error cause)

def flushAnswer : Except LogError Unit → Except Failure Answer
  | .ok () => .ok .done
  | .error cause => .error (.error cause)

def withSink (session : Session σ) (handle : String) (act : Nat → Sink → Result σ) : Result σ :=
  match session.sinkHandles.find? handle with
  | none => session.misused
  | some index =>
      match session.outlets.sink? index with
      | none => session.misused
      | some sink => act index sink

def nameSink (session : Session σ) (handle : String) (sink : Sink) : Session σ :=
  let (index, session) := session.addSink sink
  { session with sinkHandles := session.sinkHandles.insert handle index }

def makeSink (session : Session σ) (handle : String) : SinkPlan → Result σ
  | .memory => (session.nameSink handle (.memory {})).done
  | .tally tally => (session.nameSink handle (.tally tally)).done
  | .stream name channel => (session.nameSink handle (.stream name channel)).done
  | .console target => (session.nameSink handle (.console target)).done
  | .plain => (session.nameSink handle .plain).done
  | .file path =>
      match FileSink.openAt path session.outlets.host.disk with
      | .error cause => (.error (.error cause), session)
      | .ok (opened, disk) =>
          let host := { session.outlets.host with disk }
          let session := { session with outlets := { session.outlets with host } }
          (session.nameSink handle (.file opened)).done

def readSink : Sink → Answer
  | .memory memory => .memory memory.contents memory.bytes memory.lines memory.isEmpty
  | .tally tally => .tally tally.writes tally.flushes
  | sink => .bytes sink.kept

def runSink (session : Session σ) : SinkCommand → Result σ
  | .make handle plan => session.makeSink handle plan
  | .write handle data =>
      session.withSink handle fun index _ =>
        let (result, session) := session.writeSink index data
        (countAnswer result, session)
  | .flush handle =>
      session.withSink handle fun index _ =>
        let (result, session) := session.flushSink index
        (flushAnswer result, session)
  | .name handle => session.withSink handle fun _ sink => (.ok (.text sink.name), session)
  | .drop handle =>
      session.withSink handle fun _ _ =>
        { session with sinkHandles := session.sinkHandles.erase handle }.done
  | .read handle => session.withSink handle fun _ sink => (.ok (readSink sink), session)
  | .drain handle =>
      session.withSink handle fun index sink =>
        match sink with
        | .memory memory =>
            let (text, memory) := memory.drain
            (.ok (.text text),
              { session with outlets := session.outlets.set index (.memory memory) })
        | _ => session.misused
  | .fileContents path =>
      match session.outlets.host.disk.read? path with
      | some bytes => (.ok (.text (Text.decode bytes)), session)
      | none => (.error .noFile, session)
  | .makeDirectory path =>
      let host := session.outlets.host
      let (made, disk) := host.disk.makeDirectories path
      let session := { session with outlets := { session.outlets with host := { host with disk } } }
      if made then session.done else session.misused

/-! ## Routers -/

def withRouter (session : Session σ) (handle : String) (act : Nat → Result σ) : Result σ :=
  match session.routerHandles.find? handle with
  | none => session.misused
  | some index => act index

def nameRouter (session : Session σ) (handle : String) (router : Router) : Session σ :=
  let (index, session) := session.addRouter router
  { session with routerHandles := session.routerHandles.insert handle index }

/-- The sinks behind handles, each as itself; nothing when a handle names none. -/
def ownEndpoints? (session : Session σ) : List String → Option (List Endpoint)
  | [] => some []
  | handle :: rest => do
      let sink ← session.sinkHandles.find? handle
      let more ← session.ownEndpoints? rest
      return ⟨sink, none⟩ :: more

def makeRouter (session : Session σ) (handle : String) : RouterSource → Result σ
  | .nothing => (session.nameRouter handle Router.empty).done
  | .shared sink =>
      session.withSink sink fun index _ => (session.nameRouter handle (.toAll ⟨index, none⟩)).done
  | .wrapped sink =>
      session.withSink sink fun index _ =>
        let (endpoint, session) := session.wrap index
        (session.nameRouter handle (.toAll endpoint)).done

def runRouter (session : Session σ) : RouterCommand → Result σ
  | .make handle source => session.makeRouter handle source
  | .route handle level sinks =>
      session.withRouter handle fun index =>
        match session.ownEndpoints? sinks with
        | none => session.misused
        | some endpoints =>
            let router := (session.router index).set level endpoints
            (.ok (.counts router.counts),
              { session with routers := session.routers.set index router })
  | .write handle level data =>
      session.withRouter handle fun index =>
        let (result, session) := session.writeRouter index level data
        (countAnswer result, session)
  | .flush handle =>
      session.withRouter handle fun index =>
        let (result, session) := session.flushRouter index
        (flushAnswer result, session)
  | .describe handle =>
      session.withRouter handle fun index =>
        let name (endpoint : Endpoint) := session.outlets.name endpoint.sink
        (.ok (.text ((session.router index).describe name)), session)

end Logbook.Session
