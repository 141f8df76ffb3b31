import Logbook.Proofs.FailureReports

/-!
# Uses of sinks

Whatever is done in a session, it comes down to single uses of single sinks, one after the other:
sinks are made, written, flushed, drained and closed. What holds of every list of uses therefore
holds of every run of a session, whichever handles, routers and loggers lead to the sinks.
-/

namespace Logbook

variable {σ : Type}

/-- What can be done with sinks, which are known by their place in the list. A sink is closed when
nothing holds it any more. -/
inductive Use where
  | make (plan : SinkPlan)
  | makeDirectory (path : Text)
  | write (sink : Nat) (data : Bytes)
  | flush (sink : Nat)
  | drain (sink : Nat)
  | close (sink : Nat)
  deriving DecidableEq, Repr

namespace Outlets

def openFile (outlets : Outlets) (path : Text) : Outlets :=
  match FileSink.openAt path outlets.host.disk with
  | .error _ => outlets
  | .ok (opened, disk) =>
      { outlets with host := { outlets.host with disk } }.add (.file opened)

def make (outlets : Outlets) : SinkPlan → Outlets
  | .memory => outlets.add (.memory {})
  | .tally count => outlets.add (.tally count)
  | .stream name channel => outlets.add (.stream name channel)
  | .file path => outlets.openFile path
  | .console target => outlets.add (.console target)
  | .plain => outlets.add .plain

def drain (outlets : Outlets) (index : Nat) : Outlets :=
  match outlets.sink? index with
  | some (.memory memory) => outlets.set index (.memory memory.drain.2)
  | _ => outlets

def use (outlets : Outlets) : Use → Outlets
  | .make plan => outlets.make plan
  | .makeDirectory path =>
      { outlets with
        host := { outlets.host with disk := (outlets.host.disk.makeDirectories path).2 } }
  | .write index data => (write index data outlets).2
  | .flush index => (flush index outlets).2
  | .drain index => outlets.drain index
  | .close index => outlets.close index

def useAll (outlets : Outlets) (uses : List Use) : Outlets := uses.foldl use outlets

theorem useAll_append (outlets : Outlets) (first second : List Use) :
    outlets.useAll (first ++ second) = (outlets.useAll first).useAll second :=
  List.foldl_append

/-! ## Several uses at once -/

theorem writeAll_eq (outlets : Outlets) (list : List (Nat × Bytes)) :
    outlets.writeAll list = outlets.useAll (list.map fun item => .write item.1 item.2) := by
  rw [writeAll, useAll, List.foldl_map]
  rfl

theorem closeAll_eq (outlets : Outlets) (indices : List Nat) :
    outlets.closeAll indices = outlets.useAll (indices.map .close) := by
  rw [closeAll, useAll, List.foldl_map]
  rfl

theorem snd_flushRouter (router : Router) (outlets : Outlets) :
    (flushRouter router outlets).2 =
      outlets.useAll ((router.endpointsAlong Level.all).map fun endpoint =>
        .flush endpoint.sink) := by
  have heach : ∀ (endpoints : List Endpoint) (outlets : Outlets),
      (Router.each (fun endpoint => flush endpoint.sink) endpoints outlets).2 =
        outlets.useAll (endpoints.map fun endpoint => .flush endpoint.sink) := by
    intro endpoints
    induction endpoints with
    | nil => exact fun _ => rfl
    | cons endpoint rest ih => exact fun outlets => ih (flush endpoint.sink outlets).2
  exact heach (router.endpointsAlong Level.all) outlets

theorem useAll_consoles (outlets : Outlets) (count : Nat) :
    outlets.useAll (List.replicate count (.make (.console .stderr))) =
      { outlets with sinks := outlets.sinks ++ List.replicate count (.console .stderr) } := by
  induction count generalizing outlets with
  | zero => simp [useAll]
  | succ count ih =>
      rw [List.replicate_succ, useAll, List.foldl_cons, ← useAll, ih]
      simp [use, make, add, List.replicate_succ]

/-! ## Uses and journals -/

theorem Agrees.use {outlets other : Outlets} (h : Agrees outlets other) (use : Use) :
    Agrees (outlets.use use) (other.use use) := by
  obtain ⟨host, sinks, journal⟩ := outlets
  obtain ⟨host', sinks', journal'⟩ := other
  obtain ⟨rfl, rfl⟩ : sinks = sinks' ∧ host = host' := ⟨h.sinks, h.host⟩
  cases use with
  | make plan =>
      cases plan with
      | file path =>
          simp only [Outlets.use, make, openFile]
          split <;> exact ⟨rfl, rfl⟩
      | _ => exact ⟨rfl, rfl⟩
  | makeDirectory path => exact ⟨rfl, rfl⟩
  | write index data => exact (h.write index data).2
  | flush index =>
      simp only [Outlets.use, flush, sink?]
      split <;> exact ⟨rfl, rfl⟩
  | drain index =>
      simp only [Outlets.use, drain, sink?]
      split <;> exact ⟨rfl, rfl⟩
  | close index =>
      simp only [Outlets.use, close, sink?]
      split <;> exact ⟨rfl, rfl⟩

theorem Agrees.useAll {outlets other : Outlets} (h : Agrees outlets other) (uses : List Use) :
    Agrees (outlets.useAll uses) (other.useAll uses) := by
  induction uses generalizing outlets other with
  | nil => exact h
  | cons use rest ih => exact ih (h.use use)

end Outlets

namespace Session

/-! ## What acts use -/

def useOf (session : Session σ) (handle : String) (use : Nat → Use) : List Use :=
  (session.sinkHandles.find? handle).toList.map use

def sinkUses (session : Session σ) : SinkCommand → List Use
  | .make _ plan => [.make plan]
  | .write handle data => session.useOf handle (.write · data)
  | .flush handle => session.useOf handle .flush
  | .drain handle => session.useOf handle .drain
  | .makeDirectory path => [.makeDirectory path]
  | _ => []

def routerFlushes (session : Session σ) (index : Nat) : List Use :=
  ((session.router index).endpointsAlong Level.all).map fun endpoint => .flush endpoint.sink

def routerUses (session : Session σ) : RouterCommand → List Use
  | .write handle level data =>
      (session.routerHandles.find? handle).toList.flatMap fun index =>
        ((session.router index).endpoints level).map fun endpoint => .write endpoint.sink data
  | .flush handle =>
      (session.routerHandles.find? handle).toList.flatMap session.routerFlushes
  | _ => []

/-- A logger is made with consoles for what its plan leaves open. -/
def loggerUses (session : Session σ) : LoggerCommand → List Use
  | .make handle plan =>
      let made := (session.makeLogger handle plan).2.outlets.sinks.length
      List.replicate (made - session.outlets.sinks.length) (.make (.console .stderr))
  | .flush handle =>
      ((session.loggers.find? handle).bind session.loggers.settings?).toList.flatMap
        fun settings => session.routerFlushes settings.router
  | _ => []

/-- What an act does with sinks, up to those that it gives up. -/
def doings (session : Session σ) : Act σ → List Use
  | .sink command => session.sinkUses command
  | .router command => session.routerUses command
  | .logger command => session.loggerUses command
  | .make logger entry site instant message =>
      ((session.attempt? (.make logger entry site instant message)).toList.flatMap
        Attempt.writes).map fun item => .write item.1 item.2
  | _ => []

/-- The session after an act, before it closes the sinks that the act has given up. -/
def acted (session : Session σ) : Act σ → Session σ
  | .sink command => (session.runSink command).2
  | .router command => (session.runRouter command).2
  | .format command => (session.runFormat command).2
  | .memo command => (session.runMemo command).2
  | .logger command => (session.runLogger command).2
  | .enter handle => session.perform (.enter handle)
  | .make logger entry site instant message =>
      (session.deliver logger entry site instant message).leave

/-- All that an act does with sinks. At last it closes those that nothing holds any more; entering
a logger gives up nothing. -/
def uses (session : Session σ) : Act σ → List Use
  | .enter _ => []
  | act => session.doings act ++ (session.abandoned (session.acted act)).map .close

def usesAll : Session σ → List (Act σ) → List Use
  | _, [] => []
  | session, act :: rest => session.uses act ++ usesAll (session.perform act) rest

/-! ## Acts are their uses -/

/-- What is done with the sink that a handle names is one use of it. -/
theorem withSink_eq {session : Session σ} {handle : String} {act : Nat → Sink → Result σ}
    {use : Nat → Use}
    (hact : ∀ index sink, session.outlets.sink? index = some sink →
      (act index sink).2.outlets = session.outlets.use (use index))
    (hnone : ∀ index, session.outlets.sink? index = none →
      session.outlets.use (use index) = session.outlets) :
    (session.withSink handle act).2.outlets =
      session.outlets.useAll (session.useOf handle use) := by
  unfold withSink useOf
  cases session.sinkHandles.find? handle with
  | none => rfl
  | some index =>
      dsimp only
      cases hs : session.outlets.sink? index with
      | none => exact (hnone index hs).symm
      | some sink => exact hact index sink hs

theorem withRouter_eq {session : Session σ} {handle : String} {act : Nat → Result σ}
    {uses : Nat → List Use}
    (h : ∀ index, (act index).2.outlets = session.outlets.useAll (uses index)) :
    (session.withRouter handle act).2.outlets =
      session.outlets.useAll ((session.routerHandles.find? handle).toList.flatMap uses) := by
  unfold withRouter
  cases session.routerHandles.find? handle with
  | none => rfl
  | some index =>
      rw [Option.toList_some, List.flatMap_singleton]
      exact h index

theorem runSink_eq (session : Session σ) (command : SinkCommand) :
    (session.runSink command).2.outlets = session.outlets.useAll (session.sinkUses command) := by
  have hlooked := @withSink_cases _ (fun after => after.outlets = session.outlets) session rfl
  cases command with
  | make handle plan =>
      cases plan with
      | file path =>
          simp only [runSink, makeSink, sinkUses, Outlets.useAll, List.foldl_cons, List.foldl_nil,
            Outlets.use, Outlets.make, Outlets.openFile]
          cases FileSink.openAt path session.outlets.host.disk <;> rfl
      | _ => rfl
  | write handle data =>
      refine withSink_eq (fun index sink _ => rfl) fun index hs => ?_
      simp only [Outlets.use, Outlets.write, hs]
  | flush handle =>
      refine withSink_eq (fun index sink _ => rfl) fun index hs => ?_
      simp only [Outlets.use, Outlets.flush, hs]
  | name handle => exact hlooked fun index sink _ _ => rfl
  | drop handle => exact hlooked fun index sink _ _ => rfl
  | read handle => exact hlooked fun index sink _ _ => rfl
  | drain handle =>
      refine withSink_eq (fun index sink hs => ?_) fun index hs => ?_
      · simp only [Outlets.use, Outlets.drain, hs]
        cases sink <;> rfl
      · simp only [Outlets.use, Outlets.drain, hs]
  | fileContents path =>
      simp only [runSink]
      split <;> rfl
  | makeDirectory path =>
      simp only [runSink]
      split <;> rfl

theorem runRouter_eq (session : Session σ) (command : RouterCommand) :
    (session.runRouter command).2.outlets =
      session.outlets.useAll (session.routerUses command) := by
  have hlooked := @withRouter_cases _ (fun after => after.outlets = session.outlets) session rfl
  have hmade := @withSink_cases _ (fun after => after.outlets = session.outlets) session rfl
  cases command with
  | make handle source =>
      cases source with
      | nothing => rfl
      | shared sink => exact hmade fun index found _ _ => rfl
      | wrapped sink => exact hmade fun index found _ _ => rfl
  | route handle level sinks =>
      refine hlooked fun index _ => ?_
      split <;> rfl
  | write handle level data =>
      refine withRouter_eq fun index => ?_
      refine (Outlets.snd_writeRouter _ level data session.outlets).trans ?_
      rw [Outlets.writeAll_eq, List.map_map]
      rfl
  | flush handle =>
      exact withRouter_eq fun index =>
        Outlets.snd_flushRouter (session.router index) session.outlets
  | describe handle => exact hlooked fun index _ => rfl

theorem flushLogger_eq (session : Session σ) (handle : String) :
    (session.runLogger (.flush handle)).2.outlets =
      session.outlets.useAll (session.loggerUses (.flush handle)) := by
  simp only [runLogger, withLogger, loggerUses]
  cases session.loggers.find? handle with
  | none => rfl
  | some index =>
      simp only [Option.bind_some]
      cases session.loggers.settings? index with
      | none => rfl
      | some settings =>
          rw [Option.toList_some, List.flatMap_singleton]
          exact Outlets.snd_flushRouter (session.router settings.router) session.outlets

theorem runLogger_eq (session : Session σ) (command : LoggerCommand) :
    (session.runLogger command).2.outlets =
      session.outlets.useAll (session.loggerUses command) := by
  have hwith := @withLogger_cases _ (fun after => after.outlets = session.outlets) session rfl
  cases command with
  | make handle plan =>
      obtain ⟨grown, loggers, hgrown, h⟩ := session.makeLogger_frame handle plan
      obtain ⟨count, hcount⟩ := hgrown.outlets
      simp only [runLogger, loggerUses, h, hcount, List.length_append, List.length_replicate,
        Nat.add_sub_cancel_left, Outlets.useAll_consoles]
  | flush handle => exact session.flushLogger_eq handle
  | describe handle =>
      refine hwith fun index => ?_
      unfold describeLoggerAt
      split <;> rfl
  | branch handle parent prefixText =>
      refine hwith fun index => ?_
      split <;> rfl
  | share handle source => exact hwith fun index => rfl
  | drop handle => exact hwith fun index => rfl
  | setLevel handle level => exact hwith fun index => rfl
  | setPrefix handle prefixText => exact hwith fun index => rfl
  | setIndent handle indent => exact hwith fun index => rfl
  | setTemplate handle template => exact hwith fun index => rfl
  | setFormatter handle formatter =>
      refine hwith fun index => ?_
      split <;> rfl
  | setSink handle sink =>
      refine hwith fun index => ?_
      split <;> rfl
  | setRouter handle router =>
      refine hwith fun index => ?_
      split <;> rfl
  | setFallback handle sink =>
      refine hwith fun index => ?_
      split <;> rfl
  | setExit handle action => exact hwith fun index => rfl

/-- What an act does to the sinks is what its uses do, up to the journal. -/
theorem agrees_perform (session : Session σ) (act : Act σ) :
    (session.perform act).outlets.Agrees (session.outlets.useAll (session.uses act)) := by
  have hreleased : ∀ {after : Session σ} {doings : List Use},
      after.outlets.Agrees (session.outlets.useAll doings) →
      (session.release after).outlets.Agrees
        (session.outlets.useAll (doings ++ (session.abandoned after).map .close)) := by
    intro after doings h
    rw [Outlets.useAll_append]
    simp only [release, Outlets.closeAll_eq]
    exact h.useAll _
  have hsame : ∀ {after : Session σ}, after.outlets = session.outlets →
      after.outlets.Agrees (session.outlets.useAll []) := by
    intro after h
    rw [h]
    exact .refl _
  cases act with
  | sink command =>
      refine hreleased ?_
      rw [session.runSink_eq command]
      exact .refl _
  | router command =>
      refine hreleased ?_
      rw [session.runRouter_eq command]
      exact .refl _
  | format command =>
      obtain ⟨formatters, formatterHandles, desk, h⟩ := session.runFormat_frame command
      exact hreleased (hsame (by rw [h]))
  | memo command =>
      obtain ⟨desk, h⟩ := session.runMemo_frame command
      exact hreleased (hsame (by rw [h]))
  | logger command =>
      refine hreleased ?_
      rw [session.runLogger_eq command]
      exact .refl _
  | enter handle =>
      refine hsame ?_
      simp only [perform]
      split <;> rfl
  | make logger entry site instant message =>
      refine hreleased ?_
      rw [doings, ← Outlets.writeAll_eq]
      exact session.agrees_deliver logger entry site instant message

theorem agrees_performAll (session : Session σ) (acts : List (Act σ)) :
    (session.performAll acts).outlets.Agrees (session.outlets.useAll (session.usesAll acts)) := by
  induction acts generalizing session with
  | nil => exact .refl _
  | cons act rest ih =>
      rw [usesAll, Outlets.useAll_append]
      exact (ih (session.perform act)).trans ((session.agrees_perform act).useAll _)

end Session

end Logbook
