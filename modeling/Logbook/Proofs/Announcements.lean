import Logbook.Proofs.Frames
import Mathlib.Data.List.Basic

/-!
# Announcements

What loggers announce in a run: the records that they hand over, the failures that they report and
the exits that they take. All of it comes from making records, one attempt each; no other act
announces anything.
-/

namespace Logbook

variable {σ β : Type}

/-! ## Attempts -/

/-- A record on its way: who made it from which settings, the endpoints that it was handed to, and
what the router answered. -/
structure Attempt where
  logger : Nat
  settings : Settings
  entry : Entry
  record : Bytes
  endpoints : List Endpoint
  answer : Except LogError Nat

namespace Attempt

/-- The report of a failure; none when the router has no error to answer. -/
def report? (attempt : Attempt) : Option Bytes :=
  match attempt.answer with
  | .ok _ => none
  | .error error => some (Text.encode (Session.failureReport error))

def exit? (attempt : Attempt) : Option Event :=
  match attempt.entry with
  | .leveled _ => none
  | .fatal => some (.exited attempt.logger attempt.settings.exit fatalExitCode)

def emitted (attempt : Attempt) : List Event :=
  .handed attempt.logger attempt.settings.router attempt.entry.level attempt.record ::
    (attempt.report?.map (.reported attempt.logger attempt.settings.fallback.sink)).toList

def events (attempt : Attempt) : List Event := attempt.emitted ++ attempt.exit?.toList

end Attempt

/-- An event that is no octets in a sink. -/
def Event.announced? : Event → Option Event
  | .gained _ _ => none
  | event => some event

theorem blind_announced? : Blind Event.announced? := fun _ _ => rfl

theorem Attempt.filterMap_announced? (attempt : Attempt) :
    attempt.events.filterMap Event.announced? = attempt.events := by
  unfold events emitted exit?
  cases attempt.report? <;> cases attempt.entry <;> rfl

namespace Outlets

/-- The same sinks on the same host, whatever is in the journals. -/
structure Agrees (outlets other : Outlets) : Prop where
  sinks : outlets.sinks = other.sinks
  host : outlets.host = other.host

namespace Agrees

theorem refl (outlets : Outlets) : Agrees outlets outlets := ⟨rfl, rfl⟩

theorem trans {first second third : Outlets} (h : Agrees first second) (h' : Agrees second third) :
    Agrees first third := ⟨h.sinks.trans h'.sinks, h.host.trans h'.host⟩

theorem note (outlets : Outlets) (event : Event) : Agrees (outlets.note event) outlets := ⟨rfl, rfl⟩

/-- Outlets that agree answer a write alike, and agree after it. -/
theorem write {outlets other : Outlets} (h : Agrees outlets other) (index : Nat) (data : Bytes) :
    (Outlets.write index data outlets).1 = (Outlets.write index data other).1 ∧
      Agrees (Outlets.write index data outlets).2 (Outlets.write index data other).2 := by
  obtain ⟨host, sinks, journal⟩ := outlets
  obtain ⟨host', sinks', journal'⟩ := other
  obtain ⟨rfl, rfl⟩ : sinks = sinks' ∧ host = host' := ⟨h.sinks, h.host⟩
  unfold Outlets.write sink?
  dsimp only
  split
  · exact ⟨rfl, rfl, rfl⟩
  · refine ⟨rfl, ?_⟩
    split
    · exact ⟨rfl, rfl⟩
    · exact ⟨rfl, rfl⟩

theorem each {outlets other : Outlets} (h : Agrees outlets other) (endpoints : List Endpoint)
    (data : Bytes) :
    let send (endpoint : Endpoint) := Outlets.write endpoint.sink data
    (Router.each send endpoints outlets).1 = (Router.each send endpoints other).1 ∧
      Agrees (Router.each send endpoints outlets).2 (Router.each send endpoints other).2 := by
  induction endpoints generalizing outlets other with
  | nil => exact ⟨rfl, h⟩
  | cons endpoint rest ih =>
      obtain ⟨hanswer, hafter⟩ := h.write endpoint.sink data
      obtain ⟨hanswers, hrest⟩ := ih hafter
      exact ⟨List.cons_eq_cons.2 ⟨hanswer, hanswers⟩, hrest⟩

theorem writeRouter {outlets other : Outlets} (h : Agrees outlets other) (router : Router)
    (level : Level) (data : Bytes) :
    (Outlets.writeRouter router level data outlets).1 =
        (Outlets.writeRouter router level data other).1 ∧
      Agrees (Outlets.writeRouter router level data outlets).2
        (Outlets.writeRouter router level data other).2 := by
  unfold Outlets.writeRouter Router.write
  split
  · exact ⟨rfl, h⟩
  · rename_i endpoints _
    obtain ⟨hanswers, hafter⟩ := h.each endpoints data
    exact ⟨congrArg Router.settleCounts hanswers, hafter⟩

end Agrees

end Outlets

namespace Session

/-- What becomes of the record that a logger makes from some settings. -/
def attempted (session : Session σ) (logger : Nat) (settings : Settings) (entry : Entry)
    (site : Option CallSite) (instant : Time.Instant) (message : Text) : Attempt :=
  let router := session.router settings.router
  let record := Text.encode (session.record settings ⟨entry.level, site, instant⟩ message)
  { logger, settings, entry, record, endpoints := router.endpoints entry.level
    answer := (Outlets.writeRouter router entry.level record session.outlets).1 }

/-- The attempt of an act: making a record is one when the logger is there. -/
def attempt? (session : Session σ) : Act σ → Option Attempt
  | .make logger entry site instant message =>
      (session.loggers.settings? logger).map fun settings =>
        session.attempted logger settings entry site instant message
  | _ => none

def attempts : Session σ → List (Act σ) → List Attempt
  | _, [] => []
  | session, act :: rest => (session.attempt? act).toList ++ attempts (session.perform act) rest

theorem attempts_append (session : Session σ) (first second : List (Act σ)) :
    session.attempts (first ++ second) =
      session.attempts first ++ (session.performAll first).attempts second := by
  induction first generalizing session with
  | nil => rfl
  | cons act rest ih =>
      rw [List.cons_append, attempts, attempts, ih, List.append_assoc]
      rfl

/-- Handing a record over is writing it to the router, between the same sinks. -/
theorem handOver_eq (session : Session σ) (logger : Nat) (settings : Settings) (context : Context)
    (message : Text) :
    let record := Text.encode (session.record settings context message)
    let router := session.router settings.router
    (session.handOver logger settings context message).1 =
        (Outlets.writeRouter router context.level record session.outlets).1 ∧
      (session.handOver logger settings context message).2.outlets.Agrees
        (Outlets.writeRouter router context.level record session.outlets).2 := by
  unfold handOver
  obtain ⟨formatters, desk, h⟩ :=
    session.render_frame settings.formatter context settings.prefixText
  rw [h]
  exact (Outlets.Agrees.note session.outlets _).writeRouter _ _ _

/-! ## What views see of acts -/

variable {view : Event → Option β}

theorem seen_flushRouter (session : Session σ) (router : Nat) :
    (session.flushRouter router).2.seen view = session.seen view := by
  apply Router.flush_preserves (p := fun later => Outlets.seen view later = session.seen view) _ rfl
  intro endpoint later h
  rw [← h]
  unfold Outlets.flush
  split <;> rfl

theorem seen_runSink (blind : Blind view) (session : Session σ) (command : SinkCommand) :
    (session.runSink command).2.seen view = session.seen view := by
  have hwith := @withSink_cases _ (fun after => after.seen view = session.seen view) session rfl
  cases command with
  | make handle plan =>
      cases plan with
      | file path =>
          simp only [runSink, makeSink]
          split <;> rfl
      | _ => rfl
  | write handle data =>
      exact hwith fun index _ _ _ => Outlets.seen_write blind index data session.outlets
  | flush handle =>
      refine hwith fun index _ _ _ => ?_
      simp only [flushSink, Outlets.flush]
      split <;> rfl
  | name handle => exact hwith fun _ _ _ _ => rfl
  | drop handle => exact hwith fun _ _ _ _ => rfl
  | read handle => exact hwith fun _ _ _ _ => rfl
  | drain handle =>
      refine hwith fun index sink _ _ => ?_
      cases sink <;> rfl
  | fileContents path =>
      simp only [runSink]
      split <;> rfl
  | makeDirectory path =>
      simp only [runSink]
      split <;> rfl

theorem seen_runRouter (blind : Blind view) (session : Session σ) (command : RouterCommand) :
    (session.runRouter command).2.seen view = session.seen view := by
  have hwith := @withRouter_cases _ (fun after => after.seen view = session.seen view) session rfl
  have hmade := @withSink_cases _ (fun after => after.seen view = session.seen view) session rfl
  cases command with
  | make handle source =>
      cases source with
      | nothing => rfl
      | shared sink => exact hmade fun _ _ _ _ => rfl
      | wrapped sink => exact hmade fun _ _ _ _ => rfl
  | route handle level sinks =>
      refine hwith fun index _ => ?_
      split <;> rfl
  | write handle level data =>
      exact hwith fun index _ => Outlets.seen_writeRouter blind _ level data session.outlets
  | flush handle => exact hwith fun index _ => session.seen_flushRouter index
  | describe handle => exact hwith fun _ _ => rfl

theorem seen_runLogger (session : Session σ) (command : LoggerCommand) :
    (session.runLogger command).2.seen view = session.seen view := by
  obtain ⟨grown, loggers, hgrown, h⟩ | ⟨router, h⟩ := session.runLogger_frame command
  · rw [h]
    obtain ⟨count, hcount⟩ := hgrown.outlets
    simp only [seen, Outlets.seen, hcount]
  · rw [h, seen_flushRouter]

theorem seen_exit (view : Event → Option β) (session : Session σ) (logger : Nat) :
    (session.exit logger).seen view =
      session.seen view ++ ((session.loggers.settings? logger).bind fun settings =>
        view (.exited logger settings.exit fatalExitCode)).toList := by
  unfold exit
  cases session.loggers.settings? logger with
  | none => exact (List.append_nil _).symm
  | some settings => exact Outlets.seen_note view session.outlets _

/-- A record shows in the journal as it is handed over, and as a report if the router fails. -/
theorem seen_emit (blind : Blind view) {session : Session σ} {logger : Nat} {settings : Settings}
    (h : session.loggers.settings? logger = some settings) (entry : Entry)
    (site : Option CallSite) (instant : Time.Instant) (message : Text) :
    (session.emit logger ⟨entry.level, site, instant⟩ message).seen view =
      session.seen view ++
        (session.attempted logger settings entry site instant message).emitted.filterMap view := by
  have hover := seen_handOver blind session logger settings ⟨entry.level, site, instant⟩ message
  obtain ⟨hanswer, -⟩ := session.handOver_eq logger settings ⟨entry.level, site, instant⟩ message
  rw [emit_eq h]
  cases hw : session.handOver logger settings ⟨entry.level, site, instant⟩ message with
  | mk answer after =>
      rw [hw] at hover hanswer
      simp only [attempted, Attempt.emitted, Attempt.report?, ← hanswer,
        List.filterMap_eq_flatMap_toList, List.flatMap_cons]
      cases answer with
      | ok count => simpa using hover
      | error error => simp [seen_report blind, hover]

theorem seen_deliver (blind : Blind view) (session : Session σ) (logger : Nat) (entry : Entry)
    (site : Option CallSite) (instant : Time.Instant) (message : Text) :
    (session.deliver logger entry site instant message).seen view =
      session.seen view ++
        (session.attempt? (.make logger entry site instant message)).toList.flatMap fun attempt =>
          attempt.events.filterMap view := by
  cases hs : session.loggers.settings? logger with
  | none => cases entry <;> simp [deliver, emit_of_none hs, attempt?, hs, seen_exit]
  | some settings =>
      have hemit := seen_emit blind hs entry site instant message
      simp only [attempt?, hs, Option.map_some, Option.toList_some, List.flatMap_singleton,
        Attempt.events, List.filterMap_append, ← List.append_assoc, ← hemit]
      cases entry with
      | leveled level => exact (List.append_nil _).symm
      | fatal =>
          obtain ⟨outlets, hframe⟩ := session.emit_rendered logger ⟨.fatal, site, instant⟩ message
          obtain ⟨formatters, desk, hrendered⟩ :=
            session.rendered_frame logger ⟨.fatal, site, instant⟩
          have hafter : (session.emit logger ⟨.fatal, site, instant⟩ message).loggers.settings?
              logger = some settings := by
            rw [hframe, hrendered]
            exact hs
          simp only [deliver, seen_exit, Entry.level, hafter, Option.bind_some]
          simp [Attempt.exit?, attempted, List.filterMap_eq_flatMap_toList]

theorem seen_perform (blind : Blind view) (session : Session σ) (act : Act σ) :
    (session.perform act).seen view =
      session.seen view ++
        (session.attempt? act).toList.flatMap fun attempt => attempt.events.filterMap view := by
  have hnone : session.seen view = session.seen view ++ [] := (List.append_nil _).symm
  cases act with
  | sink command =>
      exact (seen_release _ _).trans ((seen_runSink blind session command).trans hnone)
  | router command =>
      exact (seen_release _ _).trans ((seen_runRouter blind session command).trans hnone)
  | format command =>
      obtain ⟨formatters, formatterHandles, desk, h⟩ := session.runFormat_frame command
      rw [perform, seen_release, h]
      exact hnone
  | memo command =>
      obtain ⟨desk, h⟩ := session.runMemo_frame command
      rw [perform, seen_release, h]
      exact hnone
  | logger command => exact (seen_release _ _).trans ((session.seen_runLogger command).trans hnone)
  | enter handle =>
      rw [perform]
      split <;> exact hnone
  | make logger entry site instant message =>
      rw [perform, seen_release, seen_leave]
      exact seen_deliver blind session logger entry site instant message

/-- A run shows in the journal as the events of its attempts, one after the other. -/
theorem seen_performAll (blind : Blind view) (session : Session σ) (acts : List (Act σ)) :
    (session.performAll acts).seen view =
      session.seen view ++
        (session.attempts acts).flatMap fun attempt => attempt.events.filterMap view := by
  induction acts generalizing session with
  | nil => exact (List.append_nil _).symm
  | cons act rest ih =>
      rw [performAll, List.foldl_cons, ← performAll, ih, seen_perform blind, attempts,
        List.flatMap_append, List.append_assoc]

end Session

end Logbook
