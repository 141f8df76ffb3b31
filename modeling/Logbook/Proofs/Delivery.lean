import Logbook.Proofs.Frames
import Logbook.Proofs.SparedSinks

/-!
# Delivery

Which records a run brings to a sink. A record that is made is written once for each endpoint that
leads to the sink, whatever the other endpoints answer, and nothing else that a run does touches the
octets of a sink that nobody writes to directly or falls back on.
-/

namespace Logbook

open Outlets (Spares Brings Alone Serves)

variable {σ : Type} {index : Nat}

namespace Session

/-- The record of a message as often as the router of its logger leads it to a sink. -/
def copies (session : Session σ) (index logger : Nat) (context : Context) (message : Text) :
    List Bytes :=
  match session.loggers.settings? logger with
  | none => []
  | some settings =>
      List.replicate
        (((session.router settings.router).endpoints context.level).countP (·.sink = index))
        (Text.encode (session.record settings context message))

/-! ## Making a record -/

theorem brings_handOver (index : Nat) (session : Session σ) (logger : Nat) (settings : Settings)
    (context : Context) (message : Text) :
    Brings index
      (List.replicate
        (((session.router settings.router).endpoints context.level).countP (·.sink = index))
        (Text.encode (session.record settings context message)))
      session.outlets (session.handOver logger settings context message).2.outlets := by
  unfold handOver
  obtain ⟨formatters, desk, h⟩ :=
    session.render_frame settings.formatter context settings.prefixText
  rw [h]
  exact ((Spares.refl session.outlets).note _).then_brings (Outlets.brings_writeRouter _ _ _ _)

theorem spares_report {settings : Settings} (h : settings.fallback.sink ≠ index)
    (session : Session σ) (logger : Nat) (error : LogError) :
    Spares index session.outlets (session.report logger settings error).outlets := by
  exact ((Spares.refl session.outlets).note _).trans (.write h _ _)

theorem brings_emit {session : Session σ} {logger : Nat}
    (h : ∀ settings, session.loggers.settings? logger = some settings →
      settings.fallback.sink ≠ index)
    (context : Context) (message : Text) :
    Brings index (session.copies index logger context message) session.outlets
      (session.emit logger context message).outlets := by
  unfold copies
  cases hs : session.loggers.settings? logger with
  | none =>
      rw [emit_of_none hs]
      exact (Spares.refl _).brings
  | some settings =>
      have hover := brings_handOver index session logger settings context message
      rw [emit_eq hs]
      cases hw : session.handOver logger settings context message with
      | mk outcome after =>
          rw [hw] at hover
          cases outcome with
          | ok count => exact hover
          | error error =>
              exact hover.then_spares (after.spares_report (h settings hs) logger error)

theorem brings_deliver {session : Session σ} {logger : Nat}
    (h : ∀ settings, session.loggers.settings? logger = some settings →
      settings.fallback.sink ≠ index)
    (entry : Entry) (site : Option CallSite) (instant : Time.Instant) (message : Text) :
    Brings index (session.copies index logger ⟨entry.level, site, instant⟩ message)
      session.outlets (session.deliver logger entry site instant message).outlets := by
  have hemit := brings_emit h ⟨entry.level, site, instant⟩ message
  unfold deliver
  cases entry with
  | leveled level => exact hemit
  | fatal =>
      dsimp only [exit]
      split
      · exact hemit
      · exact hemit.then_spares ((Spares.refl _).note _)

theorem spares_release (before after : Session σ) :
    Spares index after.outlets (before.release after).outlets := .closeAll _ _

/-! ## Other commands -/

/-- A command does not write to a sink directly, nor drain it. -/
def LeavesSink (session : Session σ) (index : Nat) : SinkCommand → Prop
  | .write handle _ => session.sinkHandles.find? handle ≠ some index
  | .drain handle => session.sinkHandles.find? handle ≠ some index
  | _ => True

instance (session : Session σ) (command : SinkCommand) :
    Decidable (session.LeavesSink index command) := by
  unfold LeavesSink
  split <;> infer_instance

theorem spares_makeSink (session : Session σ) (handle : String) (plan : SinkPlan) :
    Spares index session.outlets (session.makeSink handle plan).2.outlets := by
  cases plan with
  | file path =>
      simp only [makeSink]
      split
      · exact .refl _
      · rename_i opened disk hopen
        exact (Spares.disk (Disk.contents_openAt hopen)).trans (.add _ _)
  | _ => exact .add session.outlets _

theorem spares_drain {session : Session σ} {handle : String}
    (h : session.sinkHandles.find? handle ≠ some index) :
    Spares index session.outlets (session.runSink (.drain handle)).2.outlets := by
  refine withSink_cases (p := fun after => Spares index session.outlets after.outlets) (.refl _) ?_
  intro other sink hfind hsink
  cases sink with
  | memory memory =>
      refine .replace ?_ hsink rfl fun _ _ => rfl
      rintro rfl
      exact h hfind
  | _ => exact .refl _

theorem spares_makeDirectory (session : Session σ) (path : Text) :
    Spares index session.outlets (session.runSink (.makeDirectory path)).2.outlets := by
  have hdisk : Spares index session.outlets
      { session.outlets with
        host := { session.outlets.host with
          disk := (session.outlets.host.disk.makeDirectories path).2 } } :=
    .disk fun place => by simp only [Disk.contents, Disk.files_makeDirectories]
  simp only [runSink]
  split <;> exact hdisk

theorem spares_runSink {session : Session σ} {command : SinkCommand}
    (h : session.LeavesSink index command) :
    Spares index session.outlets (session.runSink command).2.outlets := by
  have hwith := @withSink_cases _
    (fun after => Spares index session.outlets after.outlets) session (.refl _)
  cases command with
  | make handle plan => exact session.spares_makeSink handle plan
  | write handle data =>
      refine hwith fun other sink hfind _ => .write ?_ data session.outlets
      rintro rfl
      exact h hfind
  | flush handle => exact hwith fun other sink _ _ => .flush other session.outlets
  | name handle => exact hwith fun other sink _ _ => .refl _
  | drop handle => exact hwith fun other sink _ _ => .refl _
  | read handle => exact hwith fun other sink _ _ => .refl _
  | drain handle => exact spares_drain h
  | fileContents path =>
      simp only [runSink]
      split <;> exact .refl _
  | makeDirectory path => exact session.spares_makeDirectory path

def LeavesRoutes (session : Session σ) (index : Nat) : RouterCommand → Prop
  | .write handle level _ =>
      ∀ router ∈ session.routerHandles.find? handle,
        ∀ endpoint ∈ (session.router router).endpoints level, endpoint.sink ≠ index
  | _ => True

instance (session : Session σ) (command : RouterCommand) :
    Decidable (session.LeavesRoutes index command) := by
  unfold LeavesRoutes
  split <;> infer_instance

theorem spares_runRouter {session : Session σ} {command : RouterCommand}
    (h : session.LeavesRoutes index command) :
    Spares index session.outlets (session.runRouter command).2.outlets := by
  have hwith := @withRouter_cases _
    (fun after => Spares index session.outlets after.outlets) session (.refl _)
  have hmade := @withSink_cases _
    (fun after => Spares index session.outlets after.outlets) session (.refl _)
  cases command with
  | make handle source =>
      cases source with
      | nothing => exact .refl _
      | shared sink => exact hmade fun found _ _ _ => .refl _
      | wrapped sink => exact hmade fun found _ _ _ => .refl _
  | route handle level sinks =>
      refine hwith fun router _ => ?_
      split <;> exact .refl _
  | write handle level data =>
      refine hwith fun router hfind => ?_
      exact Outlets.spares_writeRouter (h router hfind) data session.outlets
  | flush handle =>
      exact hwith fun router _ => Outlets.spares_flushRouter _ session.outlets
  | describe handle => exact hwith fun router _ => .refl _

theorem spares_runLogger (session : Session σ) (command : LoggerCommand) :
    Spares index session.outlets (session.runLogger command).2.outlets := by
  obtain ⟨grown, loggers, hgrown, h⟩ | ⟨router, h⟩ := session.runLogger_frame command
  · rw [h]
    obtain ⟨count, hcount⟩ := hgrown.outlets
    dsimp only
    rw [hcount]
    exact .addAll session.outlets _
  · rw [h]
    exact Outlets.spares_flushRouter _ session.outlets

end Session

end Logbook
