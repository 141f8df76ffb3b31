import Logbook.Proofs.Announcements
import Logbook.Proofs.CompiledFormats
import Logbook.Proofs.ForestShape

/-!
# Reports of failures

A record that its router fails to write is reported once to the sink that its logger falls back on,
and nothing more is written, whatever becomes of the report. Runs of log calls change nothing but
what sinks hold and what renderings leave behind.
-/

namespace Logbook

variable {σ : Type}

/-! ## Writes -/

/-- All that is written for a record, sink by sink: the record to each endpoint, then the report. -/
def Attempt.writes (attempt : Attempt) : List (Nat × Bytes) :=
  attempt.endpoints.map (fun endpoint => (endpoint.sink, attempt.record)) ++
    (attempt.report?.map (attempt.settings.fallback.sink, ·)).toList

def Event.reported? : Event → Option (Nat × Nat × Bytes)
  | .reported logger sink report => some (logger, sink, report)
  | _ => none

theorem blind_reported? : Blind Event.reported? := fun _ _ => rfl

theorem Attempt.filterMap_reported? (attempt : Attempt) :
    attempt.events.filterMap Event.reported? =
      (attempt.report?.map (attempt.logger, attempt.settings.fallback.sink, ·)).toList := by
  unfold events emitted exit?
  cases attempt.report? <;> cases attempt.entry <;> rfl

namespace Outlets

def writeAll (outlets : Outlets) (list : List (Nat × Bytes)) : Outlets :=
  list.foldl (fun outlets item => (write item.1 item.2 outlets).2) outlets

theorem writeAll_append (outlets : Outlets) (first second : List (Nat × Bytes)) :
    outlets.writeAll (first ++ second) = (outlets.writeAll first).writeAll second :=
  List.foldl_append

theorem Agrees.writeAll {outlets other : Outlets} (h : Agrees outlets other)
    (list : List (Nat × Bytes)) : Agrees (outlets.writeAll list) (other.writeAll list) := by
  induction list generalizing outlets other with
  | nil => exact h
  | cons item rest ih => exact ih (h.write item.1 item.2).2

theorem snd_each_write (endpoints : List Endpoint) (data : Bytes) (outlets : Outlets) :
    (Router.each (fun endpoint => write endpoint.sink data) endpoints outlets).2 =
      outlets.writeAll (endpoints.map fun endpoint => (endpoint.sink, data)) := by
  induction endpoints generalizing outlets with
  | nil => rfl
  | cons endpoint rest ih => exact ih (write endpoint.sink data outlets).2

theorem snd_writeRouter (router : Router) (level : Level) (data : Bytes) (outlets : Outlets) :
    (writeRouter router level data outlets).2 =
      outlets.writeAll ((router.endpoints level).map fun endpoint => (endpoint.sink, data)) := by
  unfold writeRouter Router.write Router.endpoints
  cases router.routes.find? level with
  | none => rfl
  | some endpoints => exact snd_each_write endpoints data outlets

end Outlets

namespace Session

/-- Making a record writes what its attempt says, in that order. -/
theorem agrees_emit {session : Session σ} {logger : Nat} {settings : Settings}
    (h : session.loggers.settings? logger = some settings) (entry : Entry)
    (site : Option CallSite) (instant : Time.Instant) (message : Text) :
    (session.emit logger ⟨entry.level, site, instant⟩ message).outlets.Agrees
      (session.outlets.writeAll
        (session.attempted logger settings entry site instant message).writes) := by
  obtain ⟨hanswer, hover⟩ :=
    session.handOver_eq logger settings ⟨entry.level, site, instant⟩ message
  rw [Outlets.snd_writeRouter] at hover
  rw [emit_eq h]
  cases hw : session.handOver logger settings ⟨entry.level, site, instant⟩ message with
  | mk answer after =>
      rw [hw] at hanswer hover
      simp only [attempted, Attempt.writes, Attempt.report?, ← hanswer]
      cases answer with
      | ok count =>
          rw [Option.map_none, Option.toList_none, List.append_nil]
          exact hover
      | error error =>
          rw [Outlets.writeAll_append]
          have hnoted := (Outlets.Agrees.note after.outlets (.reported logger
            settings.fallback.sink (Text.encode (failureReport error)))).trans hover
          exact (hnoted.write _ _).2

theorem agrees_deliver (session : Session σ) (logger : Nat) (entry : Entry)
    (site : Option CallSite) (instant : Time.Instant) (message : Text) :
    (session.deliver logger entry site instant message).outlets.Agrees
      (session.outlets.writeAll
        ((session.attempt? (.make logger entry site instant message)).toList.flatMap
          Attempt.writes)) := by
  have hemit : (session.emit logger ⟨entry.level, site, instant⟩ message).outlets.Agrees
      (session.outlets.writeAll
        ((session.attempt? (.make logger entry site instant message)).toList.flatMap
          Attempt.writes)) := by
    simp only [attempt?]
    cases hs : session.loggers.settings? logger with
    | none =>
        rw [emit_of_none hs]
        exact .refl _
    | some settings => simpa using agrees_emit hs entry site instant message
  unfold deliver
  cases entry with
  | leveled level => exact hemit
  | fatal =>
      dsimp only [exit]
      split
      · exact hemit
      · exact (Outlets.Agrees.note _ _).trans hemit

/-! ## What stays -/

/-- Two sessions differ at most in their outlets, in the desk, and in what renderings leave behind
in formatters. -/
structure Quiet (before after : Session σ) : Prop where
  loggers : after.loggers = before.loggers
  routers : after.routers = before.routers
  wrappers : after.wrappers = before.wrappers
  sinkHandles : after.sinkHandles = before.sinkHandles
  routerHandles : after.routerHandles = before.routerHandles
  formatterHandles : after.formatterHandles = before.formatterHandles
  formatters : after.formatters.map Formatter.anew = before.formatters.map Formatter.anew

namespace Quiet

theorem refl (session : Session σ) : Quiet session session := ⟨rfl, rfl, rfl, rfl, rfl, rfl, rfl⟩

theorem trans {first second third : Session σ} (h : Quiet first second) (h' : Quiet second third) :
    Quiet first third where
  loggers := h'.loggers.trans h.loggers
  routers := h'.routers.trans h.routers
  wrappers := h'.wrappers.trans h.wrappers
  sinkHandles := h'.sinkHandles.trans h.sinkHandles
  routerHandles := h'.routerHandles.trans h.routerHandles
  formatterHandles := h'.formatterHandles.trans h.formatterHandles
  formatters := h'.formatters.trans h.formatters

end Quiet

theorem quiet_render (session : Session σ) (index : Nat) (context : Context) (prefixText : Text) :
    Quiet session (session.render index context prefixText).2 := by
  unfold render
  cases hat : session.formatters[index]? with
  | none => exact .refl session
  | some formatter =>
      obtain ⟨hlt, rfl⟩ := List.getElem?_eq_some_iff.1 hat
      refine { Quiet.refl session with formatters := ?_ }
      have hlt' : index < (session.formatters.map Formatter.anew).length := by simpa using hlt
      simpa [Formatter.moved_render, List.map_set, Formatter.anew_moved_rendered] using
        List.set_getElem_self hlt'

/-- Whatever fails, making a record changes no setting of any logger. -/
theorem quiet_deliver (session : Session σ) (logger : Nat) (entry : Entry)
    (site : Option CallSite) (instant : Time.Instant) (message : Text) :
    Quiet session (session.deliver logger entry site instant message) := by
  obtain ⟨outlets, h⟩ := session.deliver_rendered logger entry site instant message
  have hrendered : Quiet session (session.rendered logger ⟨entry.level, site, instant⟩) := by
    unfold rendered
    split
    · exact .refl session
    · exact session.quiet_render _ _ _
  rw [h]
  exact { hrendered with }

end Session

/-! ## Runs of log calls -/

mutual

/-- A log call whose message carries log calls at most. -/
def Command.IsLog : Command σ → Prop
  | .log _ _ _ _ _ effects => AllLogs effects
  | .discard => True
  | _ => False

def AllLogs : List (Command σ) → Prop
  | [] => True
  | command :: rest => command.IsLog ∧ AllLogs rest

end

namespace Session

theorem mem_living_filterMap {α : Type} {before after : Session σ} {view : Settings → α}
    (hsettings : after.loggers.settings? = before.loggers.settings?)
    (hliving : ∀ logger ∈ before.loggers.living, logger ∈ after.loggers.living) {a : α}
    (h : a ∈ before.loggers.living.filterMap fun logger =>
      (before.loggers.settings? logger).map view) :
    a ∈ after.loggers.living.filterMap fun logger =>
      (after.loggers.settings? logger).map view := by
  obtain ⟨logger, hlogger, ha⟩ := List.mem_filterMap.1 h
  exact List.mem_filterMap.2 ⟨logger, hliving logger hlogger, hsettings ▸ ha⟩

/-- Nothing is given up as long as nothing is renamed or set anew and nobody dies. -/
theorem abandoned_eq_nil {before after : Session σ}
    (hsinks : after.sinkHandles = before.sinkHandles)
    (hhandles : after.routerHandles = before.routerHandles)
    (hrouters : after.routers = before.routers)
    (hsettings : after.loggers.settings? = before.loggers.settings?)
    (hliving : ∀ logger ∈ before.loggers.living, logger ∈ after.loggers.living) :
    abandoned before after = [] := by
  have hrouter : after.router = before.router := by
    unfold Session.router
    rw [hrouters]
  have hheld : ∀ router ∈ before.heldRouters, router ∈ after.heldRouters := by
    intro router h
    rcases List.mem_append.1 h with hhandle | hlogger
    · exact List.mem_append_left _ (hhandles ▸ hhandle)
    · exact List.mem_append_right _ (mem_living_filterMap hsettings hliving hlogger)
  have hkept : ∀ sink ∈ before.heldSinks, sink ∈ after.heldSinks := by
    intro sink h
    rcases List.mem_append.1 h with hfront | hlogger
    · rcases List.mem_append.1 hfront with hhandle | hroute
      · exact List.mem_append_left _ (List.mem_append_left _ (hsinks ▸ hhandle))
      · obtain ⟨router, hmem, hsink⟩ := List.mem_flatMap.1 hroute
        refine List.mem_append_left _ (List.mem_append_right _ ?_)
        exact List.mem_flatMap.2 ⟨router, hheld router hmem, hrouter ▸ hsink⟩
    · exact List.mem_append_right _ (mem_living_filterMap hsettings hliving hlogger)
  unfold abandoned
  refine List.filter_eq_nil_iff.2 fun sink h => ?_
  have hsink := List.mem_reverse.1 (Router.mem_distinct.1 (List.mem_reverse.1 h))
  simpa using hkept sink hsink

/-- Between two sessions, attempts were made from the settings that the loggers have, the outlets
are what these have written, and all else stays. -/
structure Logged (before after : Session σ) (attempts : List Attempt) : Prop where
  outlets : after.outlets.Agrees (before.outlets.writeAll (attempts.flatMap Attempt.writes))
  settings : ∀ attempt ∈ attempts,
    before.loggers.settings? attempt.logger = some attempt.settings
  quiet : Quiet before after

theorem Logged.refl (session : Session σ) : Logged session session [] :=
  ⟨.refl _, fun _ h => (nomatch h), .refl session⟩

theorem Logged.trans {first second third : Session σ} {list more : List Attempt}
    (h : Logged first second list) (h' : Logged second third more) :
    Logged first third (list ++ more) where
  outlets := by
    rw [List.flatMap_append, Outlets.writeAll_append]
    exact h'.outlets.trans (h.outlets.writeAll _)
  settings attempt hmem := by
    rcases List.mem_append.1 hmem with hfirst | hsecond
    · exact h.settings attempt hfirst
    · exact h.quiet.loggers ▸ h'.settings attempt hsecond
  quiet := h.quiet.trans h'.quiet

theorem logged_deliver (session : Session σ) (logger : Nat) (entry : Entry)
    (site : Option CallSite) (instant : Time.Instant) (message : Text) :
    Logged session (session.deliver logger entry site instant message)
      (session.attempt? (.make logger entry site instant message)).toList where
  outlets := session.agrees_deliver logger entry site instant message
  settings attempt hmem := by
    obtain ⟨settings, hsettings, rfl⟩ := Option.map_eq_some_iff.1 (Option.mem_toList.1 hmem)
    exact hsettings
  quiet := session.quiet_deliver logger entry site instant message

theorem logged_make {session worded : Session σ} {handle : String} {logger : Nat}
    {earlier : List Attempt} (hfind : session.loggers.find? handle = some logger)
    (hworded : Logged (session.enter logger) worded earlier) (entry : Entry)
    (site : Option CallSite) (instant : Time.Instant) (message : Text) :
    Logged session (worded.perform (.make logger entry site instant message))
      (earlier ++ (worded.attempt? (.make logger entry site instant message)).toList) := by
  have hdelivered := worded.logged_deliver logger entry site instant message
  have hquiet := hdelivered.quiet
  have hloggers : worded.loggers = session.loggers.enter logger := hworded.quiet.loggers
  have hleft : (worded.deliver logger entry site instant message).leave.loggers =
      session.loggers := by
    simp only [leave, hquiet.loggers, hloggers, Forest.leave_enter]
  have hliving : ∀ other ∈ worded.loggers.living, other ∈ session.loggers.living := by
    intro other h
    rw [hloggers] at h
    rcases List.mem_append.1 h with hhandle | hbusy
    · exact List.mem_append_left _ hhandle
    · rcases List.mem_cons.1 hbusy with rfl | hbusy
      · exact Forest.mem_living_of_find? hfind
      · exact List.mem_append_right _ hbusy
  have hnone : abandoned worded (worded.deliver logger entry site instant message).leave = [] :=
    abandoned_eq_nil hquiet.sinkHandles hquiet.routerHandles hquiet.routers
      (by rw [hleft, hloggers]; rfl) (by rw [hleft]; exact hliving)
  have hentered := hworded.trans hdelivered
  simp only [perform, release, hnone]
  exact ⟨hentered.outlets, hentered.settings, { hentered.quiet with loggers := hleft }⟩

mutual

theorem logged_exec : ∀ (command : Command σ), command.IsLog → ∀ session : Session σ,
    Logged session (exec command session).2 (session.attempts (acts command session))
  | .log handle entry site instant message effects, logs, session => by
      unfold acts exec
      cases hfind : session.loggers.find? handle with
      | none => exact .refl session
      | some logger =>
          dsimp only
          split
          · have heffects := logged_execAll effects logs (session.enter logger)
            have hmade := logged_make hfind heffects entry site instant message
            have hattempts : session.attempts (.enter handle ::
                actsAll effects (session.enter logger) ++ [.make logger entry site instant message])
                = (session.enter logger).attempts (actsAll effects (session.enter logger)) ++
                  ((execAll effects (session.enter logger)).attempt?
                    (.make logger entry site instant message)).toList := by
              rw [List.cons_append, attempts, attempts_append, perform, hfind]
              simp only [performAll_actsAll, attempts, attempt?]
              simp
            rw [hattempts]
            exact hmade
          · exact .refl session
  | .discard, _, session => .refl session
  | .sink _, logs, _ => logs.elim
  | .router _, logs, _ => logs.elim
  | .format _, logs, _ => logs.elim
  | .memo _, logs, _ => logs.elim
  | .logger _, logs, _ => logs.elim

theorem logged_execAll : ∀ (commands : List (Command σ)), AllLogs commands →
    ∀ session : Session σ,
      Logged session (execAll commands session) (session.attempts (actsAll commands session))
  | [], _, session => .refl session
  | command :: rest, logs, session => by
      unfold actsAll execAll
      rw [attempts_append, performAll_acts]
      exact (logged_exec command logs.1 session).trans
        (logged_execAll rest logs.2 (exec command session).2)

end

/-- A log call of a logger answers alike, whatever becomes of its record. -/
theorem answer_exec_log {session : Session σ} {handle : String} {logger : Nat}
    (hfind : session.loggers.find? handle = some logger) (entry : Entry) (site : Option CallSite)
    (instant : Time.Instant) (message : Text) (effects : List (Command σ)) :
    (exec (.log handle entry site instant message effects) session).1 = .ok .done := by
  simp only [exec, hfind]
  split <;> rfl

/-- What is written for a record is the record, to each endpoint of its router, and one report
exactly when the router answers with an error. In every state, making a record writes no more and
changes no setting, and the call answers as if nothing had failed. The reports of any run are those
of its records. A run of log calls writes what its records need, one after the other, and leaves all
loggers as they are. -/
theorem failures_reported :
    (∀ attempt : Attempt, attempt.writes =
      attempt.endpoints.map (fun endpoint => (endpoint.sink, attempt.record)) ++
        match attempt.answer with
        | .ok _ => []
        | .error error =>
            [(attempt.settings.fallback.sink, Text.encode
              ("[LOGGER ERROR] failed to write to log: ".toList ++ error.message ++ ['\n']))]) ∧
    (∀ (now : Session σ) (handle : String) (logger : Nat) (entry : Entry) (site : Option CallSite)
        (instant : Time.Instant) (message : Text) (effects : List (Command σ)),
      Logged now (now.deliver logger entry site instant message)
          (now.attempt? (.make logger entry site instant message)).toList ∧
        (now.loggers.find? handle = some logger →
          (exec (.log handle entry site instant message effects) now).1 = .ok .done)) ∧
    (∀ (session : Session σ) (commands : List (Command σ)),
      (execAll commands session).seen Event.reported? =
        session.seen Event.reported? ++
          (session.attempts (actsAll commands session)).filterMap fun attempt =>
            attempt.report?.map (attempt.logger, attempt.settings.fallback.sink, ·)) ∧
    ∀ (session : Session σ) (commands : List (Command σ)), AllLogs commands →
      Logged session (execAll commands session)
        (session.attempts (actsAll commands session)) := by
  refine ⟨fun attempt => ?_, ?_, fun session commands => ?_, ?_⟩
  · unfold Attempt.writes Attempt.report?
    cases attempt.answer <;> rfl
  · intro now handle logger entry site instant message effects
    refine ⟨now.logged_deliver logger entry site instant message, fun hfind => ?_⟩
    exact answer_exec_log hfind entry site instant message effects
  · rw [← performAll_actsAll, seen_performAll blind_reported?, List.filterMap_eq_flatMap_toList]
    simp only [Attempt.filterMap_reported?]
  · exact fun session commands logs => logged_execAll commands logs session

/-- A logger that falls back on a sink which it also writes to, behind a sink that fails. -/
def failingSetup : Session Unit :=
  execAll
    [.sink (.make "broken" (.tally { failure := some "no".toList })), .sink (.make "log" .memory),
      .router (.make "routes" .nothing), .router (.route "routes" .info ["broken", "log"]),
      .logger (.make "app"
        { router := some "routes", fallback := some "log", template := some "%s".toList })]
    (fresh ())

def failingCalls : List (Command Unit) :=
  [.log "app" (.leveled .info) none ⟨0, 0, 0⟩ "one".toList
      [.log "app" (.leveled .info) none ⟨0, 0, 0⟩ "two".toList []],
    .log "app" .fatal none ⟨0, 0, 0⟩ "three".toList []]

theorem failures_reported_alternating :
    (execAll failingCalls failingSetup).outlets.sinks.map Sink.kept =
      [[], Text.encode ("two\n".toList ++ failureReport (.writer "no".toList) ++
        "one\n".toList ++ failureReport (.writer "no".toList) ++
        failureReport (.unrouted .fatal))] := by
  have logs : AllLogs failingCalls := ⟨⟨trivial, trivial⟩, trivial, trivial⟩
  have hlogged := failures_reported.2.2.2 failingSetup failingCalls logs
  rw [hlogged.outlets.sinks]
  decide +kernel

end Session

end Logbook
