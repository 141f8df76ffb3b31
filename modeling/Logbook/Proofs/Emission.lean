import Logbook.Session.Run

/-!
# Emission

What making a record leaves in the journal. A view of the events that does not see what sinks take
sees the record handed to the router, then at most one report, and after a fatal record the exit.
-/

namespace Logbook

variable {σ β : Type}

/-! ## Acting on endpoints -/

namespace Router

variable {α : Type} {act : Endpoint → α → Except LogError β × α} {p : α → Prop}

/-- What every endpoint of a list preserves, the whole list preserves. -/
theorem each_preserves {endpoints : List Endpoint}
    (h : ∀ endpoint ∈ endpoints, ∀ state, p state → p (act endpoint state).2) {state : α}
    (hp : p state) : p (each act endpoints state).2 := by
  induction endpoints generalizing state with
  | nil => exact hp
  | cons endpoint rest ih =>
      exact ih (fun other ho => h other (List.mem_cons_of_mem _ ho))
        (h endpoint List.mem_cons_self state hp)

theorem write_preserves {router : Router} {level : Level}
    {send : Endpoint → α → Except LogError Nat × α}
    (h : ∀ endpoint ∈ router.endpoints level, ∀ state, p state → p (send endpoint state).2)
    {state : α} (hp : p state) : p (router.write level send state).2 := by
  unfold write
  unfold endpoints at h
  cases hr : router.routes.find? level with
  | none => exact hp
  | some list =>
      rw [hr] at h
      exact each_preserves h hp

theorem flush_preserves {router : Router} {flush : Endpoint → α → Except LogError Unit × α}
    (h : ∀ endpoint state, p state → p (flush endpoint state).2) {state : α} (hp : p state) :
    p (router.flush flush state).2 :=
  each_preserves (fun endpoint _ => h endpoint) hp

end Router

/-! ## Views of the journal -/

/-- A view of events that does not see what sinks take. -/
def Blind (view : Event → Option β) : Prop := ∀ sink data, view (.gained sink data) = none

namespace Outlets

def seen (view : Event → Option β) (outlets : Outlets) : List β := outlets.journal.filterMap view

variable {view : Event → Option β}

theorem seen_note (view : Event → Option β) (outlets : Outlets) (event : Event) :
    (outlets.note event).seen view = outlets.seen view ++ (view event).toList := by
  cases h : view event <;> simp [seen, note, h]

theorem seen_write (blind : Blind view) (index : Nat) (data : Bytes) (outlets : Outlets) :
    (write index data outlets).2.seen view = outlets.seen view := by
  unfold write
  cases hs : outlets.sink? index with
  | none => rfl
  | some sink =>
      dsimp only
      split
      · rfl
      · rw [seen_note, blind, Option.toList_none, List.append_nil]
        rfl

theorem seen_writeRouter (blind : Blind view) (router : Router) (level : Level) (data : Bytes)
    (outlets : Outlets) :
    (writeRouter router level data outlets).2.seen view = outlets.seen view := by
  apply Router.write_preserves (p := fun later => seen view later = outlets.seen view) _ rfl
  intro endpoint _ later h
  rw [seen_write blind, h]

theorem journal_close (outlets : Outlets) (index : Nat) :
    (outlets.close index).journal = outlets.journal := by
  unfold close
  split <;> rfl

theorem journal_closeAll (outlets : Outlets) (indices : List Nat) :
    (outlets.closeAll indices).journal = outlets.journal := by
  induction indices generalizing outlets with
  | nil => rfl
  | cons index rest ih => exact (ih (outlets.close index)).trans (outlets.journal_close index)

end Outlets

/-! ## Making a record -/

namespace Session

def seen (view : Event → Option β) (session : Session σ) : List β := session.outlets.seen view

def record (session : Session σ) (settings : Settings) (context : Context) (message : Text) :
    Text :=
  assemble settings.indent (session.render settings.formatter context settings.prefixText).1
    message

def handOver (session : Session σ) (logger : Nat) (settings : Settings) (context : Context)
    (message : Text) : Except LogError Nat × Session σ :=
  let data := Text.encode (session.record settings context message)
  ((session.render settings.formatter context settings.prefixText).2.note
    (.handed logger settings.router context.level data)).writeRouter
      settings.router context.level data

def report (session : Session σ) (logger : Nat) (settings : Settings) (error : LogError) :
    Session σ :=
  let data := Text.encode (failureReport error)
  ((session.note (.reported logger settings.fallback.sink data)).writeSink
    settings.fallback.sink data).2

theorem emit_eq {session : Session σ} {logger : Nat} {settings : Settings}
    (h : session.loggers.settings? logger = some settings) (context : Context) (message : Text) :
    session.emit logger context message =
      match session.handOver logger settings context message with
      | (.ok _, after) => after
      | (.error error, after) => after.report logger settings error := by
  unfold emit
  rw [h]
  rfl

theorem emit_of_none {session : Session σ} {logger : Nat}
    (h : session.loggers.settings? logger = none) (context : Context) (message : Text) :
    session.emit logger context message = session := by
  unfold emit
  rw [h]

/-! ## What views see of it -/

variable {view : Event → Option β}

theorem outlets_render (session : Session σ) (index : Nat) (context : Context)
    (prefixText : Text) :
    (session.render index context prefixText).2.outlets = session.outlets := by
  unfold render
  split <;> rfl

theorem seen_handOver (blind : Blind view) (session : Session σ) (logger : Nat)
    (settings : Settings) (context : Context) (message : Text) :
    (session.handOver logger settings context message).2.seen view =
      session.seen view ++ (view (.handed logger settings.router context.level
        (Text.encode (session.record settings context message)))).toList := by
  unfold handOver writeRouter seen
  simp only [Outlets.seen_writeRouter blind, note, Outlets.seen_note, outlets_render]

theorem seen_report (blind : Blind view) (session : Session σ) (logger : Nat)
    (settings : Settings) (error : LogError) :
    (session.report logger settings error).seen view =
      session.seen view ++ (view (.reported logger settings.fallback.sink
        (Text.encode (failureReport error)))).toList := by
  unfold report writeSink seen
  simp only [Outlets.seen_write blind, note, Outlets.seen_note]

theorem seen_release (before after : Session σ) :
    (before.release after).seen view = after.seen view := by
  simp only [seen, Outlets.seen, release, Outlets.journal_closeAll]

theorem seen_leave (session : Session σ) : session.leave.seen view = session.seen view := rfl

theorem record_enter (session : Session σ) (logger : Nat) (settings : Settings)
    (context : Context) (message : Text) :
    (session.enter logger).record settings context message =
      session.record settings context message := by
  unfold record render enter
  dsimp only
  split <;> rfl

end Session

/-! ## Records handed over -/

def Event.handed? : Event → Option (Nat × Nat × Level × Bytes)
  | .handed logger router level record => some (logger, router, level, record)
  | _ => none

theorem blind_handed? : Blind Event.handed? := fun _ _ => rfl

namespace Session

/-- The records handed to routers so far: by which logger, to which router, at which level. -/
def handed (session : Session σ) : List (Nat × Nat × Level × Bytes) := session.seen Event.handed?

/-- Whatever the sinks answer, making a record hands it over once. -/
theorem handed_emit {session : Session σ} {logger : Nat} {settings : Settings}
    (h : session.loggers.settings? logger = some settings) (context : Context) (message : Text) :
    (session.emit logger context message).handed =
      session.handed ++ [(logger, settings.router, context.level,
        Text.encode (session.record settings context message))] := by
  rw [emit_eq h]
  have hover := seen_handOver blind_handed? session logger settings context message
  cases hw : session.handOver logger settings context message with
  | mk outcome after =>
      rw [hw] at hover
      cases outcome with
      | ok count => exact hover
      | error error =>
          refine (seen_report blind_handed? after logger settings error).trans ?_
          rw [show after.seen Event.handed? = _ from hover]
          exact List.append_nil _

theorem handed_exit (session : Session σ) (logger : Nat) :
    (session.exit logger).handed = session.handed := by
  unfold exit
  cases session.loggers.settings? logger with
  | none => rfl
  | some settings =>
      have hnote := Outlets.seen_note Event.handed? session.outlets
        (.exited logger settings.exit fatalExitCode)
      exact hnote.trans (List.append_nil _)

/-- What follows a fatal record hands over nothing. -/
theorem handed_deliver (session : Session σ) (logger : Nat) (entry : Entry)
    (site : Option CallSite) (instant : Time.Instant) (message : Text) :
    (session.deliver logger entry site instant message).handed =
      (session.emit logger ⟨entry.level, site, instant⟩ message).handed := by
  cases entry with
  | leveled level => rfl
  | fatal => exact handed_exit _ logger

/-- A log call whose message carries no commands hands over one record, if its gate admits it. -/
theorem handed_exec_log {session : Session σ} {handle : String} {logger : Nat} {entry : Entry}
    {settings : Settings} (hfind : session.loggers.find? handle = some logger)
    (hgate : session.admits logger entry = true)
    (hsettings : session.loggers.settings? logger = some settings) (site : Option CallSite)
    (instant : Time.Instant) (message : Text) :
    (exec (.log handle entry site instant message []) session).2.handed =
      session.handed ++ [(logger, settings.router, entry.level,
        Text.encode (session.record settings ⟨entry.level, site, instant⟩ message))] := by
  simp only [exec, hfind, hgate, if_true, execAll, settle, done]
  rw [handed, seen_release, seen_leave, ← handed, handed_deliver]
  have hentered : (session.enter logger).loggers.settings? logger = some settings := hsettings
  have hemit := handed_emit hentered ⟨entry.level, site, instant⟩ message
  rw [record_enter] at hemit
  exact hemit

end Session

end Logbook
