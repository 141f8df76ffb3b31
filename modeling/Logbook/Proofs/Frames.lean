import Logbook.Proofs.Acts
import Logbook.Proofs.Emission
import Logbook.Proofs.Making

/-!
# Frames

Which parts of a session a command can change at all, by the kind of thing that it is about.
-/

namespace Logbook.Session

variable {σ : Type}

/-! ## Named things -/

section

variable {p : Session σ → Prop} {session : Session σ} (hsame : p session)
include hsame

/-- What holds of a session, and of all that is done with the sink that a handle names, holds
afterwards. -/
theorem withSink_cases {handle : String} {act : Nat → Sink → Result σ}
    (h : ∀ index sink, session.sinkHandles.find? handle = some index →
      session.outlets.sink? index = some sink → p (act index sink).2) :
    p (session.withSink handle act).2 := by
  unfold withSink
  split
  · exact hsame
  · rename_i index hfind
    split
    · exact hsame
    · rename_i sink hsink
      exact h index sink hfind hsink

theorem withRouter_cases {handle : String} {act : Nat → Result σ}
    (h : ∀ index, session.routerHandles.find? handle = some index → p (act index).2) :
    p (session.withRouter handle act).2 := by
  unfold withRouter
  split
  · exact hsame
  · rename_i index hfind
    exact h index hfind

theorem withFormatter_cases {handle : String} {act : Nat → Formatter σ → Result σ}
    (h : ∀ index formatter, p (act index formatter).2) :
    p (session.withFormatter handle act).2 := by
  unfold withFormatter
  split
  · exact hsame
  · split
    · exact hsame
    · exact h _ _

theorem withLogger_cases {handle : String} {act : Nat → Result σ}
    (h : ∀ index, p (act index).2) : p (session.withLogger handle act).2 := by
  unfold withLogger
  split
  · exact hsame
  · exact h _

end

/-! ## Commands -/

theorem runSink_frame (session : Session σ) (command : SinkCommand) :
    ∃ outlets sinkHandles,
      (session.runSink command).2 = { session with outlets, sinkHandles } := by
  have hwith := @withSink_cases _
    (fun after => ∃ outlets sinkHandles, after = { session with outlets, sinkHandles })
    session ⟨_, _, rfl⟩
  cases command with
  | make handle plan =>
      cases plan with
      | file path =>
          simp only [runSink, makeSink]
          split <;> exact ⟨_, _, rfl⟩
      | _ => exact ⟨_, _, rfl⟩
  | write handle data => exact hwith fun index sink _ _ => ⟨_, _, rfl⟩
  | flush handle => exact hwith fun index sink _ _ => ⟨_, _, rfl⟩
  | name handle => exact hwith fun index sink _ _ => ⟨_, _, rfl⟩
  | drop handle => exact hwith fun index sink _ _ => ⟨_, _, rfl⟩
  | read handle => exact hwith fun index sink _ _ => ⟨_, _, rfl⟩
  | drain handle =>
      refine hwith fun index sink _ _ => ?_
      cases sink <;> exact ⟨_, _, rfl⟩
  | fileContents path =>
      simp only [runSink]
      split <;> exact ⟨_, _, rfl⟩
  | makeDirectory path =>
      simp only [runSink]
      split <;> exact ⟨_, _, rfl⟩

theorem runRouter_frame (session : Session σ) (command : RouterCommand) :
    ∃ outlets routers routerHandles wrappers,
      (session.runRouter command).2 =
        { session with outlets, routers, routerHandles, wrappers } := by
  have hwith := @withRouter_cases _
    (fun after => ∃ outlets routers routerHandles wrappers,
      after = { session with outlets, routers, routerHandles, wrappers })
    session ⟨_, _, _, _, rfl⟩
  have hmade := @withSink_cases _
    (fun after => ∃ outlets routers routerHandles wrappers,
      after = { session with outlets, routers, routerHandles, wrappers })
    session ⟨_, _, _, _, rfl⟩
  cases command with
  | make handle source =>
      cases source with
      | nothing => exact ⟨_, _, _, _, rfl⟩
      | shared sink => exact hmade fun index found _ _ => ⟨_, _, _, _, rfl⟩
      | wrapped sink => exact hmade fun index found _ _ => ⟨_, _, _, _, rfl⟩
  | route handle level sinks =>
      refine hwith fun index _ => ?_
      split <;> exact ⟨_, _, _, _, rfl⟩
  | write handle level data => exact hwith fun index _ => ⟨_, _, _, _, rfl⟩
  | flush handle => exact hwith fun index _ => ⟨_, _, _, _, rfl⟩
  | describe handle => exact hwith fun index _ => ⟨_, _, _, _, rfl⟩

/-- Rendering changes formatters and the desk. -/
theorem render_frame (session : Session σ) (index : Nat) (context : Context) (prefixText : Text) :
    ∃ formatters desk,
      (session.render index context prefixText).2 = { session with formatters, desk } := by
  unfold render
  split <;> exact ⟨_, _, rfl⟩

theorem runFormat_frame (session : Session σ) (command : FormatCommand σ) :
    ∃ formatters formatterHandles desk,
      (session.runFormat command).2 =
        { session with formatters, formatterHandles, desk } := by
  have hwith := @withFormatter_cases _
    (fun after => ∃ formatters formatterHandles desk,
      after = { session with formatters, formatterHandles, desk })
    session ⟨_, _, _, rfl⟩
  cases command with
  | make handle template registry => exact ⟨_, _, _, rfl⟩
  | stamp handle text => exact ⟨_, _, _, rfl⟩
  | borrow handle logger =>
      simp only [runFormat]
      split <;> exact ⟨_, _, _, rfl⟩
  | register handle name placeholder => exact hwith fun index formatter => ⟨_, _, _, rfl⟩
  | setRegistry handle registry => exact hwith fun index formatter => ⟨_, _, _, rfl⟩
  | copyRegistry handle source without =>
      refine hwith fun _ origin => ?_
      exact hwith fun index formatter => ⟨_, _, _, rfl⟩
  | reset handle => exact hwith fun index formatter => ⟨_, _, _, rfl⟩
  | names handle => exact hwith fun index formatter => ⟨_, _, _, rfl⟩
  | describe handle tall =>
      refine hwith fun index formatter => ?_
      cases formatter <;> exact ⟨_, _, _, rfl⟩
  | template handle =>
      refine hwith fun index formatter => ?_
      cases formatter <;> exact ⟨_, _, _, rfl⟩
  | render handle context prefixText =>
      refine hwith fun index formatter => ?_
      obtain ⟨formatters, desk, h⟩ := session.render_frame index context prefixText
      exact ⟨formatters, _, desk, h⟩

theorem desk_register (formatter : Formatter σ) (name : Text) (placeholder : Placeholder σ)
    (desk : Desk σ) :
    (formatter.register name placeholder desk).2 = desk ∨
      (formatter.register name placeholder desk).2 = { desk with memo := .empty } := by
  cases formatter with
  | format found => exact .inr rfl
  | stamp found => exact .inl rfl

theorem desk_setRegistry (formatter : Formatter σ) (registry : Registry σ) (desk : Desk σ) :
    (formatter.setRegistry registry desk).2 = desk ∨
      (formatter.setRegistry registry desk).2 = { desk with memo := .empty } := by
  cases formatter with
  | format found => exact .inr rfl
  | stamp found => exact .inl rfl

theorem runFormat_render_cases (session : Session σ) (handle : String) (context : Context)
    (prefixText : Text) :
    (∃ index, (session.runFormat (.render handle context prefixText)).2 =
        (session.render index context prefixText).2) ∨
      (session.runFormat (.render handle context prefixText)).2.desk = session.desk :=
  @withFormatter_cases _
    (fun after => (∃ index, after = (session.render index context prefixText).2) ∨
      after.desk = session.desk)
    session (.inr rfl) _ _ fun index _ => .inl ⟨index, rfl⟩

/-- A command about formatters renders with one of them, leaves the desk, or empties the memo. -/
theorem desk_runFormat (session : Session σ) (command : FormatCommand σ) :
    (∃ handle index context prefixText, command = .render handle context prefixText ∧
        (session.runFormat command).2 = (session.render index context prefixText).2) ∨
      (session.runFormat command).2.desk = session.desk ∨
      (session.runFormat command).2.desk = { session.desk with memo := .empty } := by
  have hwith := @withFormatter_cases _
    (fun after => after.desk = session.desk ∨ after.desk = { session.desk with memo := .empty })
    session (.inl rfl)
  cases command with
  | make handle template registry => exact .inr (.inl rfl)
  | stamp handle text => exact .inr (.inl rfl)
  | borrow handle logger =>
      simp only [runFormat]
      split <;> exact .inr (.inl rfl)
  | register handle name placeholder =>
      exact .inr (hwith fun _ formatter => desk_register formatter name placeholder session.desk)
  | setRegistry handle registry =>
      exact .inr (hwith fun _ formatter => desk_setRegistry formatter registry session.desk)
  | copyRegistry handle source without =>
      exact .inr (hwith fun _ origin => hwith fun _ formatter =>
        desk_setRegistry formatter (lessen origin.registry without) session.desk)
  | reset handle => exact .inr (hwith fun index formatter => .inl rfl)
  | names handle => exact .inr (hwith fun index formatter => .inl rfl)
  | describe handle tall =>
      refine .inr (hwith fun index formatter => ?_)
      cases formatter <;> exact .inl rfl
  | template handle =>
      refine .inr (hwith fun index formatter => ?_)
      cases formatter <;> exact .inl rfl
  | render handle context prefixText =>
      rcases session.runFormat_render_cases handle context prefixText with ⟨index, h⟩ | h
      · exact .inl ⟨handle, index, context, prefixText, rfl, h⟩
      · exact .inr (.inl h)

theorem runMemo_frame (session : Session σ) (command : MemoCommand) :
    ∃ desk, (session.runMemo command).2 = { session with desk } := by
  cases command <;> exact ⟨_, rfl⟩

/-- The session after the rendering of a record of a logger, before the record goes anywhere. -/
def rendered (session : Session σ) (logger : Nat) (context : Context) : Session σ :=
  match session.loggers.settings? logger with
  | none => session
  | some settings => (session.render settings.formatter context settings.prefixText).2

theorem rendered_frame (session : Session σ) (logger : Nat) (context : Context) :
    ∃ formatters desk, session.rendered logger context = { session with formatters, desk } := by
  unfold rendered
  split
  · exact ⟨_, _, rfl⟩
  · exact session.render_frame _ _ _

theorem emit_rendered (session : Session σ) (logger : Nat) (context : Context) (message : Text) :
    ∃ outlets, session.emit logger context message =
      { session.rendered logger context with outlets } := by
  unfold rendered
  cases hs : session.loggers.settings? logger with
  | none => exact ⟨_, emit_of_none hs context message⟩
  | some settings =>
      rw [emit_eq hs]
      cases hw : session.handOver logger settings context message with
      | mk outcome after =>
          have hafter : ∃ outlets, after =
              { (session.render settings.formatter context settings.prefixText).2 with
                outlets } := ⟨_, (congrArg Prod.snd hw).symm⟩
          obtain ⟨outlets, rfl⟩ := hafter
          cases outcome with
          | ok count => exact ⟨outlets, rfl⟩
          | error error => exact ⟨_, rfl⟩

/-- Whatever becomes of a record, making it is rendering it, but for the outlets. -/
theorem deliver_rendered (session : Session σ) (logger : Nat) (entry : Entry)
    (site : Option CallSite) (instant : Time.Instant) (message : Text) :
    ∃ outlets, session.deliver logger entry site instant message =
      { session.rendered logger ⟨entry.level, site, instant⟩ with outlets } := by
  unfold deliver
  obtain ⟨outlets, h⟩ := session.emit_rendered logger ⟨entry.level, site, instant⟩ message
  rw [h]
  cases entry with
  | leveled level => exact ⟨_, rfl⟩
  | fatal =>
      dsimp only [exit]
      split <;> exact ⟨_, rfl⟩

theorem deliver_frame (session : Session σ) (logger : Nat) (entry : Entry)
    (site : Option CallSite) (instant : Time.Instant) (message : Text) :
    ∃ outlets formatters desk,
      session.deliver logger entry site instant message =
        { session with outlets, formatters, desk } := by
  obtain ⟨outlets, h⟩ := session.deliver_rendered logger entry site instant message
  obtain ⟨formatters, desk, hrendered⟩ :=
    session.rendered_frame logger ⟨entry.level, site, instant⟩
  exact ⟨outlets, formatters, desk, by rw [h, hrendered]⟩

theorem makeLogger_frame (session : Session σ) (handle : String) (plan : Plan) :
    ∃ grown loggers, Grown session grown ∧
      (session.makeLogger handle plan).2 = { grown with loggers } := by
  obtain ⟨-, hsame⟩ | ⟨start, formatter, router, fallback, first, second, third, -, hformatter,
    hrouter, hfallback, heq⟩ := session.makeLogger_cases handle plan
  · exact ⟨session, session.loggers, .refl session, hsame⟩
  · exact ⟨third, _, ((grown_planFormatter hformatter).trans (grown_planRouter hrouter)).trans
      (grown_planFallback hfallback), congrArg Prod.snd heq⟩

/-- A command about loggers adds to the session and changes the loggers, or flushes a router. -/
theorem runLogger_frame (session : Session σ) (command : LoggerCommand) :
    (∃ grown loggers, Grown session grown ∧
        (session.runLogger command).2 = { grown with loggers }) ∨
      ∃ router, (session.runLogger command).2 = (session.flushRouter router).2 := by
  have hwith := @withLogger_cases _
    (fun after => ∃ grown loggers, Grown session grown ∧ after = { grown with loggers })
    session ⟨session, _, .refl session, rfl⟩
  cases command with
  | make handle plan => exact .inl (session.makeLogger_frame handle plan)
  | branch handle parent prefixText =>
      refine .inl (hwith fun index => ?_)
      split <;> exact ⟨session, _, .refl session, rfl⟩
  | share handle source => exact .inl (hwith fun index => ⟨session, _, .refl session, rfl⟩)
  | drop handle => exact .inl (hwith fun index => ⟨session, _, .refl session, rfl⟩)
  | describe handle =>
      refine .inl (hwith fun index => ?_)
      unfold describeLoggerAt
      split <;> exact ⟨session, _, .refl session, rfl⟩
  | setLevel handle level =>
      exact .inl (hwith fun index => ⟨session, _, .refl session, rfl⟩)
  | setPrefix handle prefixText =>
      exact .inl (hwith fun index => ⟨session, _, .refl session, rfl⟩)
  | setIndent handle indent =>
      exact .inl (hwith fun index => ⟨session, _, .refl session, rfl⟩)
  | setTemplate handle template =>
      exact .inl (hwith fun index => ⟨_, _, session.grown_addTemplate _, rfl⟩)
  | setFormatter handle formatter =>
      refine .inl (hwith fun index => ?_)
      split <;> exact ⟨session, _, .refl session, rfl⟩
  | setSink handle sink =>
      refine .inl (hwith fun index => ?_)
      split
      · exact ⟨session, _, .refl session, rfl⟩
      · exact ⟨_, _, session.grown_addWrapped _, rfl⟩
  | setRouter handle router =>
      refine .inl (hwith fun index => ?_)
      split <;> exact ⟨session, _, .refl session, rfl⟩
  | setFallback handle sink =>
      refine .inl (hwith fun index => ?_)
      split
      · exact ⟨session, _, .refl session, rfl⟩
      · rename_i found _
        exact ⟨_, _, session.grown_wrap found, rfl⟩
  | setExit handle action =>
      exact .inl (hwith fun index => ⟨session, _, .refl session, rfl⟩)
  | flush handle =>
      simp only [runLogger, withLogger]
      split
      · exact .inl ⟨session, _, .refl session, rfl⟩
      · split
        · exact .inl ⟨session, _, .refl session, rfl⟩
        · exact .inr ⟨_, rfl⟩

end Logbook.Session
