import Logbook.Session.Run

/-!
# Making loggers

Making a logger puts new sinks, routers and formatters behind those that there are and changes
nothing else, up to the logger itself. A plan that cannot be carried out changes nothing.
-/

namespace Logbook

variable {σ : Type}

def Formatter.Fresh : Formatter σ → Prop
  | .format found => found.compiled = none
  | .stamp found => found.renders = 0

namespace Session

/-- Sinks on the console, routers to one endpoint and fresh formatters came behind those that there
were; all else is the same, but for the number of wrappers. -/
structure Grown (before after : Session σ) : Prop where
  outlets : ∃ count, after.outlets =
    { before.outlets with
      sinks := before.outlets.sinks ++ List.replicate count (.console .stderr) }
  routers : ∃ more, (∀ router ∈ more, ∃ endpoint, router = Router.toAll endpoint) ∧
    after.routers = before.routers ++ more
  formatters : ∃ more, (∀ formatter ∈ more, formatter.Fresh) ∧
    after.formatters = before.formatters ++ more
  sinkHandles : after.sinkHandles = before.sinkHandles
  routerHandles : after.routerHandles = before.routerHandles
  formatterHandles : after.formatterHandles = before.formatterHandles
  loggers : after.loggers = before.loggers
  desk : after.desk = before.desk

namespace Grown

theorem refl (session : Session σ) : Grown session session :=
  ⟨⟨0, by simp⟩, ⟨[], by simp, by simp⟩, ⟨[], by simp, by simp⟩, rfl, rfl, rfl, rfl, rfl⟩

theorem trans {first second third : Session σ} (h : Grown first second) (h' : Grown second third) :
    Grown first third := by
  obtain ⟨count, hsinks⟩ := h.outlets
  obtain ⟨count', hsinks'⟩ := h'.outlets
  obtain ⟨routers, htoAll, hrouters⟩ := h.routers
  obtain ⟨routers', htoAll', hrouters'⟩ := h'.routers
  obtain ⟨formatters, hfresh, hformatters⟩ := h.formatters
  obtain ⟨formatters', hfresh', hformatters'⟩ := h'.formatters
  exact
    { outlets := ⟨count + count', by simp [hsinks', hsinks, List.replicate_append_replicate]⟩
      routers := ⟨routers ++ routers',
        fun router hr => (List.mem_append.1 hr).elim (htoAll router) (htoAll' router),
        by simp [hrouters', hrouters]⟩
      formatters := ⟨formatters ++ formatters',
        fun formatter hf => (List.mem_append.1 hf).elim (hfresh formatter) (hfresh' formatter),
        by simp [hformatters', hformatters]⟩
      sinkHandles := h'.sinkHandles.trans h.sinkHandles
      routerHandles := h'.routerHandles.trans h.routerHandles
      formatterHandles := h'.formatterHandles.trans h.formatterHandles
      loggers := h'.loggers.trans h.loggers
      desk := h'.desk.trans h.desk }

theorem formatter {before after : Session σ} (h : Grown before after) {index : Nat}
    {formatter : Formatter σ} (hf : before.formatters[index]? = some formatter) :
    after.formatters[index]? = some formatter := by
  obtain ⟨more, -, hmore⟩ := h.formatters
  obtain ⟨hlt, -⟩ := List.getElem?_eq_some_iff.1 hf
  rw [hmore, List.getElem?_append_left hlt, hf]

end Grown

/-! ## The parts of a plan -/

theorem grown_addConsole (session : Session σ) : Grown session session.addConsole.2 :=
  { Grown.refl session with outlets := ⟨1, rfl⟩ }

theorem grown_addRouter (session : Session σ) (endpoint : Endpoint) :
    Grown session (session.addRouter (.toAll endpoint)).2 :=
  { Grown.refl session with
    routers := ⟨[.toAll endpoint], List.forall_mem_singleton.2 ⟨endpoint, rfl⟩, rfl⟩ }

theorem grown_addTemplate (session : Session σ) (template : Option Text) :
    Grown session (session.addTemplate template).2 :=
  { Grown.refl session with
    formatters := ⟨[.format (makeFormat template none)], List.forall_mem_singleton.2 rfl, rfl⟩ }

theorem grown_wrap (session : Session σ) (sink : Nat) : Grown session (session.wrap sink).2 :=
  { Grown.refl session with }

theorem grown_addWrapped (session : Session σ) (sink : Nat) :
    Grown session (session.addWrapped sink).2 :=
  (session.grown_wrap sink).trans (grown_addRouter _ _)

theorem grown_planFormatter {session after : Session σ} {plan : Plan} {start : Plan.Start}
    {formatter : Nat} (h : session.planFormatter plan start = some (formatter, after)) :
    Grown session after := by
  unfold planFormatter at h
  cases hf : plan.formatter with
  | some handle =>
      rw [hf] at h
      obtain ⟨_, -, heq⟩ := Option.map_eq_some_iff.1 h
      cases heq
      exact .refl session
  | none =>
      rw [hf] at h
      cases h
      exact grown_addTemplate _ _

theorem grown_planRouter {session after : Session σ} {plan : Plan} {router : Nat}
    (h : session.planRouter plan = some (router, after)) : Grown session after := by
  unfold planRouter at h
  cases hr : plan.router with
  | some handle =>
      rw [hr] at h
      obtain ⟨_, -, heq⟩ := Option.map_eq_some_iff.1 h
      cases heq
      exact .refl session
  | none =>
      rw [hr] at h
      cases hs : plan.sink with
      | some handle =>
          rw [hs] at h
          obtain ⟨sink, -, heq⟩ := Option.map_eq_some_iff.1 h
          cases heq
          exact grown_addWrapped session sink
      | none =>
          rw [hs] at h
          cases h
          exact session.grown_addConsole.trans (grown_addRouter _ _)

theorem grown_planFallback {session after : Session σ} {plan : Plan} {fallback : Endpoint}
    (h : session.planFallback plan = some (fallback, after)) : Grown session after := by
  unfold planFallback at h
  cases hf : plan.fallback with
  | some handle =>
      rw [hf] at h
      obtain ⟨sink, -, heq⟩ := Option.map_eq_some_iff.1 h
      cases heq
      exact grown_wrap session sink
  | none =>
      rw [hf] at h
      cases h
      exact session.grown_addConsole

/-! ## What plans name -/

end Session

structure Plan.Resolved (plan : Plan) (session : Session σ) : Prop where
  formatter : ∀ handle ∈ plan.formatter, (session.formatterHandles.find? handle).isSome
  sink : ∀ handle ∈ plan.sink, (session.sinkHandles.find? handle).isSome
  router : ∀ handle ∈ plan.router, (session.routerHandles.find? handle).isSome
  fallback : ∀ handle ∈ plan.fallback, (session.sinkHandles.find? handle).isSome

namespace Plan.Resolved

variable {plan : Plan} {session : Session σ}

theorem grown (resolved : plan.Resolved session) {after : Session σ}
    (h : Session.Grown session after) : plan.Resolved after where
  formatter := h.formatterHandles ▸ resolved.formatter
  sink := h.sinkHandles ▸ resolved.sink
  router := h.routerHandles ▸ resolved.router
  fallback := h.sinkHandles ▸ resolved.fallback

theorem planFormatter (resolved : plan.Resolved session) (start : Plan.Start) :
    ∃ made, session.planFormatter plan start = some made := by
  rw [← Option.isSome_iff_exists]
  unfold Session.planFormatter
  cases hf : plan.formatter with
  | some handle => simpa using resolved.formatter handle hf
  | none => rfl

theorem planRouter (resolved : plan.Resolved session) :
    ∃ made, session.planRouter plan = some made := by
  rw [← Option.isSome_iff_exists]
  unfold Session.planRouter
  cases hr : plan.router with
  | some handle => simpa using resolved.router handle hr
  | none =>
      cases hs : plan.sink with
      | some handle => simpa using resolved.sink handle hs
      | none => rfl

theorem planFallback (resolved : plan.Resolved session) :
    ∃ made, session.planFallback plan = some made := by
  rw [← Option.isSome_iff_exists]
  unfold Session.planFallback
  cases hf : plan.fallback with
  | some handle => simpa using resolved.fallback handle hf
  | none => rfl

end Plan.Resolved

namespace Session

/-! ## The logger -/

def plannedSettings (plan : Plan) (start : Plan.Start) (formatter router : Nat)
    (fallback : Endpoint) : Settings :=
  { formatter, router, prefixText := plan.prefixText.getD start.prefixText,
    indent := plan.indent start, exit := plan.exit, fallback }

/-- A plan is refused, and nothing changes; or its parts are found or made, and the logger is
planted behind all others. -/
theorem makeLogger_cases (session : Session σ) (handle : String) (plan : Plan) :
    ((∃ failure, (session.makeLogger handle plan).1 = .error failure) ∧
        (session.makeLogger handle plan).2 = session) ∨
      ∃ start formatter router fallback first second third,
        plan.start = .ok start ∧
          session.planFormatter plan start = some (formatter, first) ∧
          first.planRouter plan = some (router, second) ∧
          second.planFallback plan = some (fallback, third) ∧
          session.makeLogger handle plan =
            { third with
              loggers := third.loggers.plant handle (plan.level.getD start.level)
                (plannedSettings plan start formatter router fallback) }.done := by
  unfold makeLogger
  cases hs : plan.start with
  | error refusal => cases refusal <;> exact .inl ⟨⟨_, rfl⟩, rfl⟩
  | ok start =>
      cases hformatter : session.planFormatter plan start with
      | none => exact .inl ⟨⟨.misuse, by simp [hformatter, misused]⟩, by simp [hformatter, misused]⟩
      | some found =>
      obtain ⟨formatter, first⟩ := found
      cases hrouter : first.planRouter plan with
      | none =>
          exact .inl ⟨⟨.misuse, by simp [hformatter, hrouter, misused]⟩,
            by simp [hformatter, hrouter, misused]⟩
      | some found =>
      obtain ⟨router, second⟩ := found
      cases hfallback : second.planFallback plan with
      | none =>
          exact .inl ⟨⟨.misuse, by simp [hformatter, hrouter, hfallback, misused]⟩,
            by simp [hformatter, hrouter, hfallback, misused]⟩
      | some found =>
      obtain ⟨fallback, third⟩ := found
      refine .inr ⟨start, formatter, router, fallback, first, second, third, rfl, hformatter,
        hrouter, hfallback, ?_⟩
      simp only [hformatter, hrouter, hfallback, Option.bind_eq_bind, Option.bind_some]
      rfl

/-- A plan that can start makes its logger when all that it names is there. -/
theorem makeLogger_of_resolved {session : Session σ} {plan : Plan}
    (resolved : plan.Resolved session)
    {start : Plan.Start} (hs : plan.start = .ok start) (handle : String) :
    (session.makeLogger handle plan).1 = .ok .done := by
  obtain ⟨⟨formatter, first⟩, hformatter⟩ := resolved.planFormatter start
  have hfirst := resolved.grown (grown_planFormatter hformatter)
  obtain ⟨⟨router, second⟩, hrouter⟩ := hfirst.planRouter
  have hsecond := hfirst.grown (grown_planRouter hrouter)
  obtain ⟨⟨fallback, third⟩, hfallback⟩ := hsecond.planFallback
  simp only [makeLogger, hs, hformatter, hrouter, hfallback, Option.bind_eq_bind, Option.bind_some]
  rfl

end Session

end Logbook
