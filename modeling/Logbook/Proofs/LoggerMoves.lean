import Logbook.Proofs.ForestHistory
import Logbook.Proofs.Frames
import Logbook.Proofs.Making

/-!
# Moves of loggers

What the acts of a session do to its loggers, as moves of a forest. The loggers of a session after a
run are the forest after the moves of that run.
-/

namespace Logbook.Session

variable {σ : Type}

def loggerMove? (session : Session σ) : LoggerCommand → Option (Forest.Move Settings)
  | .make handle plan =>
      ((session.makeLogger handle plan).2.loggers.instance? session.loggers.instances.length).map
        fun logger => .plant handle logger.level logger.settings
  | .branch handle parent prefixText =>
      ((session.loggers.find? parent).bind session.loggers.settings?).map fun settings =>
        .branch handle parent { settings with prefixText := prefixText.getD [] }
  | .share handle source => some (.share handle source)
  | .drop handle => (session.loggers.find? handle).map fun _ => .drop handle
  | .describe _ => none
  | .setLevel handle level => some (.setLevel handle level)
  | .setPrefix handle prefixText => some (.modifySettings handle ({ · with prefixText }))
  | .setIndent handle indent => some (.modifySettings handle ({ · with indent }))
  | .setTemplate handle template =>
      some (.modifySettings handle
        ({ · with formatter := (session.addTemplate (some template)).1 }))
  | .setFormatter handle formatter =>
      (session.formatterHandles.find? formatter).map fun found =>
        .modifySettings handle ({ · with formatter := found.index })
  | .setSink handle sink =>
      (session.sinkHandles.find? sink).map fun sink =>
        .modifySettings handle ({ · with router := (session.addWrapped sink).1 })
  | .setRouter handle router =>
      (session.routerHandles.find? router).map fun router =>
        .modifySettings handle ({ · with router })
  | .setFallback handle sink =>
      (session.sinkHandles.find? sink).map fun sink =>
        .modifySettings handle ({ · with fallback := (session.wrap sink).1 })
  | .setExit handle action => some (.modifySettings handle ({ · with exit := action }))
  | .flush _ => none

def move? (session : Session σ) : Act σ → Option (Forest.Move Settings)
  | .logger command => session.loggerMove? command
  | .enter handle => some (.enter handle)
  | .make .. => some .leave
  | _ => none

def moves : Session σ → List (Act σ) → List (Forest.Move Settings)
  | _, [] => []
  | session, act :: rest => (session.move? act).toList ++ moves (session.perform act) rest

theorem loggers_makeLogger (session : Session σ) (handle : String) (plan : Plan) :
    (session.makeLogger handle plan).2.loggers =
      match session.loggerMove? (.make handle plan) with
      | some step => session.loggers.move step
      | none => session.loggers := by
  simp only [loggerMove?]
  obtain ⟨-, hsame⟩ | ⟨start, formatter, router, fallback, first, second, third, -, hformatter,
    hrouter, hfallback, heq⟩ := session.makeLogger_cases handle plan
  · have hnone : session.loggers.instance? session.loggers.instances.length = none :=
      List.getElem?_eq_none (Nat.le_refl _)
    rw [hsame, hnone]
    rfl
  · have hgrown := ((grown_planFormatter hformatter).trans (grown_planRouter hrouter)).trans
      (grown_planFallback hfallback)
    rw [heq]
    simp only [done, hgrown.loggers, Forest.instance?_plant, if_true, Option.map_some]
    rfl

/-- What a command does to the logger of a handle, it does to the forest. -/
theorem loggers_withLogger (session : Session σ) (handle : String) {act : Nat → Result σ}
    {step : Nat → Forest Settings} (h : ∀ index, (act index).2.loggers = step index) :
    (session.withLogger handle act).2.loggers = session.loggers.through handle step := by
  unfold withLogger Forest.through
  cases session.loggers.find? handle with
  | none => rfl
  | some index => exact h index

theorem loggers_withLogger_same (session : Session σ) (handle : String) {act : Nat → Result σ}
    (h : ∀ index, (act index).2.loggers = session.loggers) :
    (session.withLogger handle act).2.loggers = session.loggers := by
  rw [session.loggers_withLogger handle h, Forest.through]
  split <;> rfl

/-- A command that changes the settings of one logger moves the forest by that change, whatever else
it has added to the session. -/
theorem loggers_changed (session : Session σ) (handle : String) (ready : Session σ)
    (h : ready.loggers = session.loggers) (change : Settings → Settings) :
    (session.withLogger handle fun index => (ready.changeSettings index change).done).2.loggers =
      session.loggers.move (.modifySettings handle change) :=
  session.loggers_withLogger handle fun index => by simp only [done, changeSettings, h]

/-- A command that changes the settings to something that it looks up moves the forest only if that
is found. -/
theorem loggers_changed_to {α : Type} {session : Session σ} (handle : String) {found? : Option α}
    {act : Nat → Result σ} {change : α → Settings → Settings}
    (hnone : found? = none → ∀ index, (act index).2.loggers = session.loggers)
    (hsome : ∀ found, found? = some found → ∀ index,
      (act index).2.loggers = session.loggers.modifySettings index (change found)) :
    (session.withLogger handle act).2.loggers =
      match found?.map fun found => Forest.Move.modifySettings handle (change found) with
      | some step => session.loggers.move step
      | none => session.loggers := by
  cases found? with
  | none => exact session.loggers_withLogger_same handle (hnone rfl)
  | some found => exact session.loggers_withLogger handle (hsome found rfl)

theorem loggers_branchLogger (session : Session σ) (handle parent : String)
    (prefixText : Option Text) :
    (session.branchLogger handle parent prefixText).2.loggers =
      match session.loggerMove? (.branch handle parent prefixText) with
      | some step => session.loggers.move step
      | none => session.loggers := by
  simp only [branchLogger, withLogger, loggerMove?, Forest.move, Forest.through]
  cases hfind : session.loggers.find? parent with
  | none => rfl
  | some index =>
      simp only [Option.bind_some]
      cases session.loggers.settings? index with
      | none => rfl
      | some settings => simp only [done, Option.map_some, hfind]

theorem loggers_runLogger (session : Session σ) (command : LoggerCommand) :
    (session.runLogger command).2.loggers =
      match session.loggerMove? command with
      | some step => session.loggers.move step
      | none => session.loggers := by
  cases command with
  | make handle plan => exact session.loggers_makeLogger handle plan
  | branch handle parent prefixText => exact session.loggers_branchLogger handle parent prefixText
  | share handle source => exact session.loggers_withLogger source fun _ => rfl
  | drop handle =>
      simp only [runLogger, withLogger, loggerMove?, Forest.move]
      cases session.loggers.find? handle <;> rfl
  | describe handle =>
      refine session.loggers_withLogger_same handle fun index => ?_
      unfold describeLoggerAt
      split <;> rfl
  | setLevel handle level => exact session.loggers_withLogger handle fun _ => rfl
  | setPrefix handle prefixText => exact session.loggers_changed handle session rfl _
  | setIndent handle indent => exact session.loggers_changed handle session rfl _
  | setTemplate handle template =>
      exact session.loggers_changed handle (session.addTemplate (some template)).2 rfl _
  | setFormatter handle formatter =>
      exact loggers_changed_to handle (fun h _ => by simp only [h]; rfl)
        fun found h _ => by simp only [h]; rfl
  | setSink handle sink =>
      exact loggers_changed_to handle (fun h _ => by simp only [h]; rfl)
        fun found h _ => by simp only [h]; rfl
  | setRouter handle router =>
      exact loggers_changed_to handle (fun h _ => by simp only [h]; rfl)
        fun found h _ => by simp only [h]; rfl
  | setFallback handle sink =>
      exact loggers_changed_to handle (fun h _ => by simp only [h]; rfl)
        fun found h _ => by simp only [h]; rfl
  | setExit handle action => exact session.loggers_changed handle session rfl _
  | flush handle =>
      refine session.loggers_withLogger_same handle fun index => ?_
      dsimp only
      split <;> rfl

theorem loggers_perform (session : Session σ) (act : Act σ) :
    (session.perform act).loggers =
      match session.move? act with
      | some step => session.loggers.move step
      | none => session.loggers := by
  cases act with
  | sink command =>
      obtain ⟨outlets, sinkHandles, h⟩ := session.runSink_frame command
      simp only [perform, move?, release, h]
  | router command =>
      obtain ⟨outlets, routers, routerHandles, wrappers, h⟩ := session.runRouter_frame command
      simp only [perform, move?, release, h]
  | format command =>
      obtain ⟨formatters, formatterHandles, desk, h⟩ := session.runFormat_frame command
      simp only [perform, move?, release, h]
  | memo command =>
      obtain ⟨desk, h⟩ := session.runMemo_frame command
      simp only [perform, move?, release, h]
  | logger command => exact session.loggers_runLogger command
  | enter handle =>
      simp only [perform, move?, Forest.move, Forest.through]
      cases session.loggers.find? handle <;> rfl
  | make logger entry site instant message =>
      obtain ⟨outlets, formatters, desk, h⟩ :=
        session.deliver_frame logger entry site instant message
      simp only [perform, move?, release, h]
      rfl

theorem loggers_performAll (session : Session σ) (acts : List (Act σ)) :
    (session.performAll acts).loggers = (session.moves acts).foldl Forest.move session.loggers := by
  induction acts generalizing session with
  | nil => rfl
  | cons act rest ih =>
      rw [performAll, List.foldl_cons, ← performAll, ih, moves, List.foldl_append, loggers_perform]
      cases session.move? act <;> rfl

theorem shaped_perform {session : Session σ} (h : ∃ parents, session.loggers.Shaped parents)
    (act : Act σ) : ∃ parents, (session.perform act).loggers.Shaped parents := by
  obtain ⟨parents, shaped⟩ := h
  rw [loggers_perform]
  cases session.move? act with
  | none => exact ⟨parents, shaped⟩
  | some step =>
      let chronicle : Chronicle Settings := { forest := session.loggers, parents }
      have shaped : chronicle.forest.Shaped chronicle.parents := shaped
      exact ⟨_, Chronicle.shaped_move shaped step⟩

theorem length_loggers_perform {session : Session σ}
    (h : ∃ parents, session.loggers.Shaped parents) (act : Act σ) :
    session.loggers.instances.length ≤ (session.perform act).loggers.instances.length := by
  obtain ⟨parents, shaped⟩ := h
  rw [loggers_perform]
  cases session.move? act with
  | none => exact Nat.le_refl _
  | some step =>
      let chronicle : Chronicle Settings := { forest := session.loggers, parents }
      have shaped : chronicle.forest.Shaped chronicle.parents := shaped
      change chronicle.forest.instances.length ≤ (chronicle.move step).forest.instances.length
      obtain ⟨still, -, -⟩ | ⟨parent?, level, sprouts, -, -, -⟩ | ⟨index, level, -, heq⟩ :=
        Chronicle.move_cases shaped step
      · exact Nat.le_of_eq still.length.symm
      · rw [sprouts.length]
        exact Nat.le_succ _
      · rw [heq]
        exact Nat.le_of_eq (Forest.length_setLevel _ index level).symm

theorem shaped_performAll {session : Session σ} (h : ∃ parents, session.loggers.Shaped parents)
    (acts : List (Act σ)) : ∃ parents, (session.performAll acts).loggers.Shaped parents := by
  induction acts generalizing session with
  | nil => exact h
  | cons act rest ih => exact ih (shaped_perform h act)

theorem length_loggers_performAll {session : Session σ}
    (h : ∃ parents, session.loggers.Shaped parents) (acts : List (Act σ)) :
    session.loggers.instances.length ≤ (session.performAll acts).loggers.instances.length := by
  induction acts generalizing session with
  | nil => exact Nat.le_refl _
  | cons act rest ih =>
      exact Nat.le_trans (length_loggers_perform h act) (ih (shaped_perform h act))

def chronicle (own : σ) (commands : List (Command σ)) : Chronicle Settings :=
  Chronicle.run ((fresh own).moves (actsAll commands (fresh own)))

theorem forest_chronicle (own : σ) (commands : List (Command σ)) :
    (chronicle own commands).forest = (execAll commands (fresh own)).loggers := by
  rw [← performAll_actsAll, loggers_performAll]
  exact Chronicle.forest_after {} _

end Logbook.Session
