import Logbook.Proofs.Announcements
import Logbook.Proofs.ForestSettings
import Logbook.Proofs.LoggerMoves

/-!
# Exits

The exits of a run, in order: one after each fatal record, with the action that was last set on the
logger, else the one that its parent had when the logger was made, else the one that it was planned
with.
-/

namespace Logbook

variable {σ : Type}

/-! ## Where exits come from -/

/-- The exits that loggers were made with, in the order of the loggers, and those that were set on
them later, the last one first. -/
structure ExitHistory where
  origins : List ExitAction := []
  changes : List (Nat × ExitAction) := []

namespace ExitHistory

/-- The exit that was last set on a logger, else the one that it was made with. -/
def inEffect? (history : ExitHistory) (logger : Nat) : Option ExitAction :=
  ((history.changes.find? fun change => change.1 = logger).map Prod.snd).or history.origins[logger]?

/-- The history after an act: a planned logger begins with the exit of its plan, a child with that
of its parent. -/
def next (history : ExitHistory) (session : Session σ) : Act σ → ExitHistory
  | .logger (.make handle plan) =>
      match (session.makeLogger handle plan).1 with
      | .ok _ => { history with origins := history.origins ++ [plan.exit] }
      | .error _ => history
  | .logger (.branch _ parent _) =>
      let inherited := (session.loggers.find? parent).bind history.inEffect?
      { history with origins := history.origins ++ inherited.toList }
  | .logger (.setExit handle action) =>
      { history with
        changes := ((session.loggers.find? handle).map (·, action)).toList ++ history.changes }
  | _ => history

def fatal? (history : ExitHistory) : Act σ → Option (Nat × Option ExitAction)
  | .make logger .fatal _ _ _ => some (logger, history.inEffect? logger)
  | _ => none

/-- The loggers of the fatal records of acts done one after the other, and the exits in effect on
them at that time. -/
def fatals : ExitHistory → Session σ → List (Act σ) → List (Nat × Option ExitAction)
  | _, _, [] => []
  | history, session, act :: rest =>
      (history.fatal? act).toList ++
        fatals (history.next session act) (session.perform act) rest

structure Tells (history : ExitHistory) (session : Session σ) : Prop where
  exits : ∀ logger, history.inEffect? logger = (session.loggers.settings? logger).map Settings.exit
  length : history.origins.length = session.loggers.instances.length
  shaped : ∃ parents, session.loggers.Shaped parents

theorem tells_fresh (own : σ) : Tells {} (Session.fresh own) where
  exits _ := rfl
  length := rfl
  shaped := ⟨[], Forest.shaped_empty⟩

theorem inEffect?_change (history : ExitHistory) (changed : Nat) (action : ExitAction)
    (logger : Nat) :
    inEffect? { history with changes := (changed, action) :: history.changes } logger =
      if changed = logger then some action else history.inEffect? logger := by
  unfold inEffect?
  by_cases h : changed = logger <;> simp [h]

end ExitHistory

/-! ## What an act does to exits -/

namespace Forest

structure SameExits (before after : Forest Settings) : Prop where
  exits : ∀ logger, (after.settings? logger).map Settings.exit =
    (before.settings? logger).map Settings.exit
  length : after.instances.length = before.instances.length

theorem sameExits_of_instances {before after : Forest Settings}
    (h : after.instances = before.instances) : SameExits before after where
  exits logger := by rw [settings?_of_instances h]
  length := by rw [h]

theorem sameExits_through {forest : Forest Settings} {handle : String} {act : Nat → Forest Settings}
    (h : ∀ index, SameExits forest (act index)) : SameExits forest (forest.through handle act) := by
  unfold through
  split
  · exact sameExits_of_instances rfl
  · exact h _

theorem sameExits_modifySettings {change : Settings → Settings}
    (h : ∀ settings, (change settings).exit = settings.exit) (forest : Forest Settings)
    (index : Nat) : SameExits forest (forest.modifySettings index change) where
  exits logger := by
    rw [settings?_modifySettings, Option.map_map]
    congr 1
    funext settings
    by_cases hi : index = logger <;> simp [hi, h]
  length := by simp [modifySettings, modify]

theorem sameExits_setLevel (forest : Forest Settings) (index : Nat) (level : Level) :
    SameExits forest (forest.setLevel index level) where
  exits logger := by rw [settings?_setLevel]
  length := forest.length_setLevel index level

def Move.KeepsExits : Move Settings → Prop
  | .plant .. => False
  | .branch .. => False
  | .modifySettings _ change => ∀ settings, (change settings).exit = settings.exit
  | _ => True

theorem sameExits_move {step : Move Settings} (forest : Forest Settings) (h : step.KeepsExits) :
    SameExits forest (forest.move step) := by
  cases step with
  | plant handle level settings => exact h.elim
  | branch handle parent settings => exact h.elim
  | share handle source => exact sameExits_through fun index => sameExits_of_instances rfl
  | drop handle => exact sameExits_of_instances rfl
  | setLevel handle level =>
      exact sameExits_through fun index => forest.sameExits_setLevel index level
  | modifySettings handle change =>
      exact sameExits_through fun index => sameExits_modifySettings h forest index
  | enter handle => exact sameExits_through fun index => sameExits_of_instances rfl
  | leave => exact sameExits_of_instances rfl

end Forest

namespace Session

theorem sameExits_of_move? {session : Session σ} {act : Act σ}
    (h : ∀ step ∈ session.move? act,
      session.loggers.SameExits (session.loggers.move step)) :
    session.loggers.SameExits (session.perform act).loggers := by
  rw [loggers_perform]
  cases hm : session.move? act with
  | none => exact Forest.sameExits_of_instances rfl
  | some step => exact h step hm

end Session

namespace ExitHistory

variable {history : ExitHistory} {session : Session σ}

theorem Tells.same (tells : history.Tells session) {act : Act σ}
    (h : session.loggers.SameExits (session.perform act).loggers) :
    history.Tells (session.perform act) where
  exits logger := by rw [tells.exits, h.exits]
  length := by rw [tells.length, h.length]
  shaped := Session.shaped_perform tells.shaped act

theorem Tells.made (tells : history.Tells session) {act : Act σ} (settings : Settings)
    (h : ∀ logger, (session.perform act).loggers.settings? logger =
      if logger = session.loggers.instances.length then some settings
      else session.loggers.settings? logger)
    (hlength : (session.perform act).loggers.instances.length =
      session.loggers.instances.length + 1) :
    Tells { history with origins := history.origins ++ [settings.exit] } (session.perform act) where
  exits logger := by
    have hold := tells.exits logger
    have hchange : ∀ found, history.changes.find? (fun change => change.1 = logger) = some found →
        logger < session.loggers.instances.length := by
      intro found hfound
      rw [inEffect?, hfound] at hold
      have hsome : (session.loggers.settings? logger).isSome = true := by
        cases hs : session.loggers.settings? logger with
        | none => simp [hs] at hold
        | some settings => rfl
      exact Forest.settings?_isSome_iff.1 hsome
    rw [h]
    unfold inEffect? at hold ⊢
    rw [← tells.length] at hchange ⊢
    cases hfind : history.changes.find? (fun change => change.1 = logger) with
    | some found =>
        have hlt := hchange found hfind
        rw [hfind] at hold
        simpa [Nat.ne_of_lt hlt] using hold
    | none =>
        rw [hfind] at hold
        by_cases hnew : logger = history.origins.length
        · simp [hnew]
        · simp only [hnew, if_false, ← hold, Option.map_none, Option.none_or]
          rcases Nat.lt_or_ge logger history.origins.length with hlt | hge
          · rw [List.getElem?_append_left hlt]
          · rw [List.getElem?_eq_none (by simp; omega), List.getElem?_eq_none hge]
  length := by
    rw [hlength, ← tells.length]
    exact List.length_append
  shaped := Session.shaped_perform tells.shaped act

theorem Tells.make (tells : history.Tells session) (handle : String) (plan : Plan) :
    (history.next session (.logger (.make handle plan))).Tells
      (session.perform (.logger (.make handle plan))) := by
  obtain ⟨⟨failure, hfailure⟩, hsame⟩ | ⟨start, formatter, router, fallback, first, second, third,
    -, hformatter, hrouter, hfallback, heq⟩ := session.makeLogger_cases handle plan
  · have hloggers : (session.perform (.logger (.make handle plan))).loggers = session.loggers := by
      change (session.makeLogger handle plan).2.loggers = session.loggers
      rw [hsame]
    simp only [next, hfailure]
    exact tells.same (hloggers ▸ Forest.sameExits_of_instances rfl)
  · have hgrown := ((Session.grown_planFormatter hformatter).trans
      (Session.grown_planRouter hrouter)).trans (Session.grown_planFallback hfallback)
    have hloggers : (session.perform (.logger (.make handle plan))).loggers =
        session.loggers.plant handle (plan.level.getD start.level)
          (Session.plannedSettings plan start formatter router fallback) := by
      rw [← hgrown.loggers]
      exact congrArg (fun result => result.2.loggers) heq
    simp only [next, heq, Session.done]
    refine tells.made (Session.plannedSettings plan start formatter router fallback)
      (fun logger => ?_) ?_
    · rw [hloggers, Forest.settings?_plant]
    · rw [hloggers]
      simp [Forest.plant]

theorem Tells.branch (tells : history.Tells session) (handle parent : String)
    (prefixText : Option Text) :
    (history.next session (.logger (.branch handle parent prefixText))).Tells
      (session.perform (.logger (.branch handle parent prefixText))) := by
  have hloggers : (session.perform (.logger (.branch handle parent prefixText))).loggers = _ :=
    session.loggers_perform _
  simp only [Session.move?, Session.loggerMove?] at hloggers
  simp only [next]
  cases hs : (session.loggers.find? parent).bind session.loggers.settings? with
  | none =>
      have hnone : (session.loggers.find? parent).bind history.inEffect? = none := by
        cases hfind : session.loggers.find? parent with
        | none => rfl
        | some index =>
            rw [hfind] at hs
            simpa [tells.exits] using hs
      rw [hs] at hloggers
      rw [hnone, Option.toList_none, List.append_nil]
      exact tells.same (hloggers ▸ Forest.sameExits_of_instances rfl)
  | some settings =>
      obtain ⟨index, hfind, hindex⟩ := Option.bind_eq_some_iff.1 hs
      have hsome : (session.loggers.find? parent).bind history.inEffect? = some settings.exit := by
        rw [hfind, Option.bind_some, tells.exits, hindex]
        rfl
      rw [hs] at hloggers
      simp only [Option.map_some, Forest.move, Forest.through, hfind] at hloggers
      rw [hsome]
      refine tells.made { settings with prefixText := prefixText.getD [] }
        (fun logger => ?_) ?_
      · rw [hloggers, Forest.settings?_branch hindex]
      · obtain ⟨logger, hlogger, -⟩ := Option.map_eq_some_iff.1 hindex
        have hlevel : session.loggers.level? index = some logger.level := by
          rw [Forest.level?, hlogger]
          rfl
        rw [hloggers, (Forest.sprouts_branch hlevel handle _).length]

theorem Tells.setExit (tells : history.Tells session) (handle : String) (action : ExitAction) :
    (history.next session (.logger (.setExit handle action))).Tells
      (session.perform (.logger (.setExit handle action))) := by
  have hloggers : (session.perform (.logger (.setExit handle action))).loggers = _ :=
    session.loggers_perform _
  simp only [Session.move?, Session.loggerMove?, Forest.move, Forest.through] at hloggers
  simp only [next]
  cases hfind : session.loggers.find? handle with
  | none =>
      rw [hfind] at hloggers
      exact tells.same (hloggers ▸ Forest.sameExits_of_instances rfl)
  | some index =>
      rw [hfind] at hloggers
      obtain ⟨parents, shaped⟩ := tells.shaped
      have hmade := shaped.made index (Forest.mem_living_of_find? hfind)
      refine ⟨fun logger => ?_, ?_, Session.shaped_perform tells.shaped _⟩
      · rw [hloggers, Forest.settings?_modifySettings]
        refine (inEffect?_change history index action logger).trans ?_
        rw [tells.exits]
        by_cases h : index = logger
        · subst h
          obtain ⟨settings, hsettings⟩ :=
            Option.isSome_iff_exists.1 (Forest.settings?_isSome_iff.2 hmade)
          simp [hsettings]
        · simp [h]
      · rw [hloggers]
        simpa [Forest.modifySettings, Forest.modify] using tells.length

theorem Tells.keep (tells : history.Tells session) {act : Act σ}
    (hmove : ∀ step ∈ session.move? act, step.KeepsExits) : history.Tells (session.perform act) :=
  tells.same (Session.sameExits_of_move? fun step hstep =>
    session.loggers.sameExits_move (hmove step hstep))

theorem Tells.keepWith (tells : history.Tells session) {α : Type} {act : Act σ} {needed : Option α}
    {step : α → Forest.Move Settings} (hmove : session.move? act = needed.map step)
    (h : ∀ found, (step found).KeepsExits) : history.Tells (session.perform act) :=
  tells.keep fun move hm => by
    rw [hmove] at hm
    obtain ⟨found, -, rfl⟩ := Option.map_eq_some_iff.1 hm
    exact h found

theorem Tells.perform (tells : history.Tells session) (act : Act σ) :
    (history.next session act).Tells (session.perform act) := by
  cases act with
  | logger command =>
      cases command with
      | make handle plan => exact tells.make handle plan
      | branch handle parent prefixText => exact tells.branch handle parent prefixText
      | setExit handle action => exact tells.setExit handle action
      | describe handle => exact tells.keep (by rintro step ⟨⟩)
      | flush handle => exact tells.keep (by rintro step ⟨⟩)
      | share handle source => exact tells.keep (by rintro step ⟨⟩; trivial)
      | setLevel handle level => exact tells.keep (by rintro step ⟨⟩; trivial)
      | setPrefix handle prefixText => exact tells.keep (by rintro step ⟨⟩; exact fun _ => rfl)
      | setIndent handle indent => exact tells.keep (by rintro step ⟨⟩; exact fun _ => rfl)
      | setTemplate handle template => exact tells.keep (by rintro step ⟨⟩; exact fun _ => rfl)
      | drop handle => exact tells.keepWith rfl fun _ => trivial
      | setFormatter handle formatter => exact tells.keepWith rfl fun _ _ => rfl
      | setSink handle sink => exact tells.keepWith rfl fun _ _ => rfl
      | setRouter handle router => exact tells.keepWith rfl fun _ _ => rfl
      | setFallback handle sink => exact tells.keepWith rfl fun _ _ => rfl
  | enter handle => exact tells.keep (by rintro step ⟨⟩; trivial)
  | make logger entry site instant message => exact tells.keep (by rintro step ⟨⟩; trivial)
  | _ => exact tells.keep (by rintro step ⟨⟩)

end ExitHistory

/-! ## Records are made by loggers that are there -/

namespace Session

def HasMaker (session : Session σ) : Act σ → Prop
  | .make logger _ _ _ _ => logger < session.loggers.instances.length
  | _ => True

/-- The loggers of the records that acts make are there when these are made. -/
def HaveMakers : Session σ → List (Act σ) → Prop
  | _, [] => True
  | session, act :: rest => session.HasMaker act ∧ HaveMakers (session.perform act) rest

theorem HaveMakers.append {session : Session σ} {first second : List (Act σ)}
    (h : HaveMakers session first) (h' : HaveMakers (session.performAll first) second) :
    HaveMakers session (first ++ second) := by
  induction first generalizing session with
  | nil => exact h'
  | cons act rest ih => exact ⟨h.1, ih h.2 h'⟩

mutual

theorem haveMakers_acts : ∀ (command : Command σ) (session : Session σ),
    (∃ parents, session.loggers.Shaped parents) → HaveMakers session (acts command session)
  | .sink _, _, _ => ⟨trivial, trivial⟩
  | .router _, _, _ => ⟨trivial, trivial⟩
  | .format _, _, _ => ⟨trivial, trivial⟩
  | .memo _, _, _ => ⟨trivial, trivial⟩
  | .logger _, _, _ => ⟨trivial, trivial⟩
  | .log handle entry site instant message effects, session, shaped => by
      unfold acts
      cases hfind : session.loggers.find? handle with
      | none => trivial
      | some logger =>
          dsimp only
          split
          · have hentered := shaped_perform shaped (.enter handle)
            have hperform : session.perform (.enter handle) = session.enter logger := by
              simp only [perform, hfind]
            rw [hperform] at hentered
            have heffects := haveMakers_actsAll effects (session.enter logger) hentered
            obtain ⟨parents, hshaped⟩ := shaped
            have hlogger : logger < session.loggers.instances.length :=
              hshaped.made logger (Forest.mem_living_of_find? hfind)
            have hlater := length_loggers_performAll hentered
              (actsAll effects (session.enter logger))
            rw [List.cons_append]
            refine ⟨trivial, ?_⟩
            rw [hperform]
            exact heffects.append ⟨Nat.lt_of_lt_of_le hlogger hlater, trivial⟩
          · trivial
  | .discard, _, _ => trivial

theorem haveMakers_actsAll : ∀ (commands : List (Command σ)) (session : Session σ),
    (∃ parents, session.loggers.Shaped parents) → HaveMakers session (actsAll commands session)
  | [], _, _ => trivial
  | command :: rest, session, shaped => by
      unfold actsAll
      refine (haveMakers_acts command session shaped).append ?_
      rw [performAll_acts]
      refine haveMakers_actsAll rest _ ?_
      rw [← performAll_acts]
      exact shaped_performAll shaped _

end

end Session

/-! ## Exits taken -/

def Event.exited? : Event → Option (Nat × ExitAction × Nat)
  | .exited logger action code => some (logger, action, code)
  | _ => none

theorem blind_exited? : Blind Event.exited? := fun _ _ => rfl

/-- What a logger announces of a record besides its exit is no exit. -/
theorem Attempt.filterMap_exited? (attempt : Attempt) :
    attempt.events.filterMap Event.exited? =
      match attempt.entry with
      | .leveled _ => []
      | .fatal => [(attempt.logger, attempt.settings.exit, 1)] := by
  unfold events emitted exit?
  cases attempt.report? <;> cases attempt.entry <;> rfl

namespace Session

def exited (session : Session σ) : List (Nat × ExitAction × Nat) := session.seen Event.exited?

/-- An exit that was taken, as one that the logger is known to have. -/
def known (exit : Nat × ExitAction × Nat) : Nat × Option ExitAction × Nat :=
  (exit.1, some exit.2.1, exit.2.2)

theorem exited_perform {history : ExitHistory} {session : Session σ}
    (tells : history.Tells session) {act : Act σ} (makers : session.HasMaker act) :
    (session.perform act).exited.map known =
      session.exited.map known ++ (history.fatal? act).toList.map fun found =>
        (found.1, found.2, 1) := by
  have hseen := seen_perform blind_exited? session act
  unfold exited
  rw [hseen, List.map_append]
  congr 1
  cases act with
  | make logger entry site instant message =>
      obtain ⟨settings, hsettings⟩ :=
        Option.isSome_iff_exists.1 (Forest.settings?_isSome_iff.2 makers)
      simp only [attempt?, hsettings, Option.map_some, Option.toList_some, List.flatMap_singleton,
        Attempt.filterMap_exited?]
      cases entry with
      | leveled level => rfl
      | fatal => simp [ExitHistory.fatal?, tells.exits, hsettings, attempted, known]
  | _ => rfl

theorem exited_performAll {history : ExitHistory} {session : Session σ}
    (tells : history.Tells session) {acts : List (Act σ)} (makers : HaveMakers session acts) :
    (session.performAll acts).exited.map known =
      session.exited.map known ++ (history.fatals session acts).map fun found =>
        (found.1, found.2, 1) := by
  induction acts generalizing history session with
  | nil => exact (List.append_nil _).symm
  | cons act rest ih =>
      have hrest := ih (tells.perform act) makers.2
      rw [performAll, List.foldl_cons, ← performAll, hrest, exited_perform tells makers.1,
        ExitHistory.fatals, List.map_append, List.append_assoc]

/-- A fatal record is one that is logged at the level, with an exit behind it. -/
theorem deliver_fatal {session : Session σ} {logger : Nat} {settings : Settings}
    (h : session.loggers.settings? logger = some settings) (site : Option CallSite)
    (instant : Time.Instant) (message : Text) :
    session.deliver logger .fatal site instant message =
      (session.deliver logger (.leveled .fatal) site instant message).note
        (.exited logger settings.exit 1) := by
  obtain ⟨outlets, formatters, desk, hframe⟩ :=
    session.deliver_frame logger (.leveled .fatal) site instant message
  have hafter : (session.deliver logger (.leveled .fatal) site instant message).loggers.settings?
      logger = some settings := by
    rw [hframe]
    exact h
  change (session.deliver logger (.leveled .fatal) site instant message).exit logger = _
  rw [exit, hafter]
  rfl

/-- A fatal record is announced as it is handed over, as a report if the router fails, and as an
exit behind these. -/
theorem announced_deliver_fatal {session : Session σ} {logger : Nat} {settings : Settings}
    (h : session.loggers.settings? logger = some settings) (site : Option CallSite)
    (instant : Time.Instant) (message : Text) :
    (session.deliver logger .fatal site instant message).seen Event.announced? =
      session.seen Event.announced? ++
        (session.attempted logger settings .fatal site instant message).emitted ++
          [.exited logger settings.exit 1] := by
  have hseen := seen_deliver blind_announced? session logger .fatal site instant message
  rw [hseen, List.append_assoc]
  simp only [attempt?, h, Option.map_some, Option.toList_some, List.flatMap_singleton,
    Attempt.filterMap_announced?]
  rfl

/-- The exits of a run are one for each fatal record, in order, each with the action in effect on
its logger at that time and the code one. In every state a fatal call passes the gate; its record is
made as by a call at the level, handed over and reported if that fails, and the exit comes behind
it; the call at the level takes no exit. -/
theorem exits_of_fatal (own : σ) (commands : List (Command σ)) :
    (execAll commands (fresh own)).exited.map known =
        (ExitHistory.fatals {} (fresh own) (actsAll commands (fresh own))).map
          (fun found => (found.1, found.2, 1)) ∧
      ∀ (now : Session σ) (handle : String) (logger : Nat) (settings : Settings)
          (site : Option CallSite) (instant : Time.Instant) (message : Text)
          (effects : List (Command σ)),
        now.loggers.find? handle = some logger →
          now.loggers.settings? logger = some settings →
            acts (.log handle .fatal site instant message effects) now =
                .enter handle :: actsAll effects (now.enter logger) ++
                  [.make logger .fatal site instant message] ∧
              now.deliver logger .fatal site instant message =
                (now.deliver logger (.leveled .fatal) site instant message).note
                  (.exited logger settings.exit 1) ∧
              (now.deliver logger .fatal site instant message).seen Event.announced? =
                now.seen Event.announced? ++
                  (now.attempted logger settings .fatal site instant message).emitted ++
                    [.exited logger settings.exit 1] ∧
              (now.deliver logger (.leveled .fatal) site instant message).exited =
                now.exited := by
  refine ⟨?_, ?_⟩
  · have makers := haveMakers_actsAll commands (fresh own) ⟨[], Forest.shaped_empty⟩
    rw [← performAll_actsAll, exited_performAll (ExitHistory.tells_fresh own) makers]
    rfl
  · intro now handle logger settings site instant message effects hfind hsettings
    refine ⟨?_, deliver_fatal hsettings site instant message,
      announced_deliver_fatal hsettings site instant message, ?_⟩
    · simp only [acts, hfind, admits, if_true]
    · have hseen := seen_deliver blind_exited? now logger (.leveled .fatal) site instant message
      refine hseen.trans ?_
      simp [attempt?, hsettings, Attempt.filterMap_exited?, attempted]
      rfl

def exiting : List (Command Unit) :=
  [.logger (.make "app" { exit := .notify "first".toList }), .logger (.branch "old" "app" none),
    .logger (.setExit "app" (.notify "second".toList)), .logger (.branch "new" "app" none),
    .log "old" .fatal none ⟨0, 0, 0⟩ "one".toList [],
    .log "new" (.leveled .fatal) none ⟨0, 0, 0⟩ "two".toList [],
    .log "new" .fatal none ⟨0, 0, 0⟩ "three".toList
      [.logger (.setExit "new" (.notify "third".toList))],
    .log "app" .fatal none ⟨0, 0, 0⟩ "four".toList []]

theorem exits_of_fatal_branched :
    (execAll exiting (fresh ())).exited.map known =
        [(1, some (.notify "first".toList), 1), (2, some (.notify "third".toList), 1),
          (0, some (.notify "second".toList), 1)] ∧
      ∃ settings, (execAll exiting (fresh ())).loggers.settings? 0 = some settings ∧
        ((execAll exiting (fresh ())).deliver 0 (.leveled .fatal) none ⟨0, 0, 0⟩ []).exited =
          (execAll exiting (fresh ())).exited := by
  obtain ⟨hrun, hcall⟩ := exits_of_fatal () exiting
  have hfind : (execAll exiting (fresh ())).loggers.find? "app" = some 0 := by decide +kernel
  obtain ⟨settings, hsettings⟩ : ∃ settings,
      (execAll exiting (fresh ())).loggers.settings? 0 = some settings :=
    Option.isSome_iff_exists.1 (by decide +kernel)
  refine ⟨?_, settings, hsettings, ?_⟩
  · rw [hrun]
    decide +kernel
  · exact (hcall _ "app" 0 settings none ⟨0, 0, 0⟩ [] [] hfind hsettings).2.2.2

end Session

end Logbook
