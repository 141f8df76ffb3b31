import Logbook.Proofs.LoggerMoves
import Logbook.Proofs.PairedRuns

/-!
# Isolation

Setting one logger otherwise shows on no other logger. Its formatter and its router stay shared with
whoever had them, and it gets others; what it is given reaches other loggers only through children
that are made later and through what is borrowed from it.
-/

namespace Logbook

variable {σ : Type}

/-! ## What comes behind -/

theorem Shift.moved_of_lt {shift : Shift} {index : Nat} (h : index < shift.start) :
    shift.moved index = index := if_pos h

/-- Everything that comes behind a list moves by what the other list has there already. -/
def Shift.behind {α : Type} (first second : List α) : Shift :=
  ⟨first.length, second.length - first.length⟩

theorem Shift.fits_behind {α : Type} (first more : List α) :
    (behind first (first ++ more)).Fits first.length (first ++ more).length where
  start := Nat.le_refl _
  width := by simp [behind]

theorem Shift.links_behind {α : Type} {first second : List α} {index : Nat}
    (h : index < first.length) : (behind first second).Links first.length index index :=
  ⟨h, (moved_of_lt h).symm⟩

theorem Formatter.Paired.behind {shift : Shift} {first second : List (Formatter σ)}
    (paired : Paired shift first second) (more : List (Formatter σ)) :
    Paired (.behind first (first ++ more)) first (first ++ more) where
  fits := Shift.fits_behind first more
  alike index formatter hat := by
    have hlt := (List.getElem?_eq_some_iff.1 hat).1
    obtain ⟨other, -, halike⟩ := paired.alike index formatter hat
    rw [Shift.moved_of_lt hlt, List.getElem?_append_left hlt]
    exact ⟨formatter, hat, .refl halike.settled⟩

namespace Session

/-! ## Setting one logger -/

/-- Routers and formatters came behind those that there were, and one logger was set otherwise. -/
structure SetsOnly (logger : Nat) (before after : Session σ) : Prop where
  outlets : after.outlets = before.outlets
  sinkHandles : after.sinkHandles = before.sinkHandles
  routers : ∃ more, after.routers = before.routers ++ more
  routerHandles : after.routerHandles = before.routerHandles
  formatters : ∃ more, after.formatters = before.formatters ++ more
  formatterHandles : after.formatterHandles = before.formatterHandles
  outline : after.loggers.outline = before.loggers.outline
  settings : ∀ index, index ≠ logger →
    after.loggers.settings? index = before.loggers.settings? index
  desk : after.desk = before.desk

namespace SetsOnly

theorem refl (logger : Nat) (session : Session σ) : SetsOnly logger session session :=
  ⟨rfl, rfl, ⟨[], (List.append_nil _).symm⟩, rfl, ⟨[], (List.append_nil _).symm⟩, rfl, rfl,
    fun _ _ => rfl, rfl⟩

/-- A change of settings after a growth in which no sink was made. -/
theorem of_grown {before grown : Session σ} (h : Grown before grown)
    (houtlets : grown.outlets = before.outlets) (logger : Nat) (change : Settings → Settings) :
    SetsOnly logger before (grown.changeSettings logger change) where
  outlets := houtlets
  sinkHandles := h.sinkHandles
  routers := by
    obtain ⟨more, -, hmore⟩ := h.routers
    exact ⟨more, hmore⟩
  routerHandles := h.routerHandles
  formatters := by
    obtain ⟨more, -, hmore⟩ := h.formatters
    exact ⟨more, hmore⟩
  formatterHandles := h.formatterHandles
  outline := by
    rw [changeSettings, Forest.outline_modifySettings, h.loggers]
  settings index hindex := by
    rw [changeSettings, Forest.settings?_modifySettings, h.loggers]
    simp [Ne.symm hindex]
  desk := h.desk

theorem runLogger {session : Session σ} {command : LoggerCommand} {handle : String} {logger : Nat}
    (sets : command.sets? = some handle) (hfind : session.loggers.find? handle = some logger) :
    SetsOnly logger session (session.runLogger command).2 := by
  have hsame := refl logger session
  have hchanged := of_grown (.refl session) rfl logger
  cases command <;> cases sets <;> simp only [Session.runLogger, withLogger, hfind]
  case setPrefix => exact hchanged _
  case setIndent => exact hchanged _
  case setTemplate template =>
      exact of_grown (session.grown_addTemplate (some template)) rfl logger _
  case setFormatter formatter =>
      cases session.formatterHandles.find? formatter with
      | none => exact hsame
      | some found => exact hchanged _
  case setSink sink =>
      cases session.sinkHandles.find? sink with
      | none => exact hsame
      | some found => exact of_grown (session.grown_addWrapped found) rfl logger _
  case setRouter router =>
      cases session.routerHandles.find? router with
      | none => exact hsame
      | some found => exact hchanged _
  case setFallback sink =>
      cases session.sinkHandles.find? sink with
      | none => exact hsame
      | some found => exact of_grown (session.grown_wrap found) rfl logger _
  case setExit => exact hchanged _

end SetsOnly

/-! ## Pairs of one session -/

theorem Apart.after_nothing (session : Session σ) (act : Act σ) :
    Apart.after {} session act = {} := by
  unfold after
  split
  · rfl
  · rfl
  · split
    · rfl
    · split
      · contradiction
      · split <;> rfl
  · rfl

theorem aloof_nothing (session : Session σ) (act : Act σ) : session.Aloof {} act := by
  simp [Aloof]

/-- A fresh session has nothing that could differ. -/
theorem paired_fresh (own : σ) : Paired {} {} (fresh own) (fresh own) where
  outlets := ⟨rfl, .refl _, by rintro place ⟨⟩⟩
  sinkHandles := rfl
  routers := ⟨Nat.le_refl 0, rfl⟩
  routerHandles _ := rfl
  routersMade := by rintro handle router ⟨⟩
  formatters := ⟨⟨Nat.le_refl 0, rfl⟩, by rintro index formatter ⟨⟩⟩
  formatterHandles _ _ := rfl
  formattersMade := by rintro handle - found ⟨⟩
  loggers := ⟨rfl, by rintro index - settings ⟨⟩⟩
  honest := Memo.honest_empty
  honest' := Memo.honest_empty

theorem Paired.alone {session : Session σ} (paired : Paired {} {} session session)
    {acts : List (Act σ)} (kept : ∀ act ∈ acts, act.Tame ∧ act.Steady) :
    Paired {} {} (session.performAll acts) (session.performAll acts) := by
  induction acts generalizing session with
  | nil => exact paired
  | cons act rest ih =>
      obtain ⟨⟨tame, steady⟩, hrest⟩ := List.forall_mem_cons.1 kept
      have hafter := paired.perform tame steady (session.aloof_nothing act)
      rw [Apart.after_nothing] at hafter
      exact ih hafter hrest

/-- Where routers and formatters are after some came that the other session does not have. -/
def displacement (before after : Session σ) : Renaming where
  routers := .behind before.routers after.routers
  formatters := .behind before.formatters after.formatters

/-- A session and what comes of it when one logger is set otherwise belong together. -/
theorem Paired.set {before after : Session σ} (paired : Paired {} {} before before) {logger : Nat}
    (h : SetsOnly logger before after) :
    Paired ⟨some logger, []⟩ (before.displacement after) before after where
  outlets := h.outlets ▸ paired.outlets
  sinkHandles := h.sinkHandles
  routers := by
    obtain ⟨more, hmore⟩ := h.routers
    simp only [displacement, hmore]
    exact Shift.fits_behind before.routers more
  routerHandles handle := by
    rw [h.routerHandles]
    cases hfind : before.routerHandles.find? handle with
    | none => rfl
    | some router =>
        exact congrArg some (Shift.moved_of_lt (paired.routersMade handle router hfind)).symm
  routersMade := paired.routersMade
  formatters := by
    obtain ⟨more, hmore⟩ := h.formatters
    simp only [displacement, hmore]
    exact paired.formatters.behind more
  formatterHandles handle _ := by
    rw [h.formatterHandles]
    cases hfind : before.formatterHandles.find? handle with
    | none => rfl
    | some found =>
        have hlt := paired.formattersMade handle List.not_mem_nil found hfind
        rw [Option.map_some, Shift.moved_of_lt hlt]
  formattersMade handle _ := paired.formattersMade handle List.not_mem_nil
  loggers :=
    { outline := h.outline
      settings := fun index hindex settings hsettings => by
        obtain ⟨other, -, linked⟩ := paired.loggers.settings index (by simp) settings hsettings
        rw [h.settings index fun heq => hindex (congrArg some heq)]
        exact ⟨settings, hsettings, Shift.links_behind linked.formatter.1,
          Shift.links_behind linked.router.1, rfl, rfl, rfl⟩ }
  honest := paired.honest
  honest' := h.desk ▸ paired.honest

/-! ## Reached states -/

/-- A state of a run with steady placeholders in which nothing is stored under the name of the
levels; it may lie inside of messages. -/
def ReachedSteadily (session : Session σ) : Prop :=
  ∃ own acts, (∀ act ∈ acts, act.Tame ∧ act.Steady) ∧ session = (fresh own).performAll acts

theorem ReachedSteadily.paired {session : Session σ} (reached : session.ReachedSteadily) :
    Paired {} {} session session := by
  obtain ⟨own, acts, kept, rfl⟩ := reached
  exact (paired_fresh own).alone kept

theorem ReachedSteadily.shaped {session : Session σ} (reached : session.ReachedSteadily) :
    ∃ parents, session.loggers.Shaped parents := by
  obtain ⟨own, acts, -, rfl⟩ := reached
  exact shaped_performAll ⟨[], Forest.shaped_empty⟩ acts

theorem seen_perform_logger {β : Type} (view : Event → Option β) (session : Session σ)
    (command : LoggerCommand) :
    (session.perform (.logger command)).seen view = session.seen view := by
  rw [perform, seen_release, seen_runLogger]

theorem seen_foreign_performAll (session : Session σ) (logger : Nat) (acts : List (Act σ)) :
    (session.performAll acts).seen (Event.foreign? logger) =
      session.seen (Event.foreign? logger) ++ session.foreignAll logger acts :=
  seen_performAll (blind_foreign? logger) session acts

/-- What is left of a run is the same when one logger is set otherwise before it, up to places. -/
theorem paired_perform {before : Session σ} (reached : before.ReachedSteadily)
    {command : LoggerCommand} {handle : String} {logger : Nat}
    (sets : command.sets? = some handle) (hfind : before.loggers.find? handle = some logger) :
    Paired ⟨some logger, []⟩ (before.displacement (before.perform (.logger command))) before
      (before.perform (.logger command)) := by
  have hset := reached.paired.set (SetsOnly.runLogger sets hfind)
  exact hset.calm (.refl _) (Outlets.calm_closeAll hset.outlets.opened' _)

/-- A child begins with the level and the settings of its parent, but for the prefix. -/
theorem branch_inherits {session : Session σ} {parent : String} {logger : Nat} {level : Level}
    {settings : Settings} (hfind : session.loggers.find? parent = some logger)
    (hlevel : session.loggers.level? logger = some level)
    (hsettings : session.loggers.settings? logger = some settings) (child : String) :
    let after := session.perform (.logger (.branch child parent none))
    let new := session.loggers.instances.length
    after.loggers.find? child = some new ∧ after.loggers.level? new = some level ∧
      after.loggers.settings? new = some { settings with prefixText := [] } := by
  have hloggers : (session.perform (.logger (.branch child parent none))).loggers =
      session.loggers.branch child logger { settings with prefixText := [] } := by
    rw [loggers_perform]
    simp only [move?, loggerMove?, hfind, Option.bind_some, hsettings, Option.map_some, Forest.move,
      Forest.through, Option.getD_none]
  simp only [hloggers]
  refine ⟨?_, (Forest.sprouts_branch hlevel child _).level?_new, ?_⟩
  · simp only [Forest.branch, hlevel, Forest.plant, Forest.find?, Table.find?_insert_self,
      Forest.modify, List.length_modify]
  · rw [Forest.settings?_branch hsettings]
    exact if_pos rfl

/-! ## Isolation -/

/-- One logger is set otherwise in a reached state. In what is left of the run it gets no child, and
what is borrowed from it is neither changed nor handed on. Then the same calls of all loggers get
through, and the other loggers hand over the same records to the same routers and take the same
exits; routers that are made later may only stand at other places. A child made in the reached state
begins with the level and the settings of its parent and without a prefix. -/
theorem instances_isolated {before : Session σ} (reached : before.ReachedSteadily)
    {command : LoggerCommand} {handle : String} {logger : Nat} (sets : command.sets? = some handle)
    (hfind : before.loggers.find? handle = some logger) {remaining : List (Remaining σ)}
    (kept : ∀ act ∈ remainingActs remaining before, act.Tame ∧ act.Steady)
    (aloof : before.AloofAll ⟨some logger, []⟩ (remainingActs remaining before)) :
    let changed := before.perform (.logger command)
    let acts := remainingActs remaining before
    remainingActs remaining changed = acts ∧
      (∃ events,
        (before.performAll acts).seen (Event.foreign? logger) =
            before.seen (Event.foreign? logger) ++ events ∧
          (changed.performAll acts).seen (Event.foreign? logger) =
            before.seen (Event.foreign? logger) ++
              events.map (Event.rerouted (before.displacement changed).routers)) ∧
      ∃ level settings, before.loggers.level? logger = some level ∧
        before.loggers.settings? logger = some settings ∧
        ∀ child parent, before.loggers.find? parent = some logger →
          let after := before.perform (.logger (.branch child parent none))
          let new := before.loggers.instances.length
          after.loggers.find? child = some new ∧ after.loggers.level? new = some level ∧
            after.loggers.settings? new = some { settings with prefixText := [] } := by
  intro changed acts
  have paired := paired_perform reached sets hfind
  refine ⟨paired.remainingActs_eq remaining kept aloof,
    ⟨before.foreignAll logger acts, before.seen_foreign_performAll logger acts, ?_⟩, ?_⟩
  · rw [seen_foreign_performAll, paired.foreignAll_eq rfl kept aloof]
    exact congrArg (· ++ _) (before.seen_perform_logger _ command)
  · obtain ⟨parents, shaped⟩ := reached.shaped
    have hmade := shaped.made logger (Forest.mem_living_of_find? hfind)
    have hat : before.loggers.instance? logger = some before.loggers.instances[logger] :=
      List.getElem?_eq_getElem hmade
    have hlevel : before.loggers.level? logger = some before.loggers.instances[logger].level := by
      rw [Forest.level?, hat]
      rfl
    have hsettings : before.loggers.settings? logger =
        some before.loggers.instances[logger].settings := by
      rw [Forest.settings?, hat]
      rfl
    exact ⟨_, _, hlevel, hsettings, fun child parent hparent =>
      branch_inherits hparent hlevel hsettings child⟩

/-- A program with a child, at the moment when a record of the child is being put into words. -/
def wording : Session Unit :=
  (fresh ()).performAll
    [.sink (.make "out" .memory), .logger (.make "app" { template := some "%s".toList }),
      .logger (.branch "part" "app" none), .enter "part"]

def worded : List (Remaining Unit) :=
  [.make 1 (.leveled .info) none ⟨0, 0, 0⟩ "one".toList, .command (.router (.make "own" .nothing)),
    .command (.logger (.setRouter "part" "own")),
    .command (.log "part" .fatal none ⟨0, 0, 0⟩ "two".toList [])]

def shown (router : Nat) : List Event :=
  [.handed 1 0 .info (Text.encode "one\n".toList),
    .handed 1 router .fatal (Text.encode "two\n".toList), .exited 1 .terminate 1]

theorem instances_isolated_wording :
    let changed := wording.perform (.logger (.setSink "app" "out"))
    let acts := remainingActs worded wording
    remainingActs worded changed = acts ∧
      (wording.performAll acts).seen (Event.foreign? 0) = shown 1 ∧
      (changed.performAll acts).seen (Event.foreign? 0) = shown 2 := by
  intro changed acts
  have reached : wording.ReachedSteadily :=
    ⟨(), _, by simp [Act.Tame, Act.Steady], rfl⟩
  have hacts : acts =
      [.make 1 (.leveled .info) none ⟨0, 0, 0⟩ "one".toList, .router (.make "own" .nothing),
        .logger (.setRouter "part" "own"), .enter "part",
        .make 1 .fatal none ⟨0, 0, 0⟩ "two".toList] := rfl
  have kept : ∀ act ∈ acts, act.Tame ∧ act.Steady := by
    rw [hacts]
    simp [Act.Tame, Act.Steady]
  have sets : (LoggerCommand.setSink "app" "out").sets? = some "app" := rfl
  have hfind : wording.loggers.find? "app" = some 0 := by decide +kernel
  have aloof : wording.AloofAll ⟨some 0, []⟩ acts := by decide +kernel
  obtain ⟨hsame, ⟨events, hfirst, hsecond⟩, -⟩ :=
    instances_isolated reached sets hfind kept aloof
  have hshown : (wording.performAll acts).seen (Event.foreign? 0) = shown 1 := by decide +kernel
  obtain rfl : shown 1 = events := hshown.symm.trans hfirst
  exact ⟨hsame, hshown, hsecond⟩

/-- The handle that a program borrows from a logger is that of the format which is in effect then: a
placeholder put into it shows on whoever shares the format, and on no one else when the logger was
given another template before. -/
theorem borrowed_format_shared :
    let before := (fresh ()).performAll
      [.logger (.make "app" { template := some "$\x7bx\x7d %s".toList }),
        .logger (.branch "part" "app" none)]
    let changed := before.perform (.logger (.setTemplate "app" "%s".toList))
    let later : List (Command Unit) :=
      [.format (.borrow "f" "app"), .format (.register "f" "x".toList (.pure fun _ _ => ['X'])),
        .log "part" (.leveled .info) none ⟨0, 0, 0⟩ "hi".toList []]
    before.ReachedSteadily ∧ before.loggers.find? "app" = some 0 ∧
      (execAll later before).seen (Event.foreign? 0) =
        [.handed 1 0 .info (Text.encode "X hi\n".toList)] ∧
      (execAll later changed).seen (Event.foreign? 0) =
        [.handed 1 0 .info (Text.encode "$\x7bx\x7d hi\n".toList)] := by
  refine ⟨⟨(), _, by simp [Act.Tame, Act.Steady], rfl⟩, ?_, ?_, ?_⟩ <;> decide +kernel

end Session

end Logbook
