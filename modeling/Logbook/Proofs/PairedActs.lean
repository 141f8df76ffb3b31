import Logbook.Proofs.FailureReports
import Logbook.Proofs.PairedSessions

/-!
# Acts on paired sessions

What an act does to one of two paired sessions it does to the other, one case for each command. Two
commands read the settings of a logger back: a child takes them over and a handle borrows the
formatter. So the logger that is set otherwise has no children, and what is borrowed from it is
looked at and used, but neither changed nor handed on.
-/

namespace Logbook

variable {σ : Type}

/-! ## Acts that keep pairs -/

def Act.Steady : Act σ → Prop
  | .format (.make _ _ registry) => ∀ found ∈ registry, found.Steady
  | .format (.register _ _ placeholder) => placeholder.Steady
  | .format (.setRegistry _ registry) => registry.Steady
  | _ => True

/-- The logger that a command sets otherwise; its level is no setting. -/
def LoggerCommand.sets? : LoggerCommand → Option String
  | .setPrefix handle _ => some handle
  | .setIndent handle _ => some handle
  | .setTemplate handle _ => some handle
  | .setFormatter handle _ => some handle
  | .setSink handle _ => some handle
  | .setRouter handle _ => some handle
  | .setFallback handle _ => some handle
  | .setExit handle _ => some handle
  | _ => none

def Act.parent? : Act σ → Option String
  | .logger (.branch _ parent _) => some parent
  | _ => none

/-- The formatters whose registry an act changes or copies, or that it gives to a logger. -/
def Act.spent : Act σ → List String
  | .logger (.make _ plan) => plan.formatter.toList
  | .logger (.setFormatter _ formatter) => [formatter]
  | .format (.register handle _ _) => [handle]
  | .format (.setRegistry handle _) => [handle]
  | .format (.copyRegistry handle source _) => [handle, source]
  | _ => []

def FormatCommand.Idle : FormatCommand σ → Prop
  | .reset _ => True
  | .names _ => True
  | .describe _ _ => True
  | .template _ => True
  | .render _ _ _ => True
  | _ => False

namespace Session

/-- What sessions share after an act: a handle that borrows from the logger apart names something
apart, and one that names something else is no longer apart. -/
def Apart.after (apart : Apart) (session : Session σ) : Act σ → Apart
  | .format (.make handle _ _) => apart.shares handle
  | .format (.stamp handle _) => apart.shares handle
  | .format (.borrow handle owner) =>
      match session.loggers.find? owner with
      | none => apart
      | some logger =>
          if some logger = apart.logger then { apart with handles := handle :: apart.handles }
          else if (session.loggers.settings? logger).isSome then apart.shares handle
          else apart
  | _ => apart

/-- An act makes no child of the logger apart, and neither changes nor hands on what is borrowed
from it. -/
def Aloof (session : Session σ) (apart : Apart) (act : Act σ) : Prop :=
  (∀ logger ∈ act.parent?.bind session.loggers.find?, some logger ≠ apart.logger) ∧
    ∀ handle ∈ act.spent, handle ∉ apart.handles

instance (session : Session σ) (apart : Apart) (act : Act σ) :
    Decidable (session.Aloof apart act) :=
  inferInstanceAs (Decidable (
    (∀ logger ∈ act.parent?.bind session.loggers.find?, some logger ≠ apart.logger) ∧
      ∀ handle ∈ act.spent, handle ∉ apart.handles))

/-! ## Outlets of one session -/

theorem calm_drain (session : Session σ) (handle : String) :
    ∃ outlets, session.outlets.Calm outlets ∧
      (session.runSink (.drain handle)).2 = { session with outlets } := by
  refine withSink_cases (p := fun after =>
    ∃ outlets, session.outlets.Calm outlets ∧ after = { session with outlets })
    ⟨_, .refl _, rfl⟩ fun index sink _ hsink => ?_
  cases sink with
  | memory memory =>
      exact ⟨session.outlets.set index (.memory memory.drain.2),
        ⟨Outlets.media_set hsink rfl, .refl _⟩, rfl⟩
  | _ => exact ⟨_, .refl _, rfl⟩

theorem calm_flushLogger {session : Session σ} (opened : session.outlets.Opened) (handle : String) :
    ∃ outlets, session.outlets.Calm outlets ∧
      (session.runLogger (.flush handle)).2 = { session with outlets } := by
  refine withLogger_cases (p := fun after =>
    ∃ outlets, session.outlets.Calm outlets ∧ after = { session with outlets })
    ⟨_, .refl _, rfl⟩ fun index => ?_
  split
  · exact ⟨_, .refl _, rfl⟩
  · exact ⟨_, Outlets.calm_flushRouter opened _, rfl⟩

theorem calm_deliver {session : Session σ} (opened : session.outlets.Opened) (logger : Nat)
    (entry : Entry) (site : Option CallSite) (instant : Time.Instant) (message : Text) :
    session.outlets.Calm (session.deliver logger entry site instant message).outlets := by
  have hwritten := Outlets.calm_writeAll opened
    ((session.attempt? (.make logger entry site instant message)).toList.flatMap Attempt.writes)
  have hagrees := session.agrees_deliver logger entry site instant message
  exact ⟨by rw [Outlets.media, hagrees.sinks, ← Outlets.media, hwritten.media],
    by rw [hagrees.host]; exact hwritten.disk⟩

/-! ## Renderings of one session -/

theorem render_of_some {session : Session σ} {index : Nat} {formatter : Formatter σ}
    (hat : session.formatters[index]? = some formatter) (context : Context) (prefixText : Text) :
    session.render index context prefixText =
      ((formatter.render context prefixText session.desk).1,
        session.putFormatter index (formatter.render context prefixText session.desk).2) := by
  simp only [Session.render, hat, Session.putFormatter]

/-- After it at most one formatter was used or reset, and the memo has done its work. -/
inductive Uses (session : Session σ) : Session σ → Prop
  | unused : Uses session session
  | used {index : Nat} {formatter : Formatter σ} {move : FormatterMove σ} {desk : Desk σ}
      (hat : session.formatters[index]? = some formatter) (idle : move.Idle)
      (works : session.desk.memo.Works desk.memo) :
      Uses session (session.putFormatter index (formatter.moved move, desk))

theorem uses_withFormatter {session : Session σ} {handle : String}
    {act : Nat → Formatter σ → Result σ}
    (h : ∀ index formatter, session.formatters[index]? = some formatter →
      session.Uses (act index formatter).2) :
    session.Uses (session.withFormatter handle act).2 := by
  rw [withFormatter_eq]
  cases hf : session.formatter? handle with
  | none => exact .unused
  | some found => exact h found.1 found.2 (getElem?_of_formatter? hf)

theorem uses_render (session : Session σ) (index : Nat) (context : Context) (prefixText : Text) :
    session.Uses (session.render index context prefixText).2 := by
  cases hat : session.formatters[index]? with
  | none =>
      simp only [render, hat]
      exact .unused
  | some formatter =>
      have works := formatter.works_render context prefixText session.desk
      have hused : session.Uses (session.putFormatter index (formatter.moved .rendered, _)) :=
        .used hat trivial works
      rw [← formatter.moved_render context prefixText session.desk] at hused
      rw [render_of_some hat]
      exact hused

theorem uses_rendered (session : Session σ) (logger : Nat) (context : Context) :
    session.Uses (session.rendered logger context) := by
  unfold rendered
  split
  · exact .unused
  · exact session.uses_render _ _ _

theorem uses_runFormat (session : Session σ) {command : FormatCommand σ} (idle : command.Idle) :
    session.Uses (session.runFormat command).2 := by
  cases command with
  | reset handle =>
      refine uses_withFormatter fun index formatter hat => ?_
      simp only [done, formatter.moved_reset]
      exact .used hat trivial (.done _)
  | names handle => exact uses_withFormatter fun _ _ _ => .unused
  | describe handle tall =>
      refine uses_withFormatter fun _ formatter _ => ?_
      cases formatter <;> exact .unused
  | template handle =>
      refine uses_withFormatter fun _ formatter _ => ?_
      cases formatter <;> exact .unused
  | render handle context prefixText =>
      exact uses_withFormatter fun index _ _ => session.uses_render index context prefixText
  | _ => exact idle.elim

namespace Paired

variable {apart : Apart} {names : Renaming} {first second : Session σ}

/-! ## Sinks and routers -/

theorem makeSink (paired : Paired apart names first second) (handle : String) (plan : SinkPlan) :
    Paired apart names (first.makeSink handle plan).2 (second.makeSink handle plan).2 := by
  cases plan with
  | file path =>
      simp only [Session.makeSink]
      obtain ⟨cause, hfirst, hsecond⟩ | ⟨found, disk, disk', hfirst, hsecond, hdisk, hplace,
        hkept⟩ := paired.outlets.disk.openAt path
      · rw [hfirst, hsecond]
        exact paired
      · rw [hfirst, hsecond]
        have hopened : Paired apart names
            { first with
              outlets := { first.outlets with host := { first.outlets.host with disk } } }
            { second with
              outlets := { second.outlets with
                host := { second.outlets.host with disk := disk' } } } :=
          { paired with
            outlets := ⟨paired.outlets.media, hdisk, fun place hmem =>
              hkept place (paired.outlets.opened place hmem)⟩ }
        refine hopened.nameSink handle fun place hmedium => ?_
        cases hmedium
        exact hplace
  | memory => exact paired.nameSink handle (by simp [Sink.medium?])
  | tally count => exact paired.nameSink handle (by simp [Sink.medium?])
  | stream name channel => exact paired.nameSink handle (by simp [Sink.medium?])
  | console target => exact paired.nameSink handle (by simp [Sink.medium?])
  | plain => exact paired.nameSink handle (by simp [Sink.medium?])

theorem runSink (paired : Paired apart names first second) (command : SinkCommand) :
    Paired apart names (first.runSink command).2 (second.runSink command).2 := by
  have opened := paired.outlets.opened
  have opened' := paired.outlets.opened'
  cases command with
  | make handle plan => exact paired.makeSink handle plan
  | write handle data =>
      exact paired.withSink fun index _ _ _ _ =>
        paired.calm (Outlets.calm_write opened index data) (Outlets.calm_write opened' index data)
  | flush handle =>
      exact paired.withSink fun index _ _ _ _ =>
        paired.calm (Outlets.calm_flush opened index) (Outlets.calm_flush opened' index)
  | name handle => exact paired.withSink fun _ _ _ _ _ => paired
  | drop handle =>
      exact paired.withSink fun _ _ _ _ _ =>
        { paired with sinkHandles := by simp only [done, paired.sinkHandles] }
  | read handle => exact paired.withSink fun _ _ _ _ _ => paired
  | drain handle =>
      obtain ⟨outlets, hcalm, heq⟩ := calm_drain first handle
      obtain ⟨outlets', hcalm', heq'⟩ := calm_drain second handle
      rw [heq, heq']
      exact paired.calm hcalm hcalm'
  | fileContents path =>
      have hread : ∀ session : Session σ, (session.runSink (.fileContents path)).2 = session := by
        intro session
        simp only [Session.runSink]
        split <;> rfl
      rw [hread, hread]
      exact paired
  | makeDirectory path =>
      have hmade : ∀ session : Session σ, (session.runSink (.makeDirectory path)).2 =
          { session with outlets := { session.outlets with host := { session.outlets.host with
              disk := (session.outlets.host.disk.makeDirectories path).2 } } } := by
        intro session
        simp only [Session.runSink]
        split <;> rfl
      rw [hmade, hmade]
      refine { paired with outlets :=
        ⟨paired.outlets.media, (paired.outlets.disk.makeDirectories path).2, ?_⟩ }
      intro place hplace
      rw [Disk.files_makeDirectories]
      exact opened place hplace

theorem ownEndpoints? (paired : Paired apart names first second) (sinks : List String) :
    second.ownEndpoints? sinks = first.ownEndpoints? sinks := by
  induction sinks with
  | nil => rfl
  | cons handle rest ih => simp only [Session.ownEndpoints?, paired.sinkHandles, ih]

theorem runRouter (paired : Paired apart names first second) (command : RouterCommand) :
    Paired apart names (first.runRouter command).2 (second.runRouter command).2 := by
  have opened := paired.outlets.opened
  have opened' := paired.outlets.opened'
  cases command with
  | make handle source =>
      cases source with
      | nothing => exact paired.nameRouter handle _ _
      | shared sink => exact paired.withSink fun _ _ _ _ _ => paired.nameRouter handle _ _
      | wrapped sink =>
          exact paired.withSink fun index _ _ _ _ => (paired.wrap index index).nameRouter handle _ _
  | route handle level sinks =>
      refine paired.withRouter fun index hindex => ?_
      rw [paired.ownEndpoints?]
      cases first.ownEndpoints? sinks with
      | none => exact paired
      | some endpoints =>
          exact { paired with
            routers := by simpa only [List.length_set] using paired.routers
            routersMade := by simpa only [List.length_set] using paired.routersMade
            loggers := by simpa only [List.length_set] using paired.loggers }
  | write handle level data =>
      exact paired.withRouter fun index _ =>
        paired.calm (Outlets.calm_writeRouter opened _ level data)
          (Outlets.calm_writeRouter opened' _ level data)
  | flush handle =>
      exact paired.withRouter fun index _ =>
        paired.calm (Outlets.calm_flushRouter opened _) (Outlets.calm_flushRouter opened' _)
  | describe handle => exact paired.withRouter fun _ _ => paired

/-! ## Formatters -/

theorem putFormatter (paired : Paired apart names first second) (index : Nat)
    {formatter other : Formatter σ} (h : formatter.Alike other) {desk desk' : Desk σ}
    (honest : desk.memo.Honest) (honest' : desk'.memo.Honest) :
    Paired apart names (first.putFormatter index (formatter, desk))
      (second.putFormatter (names.formatters.moved index) (other, desk')) :=
  { paired with
    formatters := paired.formatters.set index h
    formattersMade := by
      simpa only [Session.putFormatter, List.length_set] using paired.formattersMade
    loggers := by simpa only [Session.putFormatter, List.length_set] using paired.loggers
    honest := honest
    honest' := honest' }

theorem moveFormatter (paired : Paired apart names first second) (move : FormatterMove σ)
    {index : Nat} {formatter other moved moved' : Formatter σ} {desk desk' : Desk σ}
    (h : formatter.Alike other) (steady : move.Steady) (hmoved : moved = formatter.moved move)
    (hmoved' : moved' = other.moved move) (works : first.desk.memo.Works desk.memo)
    (works' : second.desk.memo.Works desk'.memo) :
    Paired apart names (first.putFormatter index (moved, desk))
      (second.putFormatter (names.formatters.moved index) (moved', desk')) := by
  subst hmoved hmoved'
  exact paired.putFormatter index (h.moved steady) (works.honest paired.honest)
    (works'.honest paired.honest')

theorem uses (paired : Paired apart names first second) {first' second' : Session σ}
    (h : first.Uses first') (h' : second.Uses second') : Paired apart names first' second' := by
  have hfirst : Paired apart names first' second := by
    cases h with
    | unused => exact paired
    | used hat idle works =>
        exact { paired with
          formatters := paired.formatters.used hat idle
          formattersMade := by
            simpa only [Session.putFormatter, List.length_set] using paired.formattersMade
          loggers := by simpa only [Session.putFormatter, List.length_set] using paired.loggers
          honest := works.honest paired.honest }
  cases h' with
  | unused => exact hfirst
  | used hat idle works =>
      exact { hfirst with
        formatters := hfirst.formatters.used' hat idle
        honest' := works.honest paired.honest' }

/-- What a handle borrows belongs together, unless it comes from the logger apart. -/
theorem borrow (paired : Paired apart names first second) (handle owner : String) :
    Paired (apart.after first (.format (.borrow handle owner))) names
      (first.runFormat (.borrow handle owner)).2 (second.runFormat (.borrow handle owner)).2 := by
  simp only [Session.runFormat, Apart.after, paired.loggers.find?]
  cases first.loggers.find? owner with
  | none => exact paired
  | some logger =>
      simp only [Option.bind_some]
      by_cases hapart : some logger = apart.logger
      · rw [if_pos hapart]
        cases hsettings : first.loggers.settings? logger with
        | none =>
            rw [paired.loggers.settings?_eq_none hsettings]
            exact paired.apart_cons handle
        | some settings =>
            have hsome := paired.loggers.isSome_settings? logger
            rw [hsettings] at hsome
            obtain ⟨other, hother⟩ := Option.isSome_iff_exists.1 hsome
            rw [hother]
            exact paired.nameApart handle _ _
      · rw [if_neg hapart]
        cases hsettings : first.loggers.settings? logger with
        | none =>
            rw [paired.loggers.settings?_eq_none hsettings]
            exact paired
        | some settings =>
            obtain ⟨other, hother, linked⟩ :=
              paired.loggers.settings logger hapart settings hsettings
            rw [hother]
            exact paired.nameFormatterAt handle linked.formatter true

theorem runFormat (paired : Paired apart names first second) {command : FormatCommand σ}
    (steady : (Act.format command).Steady) (aloof : first.Aloof apart (.format command)) :
    Paired (apart.after first (.format command)) names (first.runFormat command).2
      (second.runFormat command).2 := by
  cases command with
  | make handle template registry =>
      exact paired.nameFormatter handle (.refl (Formatter.settled_makeFormat template steady))
  | stamp handle text => exact paired.nameFormatter handle (.refl trivial)
  | borrow handle owner => exact paired.borrow handle owner
  | register handle name placeholder =>
      exact paired.withFormatter (aloof.2 handle List.mem_cons_self)
        fun index formatter other _ _ halike =>
          paired.moveFormatter (.registered name placeholder) halike steady
            (formatter.moved_register name placeholder _) (other.moved_register name placeholder _)
            (formatter.works_register name placeholder _) (other.works_register name placeholder _)
  | setRegistry handle registry =>
      exact paired.withFormatter (aloof.2 handle List.mem_cons_self)
        fun index formatter other _ _ halike =>
          paired.moveFormatter (.replaced registry) halike steady
            (formatter.moved_setRegistry registry _) (other.moved_setRegistry registry _)
            (formatter.works_setRegistry registry _) (other.works_setRegistry registry _)
  | copyRegistry handle source without =>
      have hsource := aloof.2 source (List.mem_cons_of_mem handle List.mem_cons_self)
      refine paired.withFormatter hsource fun _ origin origin' _ _ horigin => ?_
      rw [horigin.registry]
      have hsteady := horigin.settled.registry.lessen without
      exact paired.withFormatter (aloof.2 handle List.mem_cons_self)
        fun index formatter other _ _ halike =>
          paired.moveFormatter (.replaced (lessen origin.registry without)) halike hsteady
            (formatter.moved_setRegistry _ _) (other.moved_setRegistry _ _)
            (formatter.works_setRegistry _ _) (other.works_setRegistry _ _)
  | reset handle => exact paired.uses (first.uses_runFormat trivial) (second.uses_runFormat trivial)
  | names handle => exact paired.uses (first.uses_runFormat trivial) (second.uses_runFormat trivial)
  | describe handle tall =>
      exact paired.uses (first.uses_runFormat trivial) (second.uses_runFormat trivial)
  | template handle =>
      exact paired.uses (first.uses_runFormat trivial) (second.uses_runFormat trivial)
  | render handle context prefixText =>
      exact paired.uses (first.uses_runFormat trivial) (second.uses_runFormat trivial)

theorem runMemo (paired : Paired apart names first second) {command : MemoCommand}
    (tame : (Act.memo command : Act σ).Tame) :
    Paired apart names (first.runMemo command).2 (second.runMemo command).2 := by
  have works := first.works_runMemo tame
  have works' := second.works_runMemo tame
  obtain ⟨desk, h⟩ := first.runMemo_frame command
  obtain ⟨desk', h'⟩ := second.runMemo_frame command
  rw [h] at works ⊢
  rw [h'] at works' ⊢
  exact paired.setDesk (works.honest paired.honest) (works'.honest paired.honest')

/-! ## Loggers -/

theorem addTemplate (paired : Paired apart names first second) (template : Option Text) :
    Paired apart names (first.addTemplate template).2 (second.addTemplate template).2 ∧
      names.formatters.Links (first.addTemplate template).2.formatters.length
        (first.addTemplate template).1 (second.addTemplate template).1 := by
  have hsettled : (Formatter.format (makeFormat template none) : Formatter σ).Settled :=
    Formatter.settled_makeFormat template (by simp)
  exact ⟨paired.addFormatter (.refl hsettled), paired.links_addFormatter _ _⟩

theorem addWrapped (paired : Paired apart names first second) (sink : Nat) :
    Paired apart names (first.addWrapped sink).2 (second.addWrapped sink).2 ∧
      names.routers.Links (first.addWrapped sink).2.routers.length
        (first.addWrapped sink).1 (second.addWrapped sink).1 :=
  ⟨(paired.wrap sink sink).addRouter _ _, (paired.wrap sink sink).links_addRouter _ _⟩

theorem addConsole (paired : Paired apart names first second) :
    Paired apart names first.addConsole.2 second.addConsole.2 :=
  paired.addSink (by simp [Sink.medium?])

theorem planFormatter (paired : Paired apart names first second) {plan : Plan}
    (hshared : ∀ formatter ∈ plan.formatter, formatter ∉ apart.handles) (start : Plan.Start) :
    (first.planFormatter plan start = none ∧ second.planFormatter plan start = none) ∨
      ∃ index index' next next', first.planFormatter plan start = some (index, next) ∧
        second.planFormatter plan start = some (index', next') ∧
          Paired apart names next next' ∧
            names.formatters.Links next.formatters.length index index' := by
  unfold Session.planFormatter
  cases hplan : plan.formatter with
  | some handle =>
      have hhandle := hshared handle hplan
      dsimp only
      rw [paired.formatterHandles handle hhandle]
      cases hfind : first.formatterHandles.find? handle with
      | none => exact .inl ⟨rfl, rfl⟩
      | some found =>
          exact .inr ⟨_, _, _, _, rfl, rfl, paired,
            paired.formattersMade handle hhandle found hfind, rfl⟩
  | none =>
      obtain ⟨hnext, hlinks⟩ := paired.addTemplate (plan.template <|> start.template)
      exact .inr ⟨_, _, _, _, rfl, rfl, hnext, hlinks⟩

theorem planRouter (paired : Paired apart names first second) (plan : Plan) :
    (first.planRouter plan = none ∧ second.planRouter plan = none) ∨
      ∃ index index' next next', first.planRouter plan = some (index, next) ∧
        second.planRouter plan = some (index', next') ∧ Paired apart names next next' ∧
          names.routers.Links next.routers.length index index' := by
  unfold Session.planRouter
  cases plan.router with
  | some handle =>
      dsimp only
      rw [paired.routerHandles]
      cases hfind : first.routerHandles.find? handle with
      | none => exact .inl ⟨rfl, rfl⟩
      | some router =>
          exact .inr ⟨_, _, _, _, rfl, rfl, paired, paired.routersMade handle router hfind, rfl⟩
  | none =>
      cases plan.sink with
      | some handle =>
          dsimp only
          rw [paired.sinkHandles]
          cases first.sinkHandles.find? handle with
          | none => exact .inl ⟨rfl, rfl⟩
          | some sink =>
              obtain ⟨hnext, hlinks⟩ := paired.addWrapped sink
              exact .inr ⟨_, _, _, _, rfl, rfl, hnext, hlinks⟩
      | none =>
          exact .inr ⟨_, _, _, _, rfl, rfl, paired.addConsole.addRouter _ _,
            paired.addConsole.links_addRouter _ (.toAll ⟨second.outlets.sinks.length, none⟩)⟩

theorem planFallback (paired : Paired apart names first second) (plan : Plan) :
    (first.planFallback plan = none ∧ second.planFallback plan = none) ∨
      ∃ fallback fallback' next next', first.planFallback plan = some (fallback, next) ∧
        second.planFallback plan = some (fallback', next') ∧ Paired apart names next next' := by
  unfold Session.planFallback
  cases plan.fallback with
  | some handle =>
      dsimp only
      rw [paired.sinkHandles]
      cases first.sinkHandles.find? handle with
      | none => exact .inl ⟨rfl, rfl⟩
      | some sink => exact .inr ⟨_, _, _, _, rfl, rfl, paired.wrap sink sink⟩
  | none => exact .inr ⟨_, _, _, _, rfl, rfl, paired.addConsole⟩

theorem makeLogger (paired : Paired apart names first second) (handle : String) {plan : Plan}
    (hshared : ∀ formatter ∈ plan.formatter, formatter ∉ apart.handles) :
    Paired apart names (first.makeLogger handle plan).2 (second.makeLogger handle plan).2 := by
  unfold Session.makeLogger
  cases plan.start with
  | error refusal => cases refusal <;> exact paired
  | ok start =>
      simp only [Option.bind_eq_bind]
      obtain ⟨h, h'⟩ | ⟨formatter, formatter', made, made', h, h', hmade, hformatter⟩ :=
        paired.planFormatter hshared start
      · simp only [h, h', Option.bind_none]
        exact paired
      obtain ⟨hr, hr'⟩ | ⟨router, router', routed, routed', hr, hr', hrouted, hrouter⟩ :=
        hmade.planRouter plan
      · simp only [h, h', hr, hr', Option.bind_some, Option.bind_none]
        exact paired
      obtain ⟨hf, hf'⟩ | ⟨fallback, fallback', last, last', hf, hf', hlast⟩ :=
        hrouted.planFallback plan
      · simp only [h, h', hr, hr', hf, hf', Option.bind_some, Option.bind_none]
        exact paired
      have hkept := (grown_planRouter hr).trans (grown_planFallback hf)
      have hformatters : made.formatters.length ≤ last.formatters.length := by
        obtain ⟨more, -, hmore⟩ := hkept.formatters
        rw [hmore, List.length_append]
        exact Nat.le_add_right _ _
      have hrouters : routed.routers.length ≤ last.routers.length := by
        obtain ⟨more, -, hmore⟩ := (grown_planFallback hf).routers
        rw [hmore, List.length_append]
        exact Nat.le_add_right _ _
      simp only [h, h', hr, hr', hf, hf', Option.bind_some]
      exact hlast.setLoggers (hlast.loggers.plant handle _
        ⟨hformatter.mono hformatters, hrouter.mono hrouters, rfl, rfl, rfl⟩)

/-- A logger other than the one apart has a child with settings that belong together. -/
theorem branchLogger (paired : Paired apart names first second) (handle parent : String)
    (prefixText : Option Text)
    (aloof : ∀ logger ∈ first.loggers.find? parent, some logger ≠ apart.logger) :
    Paired apart names (first.branchLogger handle parent prefixText).2
      (second.branchLogger handle parent prefixText).2 := by
  refine paired.withLogger fun index hfind => ?_
  have hapart := aloof index hfind
  cases hsettings : first.loggers.settings? index with
  | none =>
      rw [paired.loggers.settings?_eq_none hsettings]
      exact paired
  | some settings =>
      obtain ⟨other, hother, linked⟩ := paired.loggers.settings index hapart settings hsettings
      rw [hother]
      exact paired.setLoggers (paired.loggers.branch handle hsettings hother
        { linked with prefixText := rfl })

theorem changeSettings (paired : Paired apart names first second) (index : Nat)
    {change change' : Settings → Settings}
    (h : ∀ settings other,
      Settings.Linked names first.routers.length first.formatters.length settings other →
        Settings.Linked names first.routers.length first.formatters.length (change settings)
          (change' other)) :
    Paired apart names (first.changeSettings index change)
      (second.changeSettings index change') :=
  paired.setLoggers (paired.loggers.modifySettings index h)

theorem runSetting (paired : Paired apart names first second) {command : LoggerCommand}
    (sets : command.sets?.isSome) (aloof : first.Aloof apart (.logger command)) :
    Paired apart names (first.runLogger command).2 (second.runLogger command).2 := by
  cases command with
  | setPrefix handle prefixText =>
      exact paired.withLogger fun index _ =>
        paired.changeSettings index fun _ _ linked => { linked with prefixText := rfl }
  | setIndent handle indent =>
      exact paired.withLogger fun index _ =>
        paired.changeSettings index fun _ _ linked => { linked with indent := rfl }
  | setTemplate handle template =>
      obtain ⟨hadded, hlinks⟩ := paired.addTemplate (some template)
      exact paired.withLogger fun index _ =>
        hadded.changeSettings index fun _ _ linked => { linked with formatter := hlinks }
  | setFormatter handle formatter =>
      refine paired.withLogger fun index _ => ?_
      have hshared := aloof.2 formatter List.mem_cons_self
      rw [paired.formatterHandles formatter hshared]
      cases hfind : first.formatterHandles.find? formatter with
      | none => exact paired
      | some found =>
          exact paired.changeSettings index fun _ _ linked =>
            { linked with formatter := ⟨paired.formattersMade formatter hshared found hfind, rfl⟩ }
  | setSink handle sink =>
      refine paired.withLogger fun index _ => ?_
      rw [paired.sinkHandles]
      cases first.sinkHandles.find? sink with
      | none => exact paired
      | some sink =>
          obtain ⟨hadded, hlinks⟩ := paired.addWrapped sink
          exact hadded.changeSettings index fun _ _ linked => { linked with router := hlinks }
  | setRouter handle router =>
      refine paired.withLogger fun index _ => ?_
      rw [paired.routerHandles]
      cases hfind : first.routerHandles.find? router with
      | none => exact paired
      | some found =>
          exact paired.changeSettings index fun _ _ linked =>
            { linked with router := ⟨paired.routersMade router found hfind, rfl⟩ }
  | setFallback handle sink =>
      refine paired.withLogger fun index _ => ?_
      rw [paired.sinkHandles]
      cases first.sinkHandles.find? sink with
      | none => exact paired
      | some sink =>
          exact (paired.wrap sink sink).changeSettings index fun _ _ linked => { linked with }
  | setExit handle action =>
      exact paired.withLogger fun index _ =>
        paired.changeSettings index fun _ _ linked => { linked with exit := rfl }
  | _ => cases sets

theorem runLogger (paired : Paired apart names first second) {command : LoggerCommand}
    (aloof : first.Aloof apart (.logger command)) :
    Paired apart names (first.runLogger command).2 (second.runLogger command).2 := by
  cases command with
  | make handle plan =>
      exact paired.makeLogger handle fun formatter hformatter =>
        aloof.2 formatter (Option.mem_toList.2 hformatter)
  | branch handle parent prefixText =>
      exact paired.branchLogger handle parent prefixText aloof.1
  | share handle source =>
      exact paired.withLogger fun index _ => paired.setLoggers (paired.loggers.share handle index)
  | drop handle =>
      exact paired.withLogger fun _ _ => paired.setLoggers (paired.loggers.drop handle)
  | describe handle =>
      have hlooked : ∀ (session : Session σ) (index : Nat),
          (session.describeLoggerAt index).2 = session := by
        intro session index
        unfold describeLoggerAt
        split <;> rfl
      refine paired.withLogger fun index _ => ?_
      rw [hlooked, hlooked]
      exact paired
  | setLevel handle level =>
      exact paired.withLogger fun index _ =>
        paired.setLoggers (paired.loggers.setLevel index level)
  | flush handle =>
      obtain ⟨outlets, hcalm, heq⟩ := calm_flushLogger paired.outlets.opened handle
      obtain ⟨outlets', hcalm', heq'⟩ := calm_flushLogger paired.outlets.opened' handle
      rw [heq, heq']
      exact paired.calm hcalm hcalm'
  | _ => exact paired.runSetting rfl aloof

/-! ## Records -/

theorem deliver (paired : Paired apart names first second) (logger : Nat) (entry : Entry)
    (site : Option CallSite) (instant : Time.Instant) (message : Text) :
    Paired apart names (first.deliver logger entry site instant message)
      (second.deliver logger entry site instant message) := by
  have hcalm := calm_deliver paired.outlets.opened logger entry site instant message
  have hcalm' := calm_deliver paired.outlets.opened' logger entry site instant message
  obtain ⟨outlets, h⟩ := first.deliver_rendered logger entry site instant message
  obtain ⟨outlets', h'⟩ := second.deliver_rendered logger entry site instant message
  rw [h] at hcalm ⊢
  rw [h'] at hcalm' ⊢
  have hused := paired.uses (first.uses_rendered logger ⟨entry.level, site, instant⟩)
    (second.uses_rendered logger ⟨entry.level, site, instant⟩)
  exact { hused with outlets := paired.outlets.calm hcalm hcalm' }

theorem perform (paired : Paired apart names first second) {act : Act σ} (tame : act.Tame)
    (steady : act.Steady) (aloof : first.Aloof apart act) :
    Paired (apart.after first act) names (first.perform act) (second.perform act) := by
  cases act with
  | sink command => exact (paired.runSink command).release first second
  | router command => exact (paired.runRouter command).release first second
  | format command => exact (paired.runFormat steady aloof).release first second
  | memo command => exact (paired.runMemo tame).release first second
  | logger command => exact (paired.runLogger aloof).release first second
  | enter handle =>
      simp only [Session.perform, paired.loggers.find?]
      cases first.loggers.find? handle with
      | none => exact paired
      | some logger => exact paired.setLoggers (paired.loggers.enter logger)
  | make logger entry site instant message =>
      have hdelivered := paired.deliver logger entry site instant message
      exact (hdelivered.setLoggers hdelivered.loggers.leave).release first second

theorem record_eq (paired : Paired apart names first second) {settings other : Settings}
    (linked : Settings.Linked names first.routers.length first.formatters.length settings other)
    (context : Context) (message : Text) :
    second.record other context message = first.record settings context message := by
  obtain ⟨hlt, hplace⟩ := linked.formatter
  have hat : first.formatters[settings.formatter]? = some first.formatters[settings.formatter] :=
    List.getElem?_eq_getElem hlt
  obtain ⟨formatter, hformatter, halike⟩ := paired.formatters.alike settings.formatter _ hat
  rw [← hplace] at hformatter
  have htext := halike.render_eq paired.honest paired.honest' context settings.prefixText
  simp only [Session.record, render_of_some hat, render_of_some hformatter, linked.prefixText,
    linked.indent, htext]

end Paired

end Session

end Logbook
