import Logbook.Proofs.Emission
import Logbook.Proofs.Making
import Logbook.Proofs.Outlines

/-!
# Bodies kept

When the records of a logger that was built from settings hold the bodies of all messages. What
decides it is not the text of the template, which the check of the settings looks at, but the
outline: a message token in the argument of a placeholder is not one of the rendered text.
-/

namespace Logbook

variable {σ : Type}

/-! ## Bodies in records -/

namespace Text

theorem encode_infix {part text : Text} (h : part <:+: text) : encode part <:+: encode text := by
  obtain ⟨before, after, rfl⟩ := h
  simp only [encode_append]
  exact List.infix_append (encode before) (encode part) (encode after)

theorem length_encode_replicate (count : Nat) :
    (encode (List.replicate count 'x')).length = count := by
  induction count with
  | zero => rfl
  | succ count ih =>
      rw [List.replicate_succ, encode, List.flatMap_cons, ← encode, List.length_append, ih]
      exact Nat.add_comm 1 count

end Text

theorem shiftLines_of_not_mem {message : Text} (h : '\n' ∉ message) (width : Nat) :
    shiftLines width message = message := by
  induction message with
  | nil => rfl
  | cons c rest ih =>
      have hc : c ≠ '\n' := fun he => h (he ▸ List.mem_cons_self)
      have hrest := ih fun hm => h (List.mem_cons_of_mem c hm)
      unfold shiftLines at hrest ⊢
      rw [List.flatMap_cons, hrest, if_neg hc]
      rfl

/-- The octets of a record hold the body of a message; each line feed of the body is followed by
the same number of spaces, by none when indentation is off. -/
def HoldsBody (indent : Indent) (message : Text) (record : Bytes) : Prop :=
  ∃ width, (indent = .disabled → width = 0) ∧
    Text.encode (shiftLines width message) <:+: record

theorem holdsBody_assemble {indent : Indent} {rendered : Text}
    (h : Text.Contains Builtin.messageToken rendered) (message : Text) :
    HoldsBody indent message (Text.encode (assemble indent rendered message)) := by
  refine ⟨indent.width rendered, ?_, Text.encode_infix ?_⟩
  · rintro rfl
    rfl
  · exact List.infix_append_of_infix_left (Text.infix_replaceFirst _ h)

theorem not_holdsBody_assemble (indent : Indent) {rendered : Text}
    (h : ¬ Text.Contains Builtin.messageToken rendered) :
    ∃ message, ¬ HoldsBody indent message (Text.encode (assemble indent rendered message)) := by
  have hrecord : ∀ message, assemble indent rendered message = rendered ++ ['\n'] := by
    intro message
    rw [assemble, Text.replaceFirst_of_not_contains _ h]
  let size := (Text.encode (rendered ++ ['\n'])).length
  refine ⟨List.replicate (size + 1) 'x', ?_⟩
  rintro ⟨width, -, hinfix⟩
  have hline : '\n' ∉ List.replicate (size + 1) 'x' := by simp [List.mem_replicate]
  rw [hrecord, shiftLines_of_not_mem hline] at hinfix
  have hlength := hinfix.length_le
  rw [Text.length_encode_replicate] at hlength
  omega

/-! ## Loggers built from settings -/

namespace Config

def outline (config : Config) (level : Level) : Outline :=
  (pieces config.format).flatMap (Piece.outline level config.prefixText)

def start (config : Config) : Plan.Start :=
  ⟨config.level, some config.format, config.prefixText, config.indent⟩

end Config

/-- The logger behind a handle is as the settings make it: its level, prefix and indentation are
theirs, and its format has their template and the built-in placeholders. -/
structure BuiltFrom (config : Config) (session : Session σ) (handle : String) (logger : Nat)
    (settings : Settings) (format : Format σ) : Prop where
  named : session.loggers.find? handle = some logger
  gate : session.loggers.level? logger = some config.level
  holds : session.loggers.settings? logger = some settings
  prefixText : settings.prefixText = config.prefixText
  indent : settings.indent = config.indent
  formatter : session.formatters[settings.formatter]? = some (.format format)
  template : format.template = config.format
  registry : format.registry = .builtin
  made : format.Made
  honest : session.desk.memo.Honest

/-- A plan takes level, template, prefix and indentation from settings, which it has as they are
or in a document. -/
structure Plan.Takes (plan : Plan) (config : Config) : Prop where
  base : plan.base = .config config ∨
    ∃ json, plan.base = .document json ∧ Config.ofJson json = .ok config
  level : plan.level = none
  template : plan.template = none
  formatter : plan.formatter = none
  prefixText : plan.prefixText = none
  indentLines : plan.indentLines = none
  shiftIndent : plan.shiftIndent = none

theorem Plan.Takes.start_eq {plan : Plan} {config : Config} (takes : plan.Takes config) :
    plan.start = Plan.startOf config := by
  unfold Plan.start
  obtain hbase | ⟨json, hbase, hread⟩ := takes.base
  · rw [hbase]
  · simp only [hbase, hread]

theorem Plan.startOf_of_accepted {config : Config} (h : config.validate = .ok ()) :
    Plan.startOf config = .ok config.start := by
  simp only [Plan.startOf, h, Config.start]

theorem Plan.startOf_of_refused {config : Config} {cause : LogError}
    (h : config.validate = .error cause) : Plan.startOf config = .error (.invalid cause) := by
  simp only [Plan.startOf, h]

theorem Plan.Takes.builtFrom {plan : Plan} {config : Config} (takes : plan.Takes config)
    (haccepted : config.validate = .ok ()) {session : Session σ} (resolved : plan.Resolved session)
    (honest : session.desk.memo.Honest) (handle : String) :
    (session.makeLogger handle plan).1 = .ok .done ∧
      ∃ logger settings format,
        BuiltFrom config (session.makeLogger handle plan).2 handle logger settings format := by
  have hstart := takes.start_eq.trans (Plan.startOf_of_accepted haccepted)
  have hdone := Session.makeLogger_of_resolved resolved hstart handle
  obtain ⟨⟨failure, herror⟩, -⟩ | ⟨start, formatter, router, fallback, first, second, third, hs,
    hformatter, hrouter, hfallback, heq⟩ := session.makeLogger_cases handle plan
  · rw [hdone] at herror
    cases herror
  obtain rfl : config.start = start := by
    rw [hstart] at hs
    cases hs
    rfl
  refine ⟨hdone, ?_⟩
  rw [heq]
  have hgrown := (Session.grown_planRouter hrouter).trans (Session.grown_planFallback hfallback)
  have hmemo : third.desk = session.desk :=
    hgrown.desk.trans (Session.grown_planFormatter hformatter).desk
  simp only [Session.planFormatter, takes.formatter, takes.template, Option.some.injEq]
    at hformatter
  cases hformatter
  let format : Format σ := Session.makeFormat (some config.format) none
  let settings :=
    Session.plannedSettings plan config.start session.formatters.length router fallback
  have hformat : third.formatters[session.formatters.length]? = some (.format format) :=
    hgrown.formatter (by simp [format, Config.start])
  refine ⟨third.loggers.instances.length, settings, format, ?_⟩
  exact
    { named := by simp [Session.done, Forest.find?, Forest.plant]
      gate := by simp [Session.done, Forest.level?, Forest.instance?, Forest.plant, takes.level,
        Config.start]
      holds := by simp [Session.done, Forest.settings?, Forest.instance?, Forest.plant, settings]
      prefixText := by simp [settings, Session.plannedSettings, takes.prefixText, Config.start]
      indent := by
        simp [settings, Session.plannedSettings, Plan.indent, takes.shiftIndent, takes.indentLines,
          Config.start]
      formatter := hformat
      template := rfl
      registry := rfl
      made := .fresh _ _
      honest := hmemo ▸ honest }

theorem Plan.Takes.validate_of_made {plan : Plan} {config : Config} (takes : plan.Takes config)
    {session : Session σ} {handle : String}
    (hmade : (session.makeLogger handle plan).1 = .ok .done) : config.validate = .ok () := by
  cases hv : config.validate with
  | ok found => rfl
  | error cause =>
      simp only [Session.makeLogger, takes.start_eq, Plan.startOf_of_refused hv] at hmade
      cases hmade

/-! ## Bodies in the records of a logger -/

namespace BuiltFrom

variable {config : Config} {session : Session σ} {handle : String} {logger : Nat}
  {settings : Settings} {format : Format σ}

/-- The rendered text of a record fills the outline of its level. -/
theorem fills_outline (built : BuiltFrom config session handle logger settings format)
    {P : Text → Prop} {site : Option CallSite} {instant : Time.Instant}
    (suits : Suits P site instant) (level : Level) :
    Fills P (config.outline level)
      (session.render settings.formatter ⟨level, site, instant⟩ settings.prefixText).1 := by
  have hcompile : format.compile = Segment.compile Registry.builtin config.format := by
    rw [Format.compile_eq_segments built.made.coherent, Format.segments, built.registry,
      built.template]
  have hfills := suits.fills_template level config.prefixText config.format built.honest
  simp only [Session.render, built.formatter, Formatter.render, Format.render, hcompile,
    built.prefixText]
  exact hfills

theorem handed_log (built : BuiltFrom config session handle logger settings format) {level : Level}
    (hlevel : config.level.allows level = true) (site : Option CallSite) (instant : Time.Instant)
    (message : Text) :
    (Session.exec (.log handle (.leveled level) site instant message []) session).2.handed =
      session.handed ++ [(logger, settings.router, level,
        Text.encode (session.record settings ⟨level, site, instant⟩ message))] := by
  have hgate : session.admits logger (.leveled level) = true := by
    simp only [Session.admits, built.gate, hlevel]
  exact Session.handed_exec_log built.named hgate built.holds site instant message

theorem holdsBody_iff (built : BuiltFrom config session handle logger settings format)
    (level : Level) :
    (∀ site instant message, HoldsBody config.indent message
        (Text.encode (session.record settings ⟨level, site, instant⟩ message))) ↔
      Outline.messageToken <:+: config.outline level := by
  unfold Session.record
  rw [← built.indent]
  constructor
  · intro h
    have hfills := built.fills_outline suits_inert level
    apply hfills.known_of_infix
    rw [← Text.contains_iff_infix]
    by_contra hmissing
    obtain ⟨message, hmessage⟩ := not_holdsBody_assemble settings.indent hmissing
    exact hmessage (h (some plainSite) plainInstant message)
  · intro h site instant message
    have hfills := built.fills_outline (suits_true site instant) level
    exact holdsBody_assemble ((Text.contains_iff_infix _ _).2 (hfills.infix_of_known h)) message

/-- A log call of an admitted level hands over one record; it holds the body of any message
exactly when the outline of the level has a message token. -/
theorem handed_holdsBody_iff (built : BuiltFrom config session handle logger settings format)
    {level : Level} (hlevel : config.level.allows level = true) :
    (∀ site instant message, ∃ record,
        (Session.exec (.log handle (.leveled level) site instant message []) session).2.handed =
            session.handed ++ [(logger, settings.router, level, record)] ∧
          HoldsBody config.indent message record) ↔
      Outline.messageToken <:+: config.outline level := by
  rw [← built.holdsBody_iff level]
  constructor
  · intro h site instant message
    obtain ⟨record, hrecord, hbody⟩ := h site instant message
    rw [built.handed_log hlevel, List.append_cancel_left_eq] at hrecord
    cases hrecord
    exact hbody
  · intro h site instant message
    exact ⟨_, built.handed_log hlevel site instant message, h site instant message⟩

theorem release (built : BuiltFrom config session handle logger settings format)
    (before : Session σ) :
    BuiltFrom config (before.release session) handle logger settings format :=
  { built with }

end BuiltFrom

/-- A logger is made of settings exactly when these pass the check. A log call of an admitted level
then hands over one record; the records of that level hold the bodies of all messages exactly when
the outline of the level, not the template, has a message token. -/
theorem bodies_kept_iff {plan : Plan} {config : Config} (takes : plan.Takes config)
    {session : Session σ} (resolved : plan.Resolved session) (honest : session.desk.memo.Honest)
    (handle : String) :
    let made := Session.exec (.logger (.make handle plan)) session
    (made.1 = .ok .done ↔ config.validate = .ok ()) ∧
      (config.validate = .ok () →
        ∃ logger router, made.2.loggers.find? handle = some logger ∧
          ∀ level, config.level.allows level = true →
            ((∀ site instant message, ∃ record,
                (Session.exec (.log handle (.leveled level) site instant message [])
                    made.2).2.handed =
                  made.2.handed ++ [(logger, router, level, record)] ∧
                HoldsBody config.indent message record) ↔
              Outline.messageToken <:+: config.outline level)) := by
  simp only [Session.exec, Session.settle, Session.runLogger]
  refine ⟨⟨takes.validate_of_made, fun haccepted => ?_⟩, fun haccepted => ?_⟩
  · exact (takes.builtFrom haccepted resolved honest handle).1
  · obtain ⟨-, logger, settings, format, built⟩ :=
      takes.builtFrom haccepted resolved honest handle
    have hreleased := built.release session
    exact ⟨logger, settings.router, hreleased.named,
      fun _ hlevel => hreleased.handed_holdsBody_iff hlevel⟩

namespace Session

def documented (json : Text) : Result Unit :=
  exec (.logger (.make "app" { base := .document json })) (fresh ())

def standardDocument : Text := "\x7b\x7d".toList

theorem bodies_kept_standard :
    (documented standardDocument).1 = .ok .done ∧
      ∃ logger router, (documented standardDocument).2.loggers.find? "app" = some logger ∧
        ∀ site instant message, ∃ record,
          (exec (.log "app" (.leveled .info) site instant message [])
              (documented standardDocument).2).2.handed =
            (documented standardDocument).2.handed ++ [(logger, router, .info, record)] ∧
          HoldsBody .disabled message record := by
  have hread : Config.ofJson standardDocument = .ok Config.standard := by decide +kernel
  have takes : Plan.Takes { base := .document standardDocument } Config.standard :=
    ⟨.inr ⟨standardDocument, rfl, hread⟩, rfl, rfl, rfl, rfl, rfl, rfl⟩
  have resolved : Plan.Resolved { base := .document standardDocument } (fresh ()) := by
    constructor <;> rintro _ ⟨⟩
  have hmark : Outline.messageToken <:+: Config.standard.outline .info := by decide +kernel
  obtain ⟨hmade, hkept⟩ := bodies_kept_iff takes resolved Memo.honest_empty "app"
  have haccepted : Config.standard.validate = .ok () := by decide +kernel
  obtain ⟨logger, router, hfind, hbodies⟩ := hkept haccepted
  exact ⟨hmade.2 haccepted, logger, router, hfind, (hbodies .info rfl).2 hmark⟩

/-- Settings whose only message token is the frame of the level placeholder. -/
def framed : Config := { format := "$\x7blevel:%s\x7d".toList }

def framedDocument : Text := "\x7b\"format\":\"$\x7blevel:%s\x7d\"\x7d".toList

/-- These settings pass the check, and the record of a message is the name of the level alone. -/
theorem framed_drops_bodies :
    Config.ofJson framedDocument = .ok framed ∧ framed.validate = .ok () ∧
      (documented framedDocument).1 = .ok .done ∧ framed.level.allows .info = true ∧
      (exec (.log "app" (.leveled .info) none ⟨0, 0, 0⟩ "disk full".toList [])
          (documented framedDocument).2).2.handed =
        [(0, 0, .info, Text.encode "INFO\n".toList)] ∧
      ¬ HoldsBody framed.indent "disk full".toList (Text.encode "INFO\n".toList) := by
  refine ⟨by decide +kernel, by decide +kernel, by decide +kernel, rfl, by decide +kernel, ?_⟩
  rintro ⟨width, -, hinfix⟩
  rw [shiftLines_of_not_mem (by decide)] at hinfix
  have hlength := hinfix.length_le
  revert hlength
  decide

end Session

end Logbook
