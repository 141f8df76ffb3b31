import Logbook.Proofs.Announcements
import Logbook.Proofs.PairedActs

/-!
# Runs of paired sessions

Commands break up into the same acts in paired sessions, as the gates of all loggers are the same,
the one apart included. The other loggers announce the same, but for the places of later routers.
-/

namespace Logbook

variable {σ : Type}

/-! ## What other loggers announce -/

/-- The records that other loggers hand over and the exits that they take. -/
def Event.foreign? (logger : Nat) : Event → Option Event
  | .handed maker router level record =>
      if maker = logger then none else some (.handed maker router level record)
  | .exited maker action code => if maker = logger then none else some (.exited maker action code)
  | _ => none

def Event.rerouted (shift : Shift) : Event → Event
  | .handed maker router level record => .handed maker (shift.moved router) level record
  | event => event

theorem blind_foreign? (logger : Nat) : Blind (Event.foreign? logger) := fun _ _ => rfl

theorem Attempt.filterMap_foreign? (logger : Nat) (attempt : Attempt) :
    attempt.events.filterMap (Event.foreign? logger) =
      if attempt.logger = logger then []
      else
        .handed attempt.logger attempt.settings.router attempt.entry.level attempt.record ::
          attempt.exit?.toList := by
  unfold events emitted exit?
  by_cases h : attempt.logger = logger <;>
    cases attempt.report? <;> cases attempt.entry <;> simp [Event.foreign?, List.filterMap_cons, h]

namespace Session

def foreign (session : Session σ) (logger : Nat) (act : Act σ) : List Event :=
  (session.attempt? act).toList.flatMap fun attempt =>
    attempt.events.filterMap (Event.foreign? logger)

def foreignAll (session : Session σ) (logger : Nat) (acts : List (Act σ)) : List Event :=
  (session.attempts acts).flatMap fun attempt => attempt.events.filterMap (Event.foreign? logger)

theorem foreignAll_cons (session : Session σ) (logger : Nat) (act : Act σ) (rest : List (Act σ)) :
    session.foreignAll logger (act :: rest) =
      session.foreign logger act ++ (session.perform act).foreignAll logger rest := by
  simp only [foreignAll, foreign, attempts, List.flatMap_append]

/-! ## Acts one after the other -/

def Apart.afterAll : Apart → Session σ → List (Act σ) → Apart
  | apart, _, [] => apart
  | apart, session, act :: rest => afterAll (apart.after session act) (session.perform act) rest

/-- No act makes a child of the logger apart, or changes or hands on what is borrowed from it. -/
def AloofAll : Session σ → Apart → List (Act σ) → Prop
  | _, _, [] => True
  | session, apart, act :: rest =>
      session.Aloof apart act ∧ AloofAll (session.perform act) (apart.after session act) rest

def decidableAloofAll : ∀ (acts : List (Act σ)) (session : Session σ) (apart : Apart),
    Decidable (session.AloofAll apart acts)
  | [], _, _ => .isTrue trivial
  | act :: rest, session, apart =>
      have := decidableAloofAll rest (session.perform act) (apart.after session act)
      inferInstanceAs (Decidable (session.Aloof apart act ∧
        (session.perform act).AloofAll (apart.after session act) rest))

instance (session : Session σ) (apart : Apart) (acts : List (Act σ)) :
    Decidable (session.AloofAll apart acts) := decidableAloofAll acts session apart

theorem aloofAll_append {session : Session σ} {apart : Apart} {first second : List (Act σ)} :
    session.AloofAll apart (first ++ second) ↔
      session.AloofAll apart first ∧
        (session.performAll first).AloofAll (apart.afterAll session first) second := by
  induction first generalizing session apart with
  | nil => simp [AloofAll, performAll, Apart.afterAll]
  | cons act rest ih => exact (and_congr_right fun _ => ih).trans and_assoc.symm

theorem Apart.logger_after (apart : Apart) (session : Session σ) (act : Act σ) :
    (apart.after session act).logger = apart.logger := by
  unfold after
  split
  · rfl
  · rfl
  · split
    · rfl
    · split
      · rfl
      · split <;> rfl
  · rfl

namespace Paired

variable {apart : Apart} {names : Renaming} {first second : Session σ}

theorem performAll (paired : Paired apart names first second) {acts : List (Act σ)}
    (kept : ∀ act ∈ acts, act.Tame ∧ act.Steady) (aloof : first.AloofAll apart acts) :
    Paired (apart.afterAll first acts) names (first.performAll acts) (second.performAll acts) := by
  induction acts generalizing apart first second with
  | nil => exact paired
  | cons act rest ih =>
      obtain ⟨⟨tame, steady⟩, hrest⟩ := List.forall_mem_cons.1 kept
      exact ih (paired.perform tame steady aloof.1) hrest aloof.2

theorem foreign_eq (paired : Paired apart names first second) {logger : Nat}
    (hlogger : apart.logger = some logger) (act : Act σ) :
    second.foreign logger act = (first.foreign logger act).map (Event.rerouted names.routers) := by
  cases act with
  | make maker entry site instant message =>
      simp only [foreign, attempt?]
      by_cases hmaker : maker = logger
      · -- The logger apart may have other settings, but what it announces is not looked at.
        have hnone : ∀ session : Session σ, ∀ settings : Settings,
            (session.attempted maker settings entry site instant message).events.filterMap
              (Event.foreign? logger) = [] := fun session settings => by
          rw [Attempt.filterMap_foreign?]
          exact if_pos hmaker
        cases first.loggers.settings? maker <;> cases second.loggers.settings? maker <;>
          simp [hnone]
      · have hapart : some maker ≠ apart.logger := fun h =>
          hmaker (Option.some.inj (h.trans hlogger))
        cases hsettings : first.loggers.settings? maker with
        | none =>
            rw [paired.loggers.settings?_eq_none hsettings]
            rfl
        | some settings =>
            obtain ⟨other, hother, linked⟩ :=
              paired.loggers.settings maker hapart settings hsettings
            have hrecord := paired.record_eq linked ⟨entry.level, site, instant⟩ message
            simp only [hother, Option.map_some, Option.toList_some, List.flatMap_singleton,
              Attempt.filterMap_foreign?, attempted, if_neg hmaker, hrecord, linked.router.2,
              Attempt.exit?, linked.exit]
            cases entry <;> rfl
  | _ => rfl

theorem foreignAll_eq (paired : Paired apart names first second) {logger : Nat}
    (hlogger : apart.logger = some logger) {acts : List (Act σ)}
    (kept : ∀ act ∈ acts, act.Tame ∧ act.Steady) (aloof : first.AloofAll apart acts) :
    second.foreignAll logger acts =
      (first.foreignAll logger acts).map (Event.rerouted names.routers) := by
  induction acts generalizing apart first second with
  | nil => rfl
  | cons act rest ih =>
      obtain ⟨⟨tame, steady⟩, hrest⟩ := List.forall_mem_cons.1 kept
      have hafter := paired.perform tame steady aloof.1
      rw [foreignAll_cons, foreignAll_cons, List.map_append, paired.foreign_eq hlogger,
        ih hafter ((apart.logger_after first act).trans hlogger) hrest aloof.2]

/-! ## Commands -/

theorem admits_eq (paired : Paired apart names first second) (logger : Nat) (entry : Entry) :
    second.admits logger entry = first.admits logger entry := by
  cases entry with
  | leveled level => simp only [admits, paired.loggers.level?]
  | fatal => rfl

theorem exec (paired : Paired apart names first second) {command : Command σ}
    (hacts : acts command second = acts command first)
    (kept : ∀ act ∈ acts command first, act.Tame ∧ act.Steady)
    (aloof : first.AloofAll apart (acts command first)) :
    Paired (apart.afterAll first (acts command first)) names (Session.exec command first).2
      (Session.exec command second).2 := by
  have hafter := paired.performAll kept aloof
  have hsecond := performAll_acts command second
  rw [hacts] at hsecond
  rwa [performAll_acts, hsecond] at hafter

mutual

theorem acts_eq : ∀ (command : Command σ) {apart : Apart} {first second : Session σ},
    Paired apart names first second →
      (∀ act ∈ acts command first, act.Tame ∧ act.Steady) →
        first.AloofAll apart (acts command first) → acts command second = acts command first
  | .sink _, _, _, _, _, _, _ => rfl
  | .router _, _, _, _, _, _, _ => rfl
  | .format _, _, _, _, _, _, _ => rfl
  | .memo _, _, _, _, _, _, _ => rfl
  | .logger _, _, _, _, _, _, _ => rfl
  | .log handle entry site instant message effects, apart, first, second, paired, kept, aloof => by
      unfold acts at kept aloof ⊢
      rw [paired.loggers.find?]
      cases hfind : first.loggers.find? handle with
      | none => rfl
      | some logger =>
          simp only [hfind, paired.admits_eq] at kept aloof ⊢
          split
          · -- The effects run while the logger is entered in both sessions.
            rename_i hadmits
            simp only [hadmits, if_true, List.cons_append] at kept aloof ⊢
            have hentered : Paired apart names (first.enter logger) (second.enter logger) :=
              paired.setLoggers (paired.loggers.enter logger)
            have henter : first.perform (.enter handle) = first.enter logger := by
              simp only [Session.perform, hfind]
            have hrest := aloof.2
            rw [henter] at hrest
            have heffects := actsAll_eq effects hentered
              (fun act hact => kept act (.tail _ (List.mem_append_left _ hact)))
              (aloofAll_append.1 hrest).1
            rw [heffects]
          · rfl
  | .discard, _, _, _, _, _, _ => rfl

theorem actsAll_eq : ∀ (commands : List (Command σ)) {apart : Apart} {first second : Session σ},
    Paired apart names first second →
      (∀ act ∈ actsAll commands first, act.Tame ∧ act.Steady) →
        first.AloofAll apart (actsAll commands first) →
          actsAll commands second = actsAll commands first
  | [], _, _, _, _, _, _ => rfl
  | command :: rest, apart, first, second, paired, kept, aloof => by
      unfold actsAll at kept aloof ⊢
      obtain ⟨hcommand, hrest⟩ := List.forall_mem_append.1 kept
      obtain ⟨haloof, hlater⟩ := aloofAll_append.1 aloof
      have hacts := acts_eq command paired hcommand haloof
      rw [performAll_acts] at hlater
      rw [hacts, actsAll_eq rest (paired.exec hacts hcommand haloof) hrest hlater]

end

end Paired

/-! ## What is left of a run -/

/-- A part of what is left of a run: a command, or a record whose message is being put into words.
-/
inductive Remaining (σ : Type) where
  | command (command : Command σ)
  | make (logger : Nat) (entry : Entry) (site : Option CallSite) (instant : Time.Instant)
      (message : Text)

def remainingActs : List (Remaining σ) → Session σ → List (Act σ)
  | [], _ => []
  | .command command :: rest, session =>
      acts command session ++ remainingActs rest (exec command session).2
  | .make logger entry site instant message :: rest, session =>
      .make logger entry site instant message ::
        remainingActs rest (session.perform (.make logger entry site instant message))

theorem Paired.remainingActs_eq {names : Renaming} (remaining : List (Remaining σ)) {apart : Apart}
    {first second : Session σ} (paired : Paired apart names first second)
    (kept : ∀ act ∈ remainingActs remaining first, act.Tame ∧ act.Steady)
    (aloof : first.AloofAll apart (remainingActs remaining first)) :
    remainingActs remaining second = remainingActs remaining first := by
  induction remaining generalizing apart first second with
  | nil => rfl
  | cons part rest ih =>
      cases part with
      | command command =>
          unfold remainingActs at kept aloof ⊢
          obtain ⟨hcommand, hrest⟩ := List.forall_mem_append.1 kept
          obtain ⟨haloof, hlater⟩ := aloofAll_append.1 aloof
          have hacts := acts_eq command paired hcommand haloof
          rw [performAll_acts] at hlater
          rw [hacts, ih (paired.exec hacts hcommand haloof) hrest hlater]
      | make logger entry site instant message =>
          unfold remainingActs at kept aloof ⊢
          obtain ⟨⟨tame, steady⟩, hrest⟩ := List.forall_mem_cons.1 kept
          rw [ih (paired.perform tame steady aloof.1) hrest aloof.2]

end Session

end Logbook
