import Logbook.Session.Run

/-!
# Acts

Runs taken apart. A message can carry commands, which can log messages that carry commands in turn;
a run is nevertheless one flat list of acts, done one after the other. What every act preserves,
every run preserves.
-/

namespace Logbook

variable {σ : Type}

/-- A log call that its gate admits is two acts: its logger is entered before the commands inside
the message, and the record is made after them. -/
inductive Act (σ : Type) where
  | sink (command : SinkCommand)
  | router (command : RouterCommand)
  | format (command : FormatCommand σ)
  | memo (command : MemoCommand)
  | logger (command : LoggerCommand)
  | enter (handle : String)
  | make (logger : Nat) (entry : Entry) (site : Option CallSite) (instant : Time.Instant)
      (message : Text)

namespace Session

def perform (session : Session σ) : Act σ → Session σ
  | .sink command => session.release (session.runSink command).2
  | .router command => session.release (session.runRouter command).2
  | .format command => session.release (session.runFormat command).2
  | .memo command => session.release (session.runMemo command).2
  | .logger command => session.release (session.runLogger command).2
  | .enter handle =>
      match session.loggers.find? handle with
      | none => session
      | some logger => session.enter logger
  | .make logger entry site instant message =>
      session.release (session.deliver logger entry site instant message).leave

def performAll (session : Session σ) (acts : List (Act σ)) : Session σ := acts.foldl perform session

theorem performAll_append (session : Session σ) (first second : List (Act σ)) :
    session.performAll (first ++ second) = (session.performAll first).performAll second :=
  List.foldl_append

mutual

/-- The acts of a command. A log call without a logger or one that the gate stops has none. -/
def acts : Command σ → Session σ → List (Act σ)
  | .sink command, _ => [.sink command]
  | .router command, _ => [.router command]
  | .format command, _ => [.format command]
  | .memo command, _ => [.memo command]
  | .logger command, _ => [.logger command]
  | .log handle entry site instant message effects, session =>
      match session.loggers.find? handle with
      | none => []
      | some logger =>
          if session.admits logger entry then
            .enter handle :: actsAll effects (session.enter logger) ++
              [.make logger entry site instant message]
          else []
  | .discard, _ => []

def actsAll : List (Command σ) → Session σ → List (Act σ)
  | [], _ => []
  | command :: rest, session => acts command session ++ actsAll rest (exec command session).2

end

mutual

theorem performAll_acts : ∀ (command : Command σ) (session : Session σ),
    session.performAll (acts command session) = (exec command session).2
  | .sink _, _ => rfl
  | .router _, _ => rfl
  | .format _, _ => rfl
  | .memo _, _ => rfl
  | .logger _, _ => rfl
  | .log handle entry site instant message effects, session => by
      unfold acts exec
      cases hfind : session.loggers.find? handle with
      | none => rfl
      | some logger =>
          dsimp only
          split
          · have heffects := performAll_actsAll effects (session.enter logger)
            rw [List.cons_append, performAll, List.foldl_cons, ← performAll, performAll_append,
              perform, hfind]
            dsimp only
            rw [heffects]
            rfl
          · rfl
  | .discard, _ => rfl

theorem performAll_actsAll : ∀ (commands : List (Command σ)) (session : Session σ),
    session.performAll (actsAll commands session) = execAll commands session
  | [], _ => rfl
  | command :: rest, session => by
      unfold actsAll execAll
      rw [performAll_append, performAll_acts command session]
      exact performAll_actsAll rest (exec command session).2

end

end Session

end Logbook
