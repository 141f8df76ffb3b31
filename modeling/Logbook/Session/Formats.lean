import Logbook.Session.Sinks

/-!
# Commands about formatters and the memo

A change of a registry empties the memo of the session; a reset and a rendering do not.
-/

namespace Logbook.Session

variable {σ : Type}

def withFormatter (session : Session σ) (handle : String)
    (act : Nat → Formatter σ → Result σ) : Result σ :=
  match session.formatterHandles.find? handle with
  | none => session.misused
  | some found =>
      match session.formatters[found.index]? with
      | none => session.misused
      | some formatter => act found.index formatter

def nameFormatter (session : Session σ) (handle : String) (formatter : Formatter σ) : Session σ :=
  let (index, session) := session.addFormatter formatter
  { session with formatterHandles := session.formatterHandles.insert handle { index } }

def putFormatter (session : Session σ) (index : Nat) (changed : Formatter σ × Desk σ) :
    Session σ :=
  { session with formatters := session.formatters.set index changed.1, desk := changed.2 }

/-- The format that a template and a registry make; what is missing is standard. -/
def makeFormat (template : Option Text) (registry : Option (Registry σ)) : Format σ :=
  { template := template.getD Format.standardTemplate,
    registry := registry.getD Registry.builtin }

def lessen (registry : Registry σ) : Option Text → Registry σ
  | some name => registry.erase name
  | none => registry

def runFormat (session : Session σ) : FormatCommand σ → Result σ
  | .make handle template registry =>
      (session.nameFormatter handle (.format (makeFormat template registry))).done
  | .stamp handle text => (session.nameFormatter handle (.stamp { text })).done
  | .borrow handle logger =>
      match (session.loggers.find? logger).bind session.loggers.settings? with
      | none => session.misused
      | some settings =>
          let found : FormatterHandle := ⟨settings.formatter, true⟩
          { session with formatterHandles := session.formatterHandles.insert handle found }.done
  | .register handle name placeholder =>
      session.withFormatter handle fun index formatter =>
        (session.putFormatter index (formatter.register name placeholder session.desk)).done
  | .setRegistry handle registry =>
      session.withFormatter handle fun index formatter =>
        (session.putFormatter index (formatter.setRegistry registry session.desk)).done
  | .copyRegistry handle source without =>
      session.withFormatter source fun _ origin =>
        session.withFormatter handle fun index formatter =>
          let registry := lessen origin.registry without
          (session.putFormatter index (formatter.setRegistry registry session.desk)).done
  | .reset handle =>
      session.withFormatter handle fun index formatter =>
        (session.putFormatter index (formatter.reset, session.desk)).done
  | .names handle =>
      session.withFormatter handle fun _ formatter =>
        (.ok (.texts formatter.registry.names), session)
  | .describe handle tall =>
      session.withFormatter handle fun _ formatter =>
        match formatter with
        | .format format =>
            (.ok (.text (if tall then format.describeTall else format.describe)), session)
        | .stamp _ => session.misused
  | .template handle =>
      session.withFormatter handle fun _ formatter =>
        match formatter with
        | .format format => (.ok (.text format.template), session)
        | .stamp _ => session.misused
  | .render handle context prefixText =>
      session.withFormatter handle fun index _ =>
        let (text, session) := session.render index context prefixText
        (.ok (.text text), session)

def setMemo (session : Session σ) (memo : Memo) : Session σ :=
  { session with desk := { session.desk with memo } }

def runMemo (session : Session σ) : MemoCommand → Result σ
  | .output key value =>
      let computed := (session.desk.memo.output? key).isNone
      let (value, memo) := session.desk.memo.output key fun memo => (value, memo)
      (.ok (.memo value computed), session.setMemo memo)
  | .split argument =>
      let (fields, memo) := session.desk.memo.split argument
      (.ok (.texts fields), session.setMemo memo)
  | .forget => (session.setMemo .empty).done
  | .level level argument =>
      let (text, memo) := Builtin.rememberedLevel level argument session.desk.memo
      (.ok (.text text), session.setMemo memo)

end Logbook.Session
