import Logbook.Session.Basic

/-!
# Commands

What a session can be asked to do, by the kind of thing it is about, and the answers it gives.
Things are named by handles. A message may carry commands of its own; they run when the message is
put into words.
-/

namespace Logbook

inductive SinkPlan where
  | memory
  | tally (tally : Tally)
  | stream (name : Text) (channel : Channel)
  | file (path : Text)
  | console (target : ConsoleTarget)
  | plain
  deriving DecidableEq, Repr

inductive SinkCommand where
  | make (handle : String) (plan : SinkPlan)
  | write (handle : String) (data : Bytes)
  | flush (handle : String)
  | name (handle : String)
  | drop (handle : String)
  | read (handle : String)
  | drain (handle : String)
  | fileContents (path : Text)
  | makeDirectory (path : Text)
  deriving DecidableEq, Repr

inductive RouterSource where
  | nothing
  | shared (sink : String)
  | wrapped (sink : String)
  deriving DecidableEq, Repr

inductive RouterCommand where
  | make (handle : String) (source : RouterSource)
  | route (handle : String) (level : Level) (sinks : List String)
  | write (handle : String) (level : Level) (data : Bytes)
  | flush (handle : String)
  | describe (handle : String)
  deriving DecidableEq, Repr

inductive FormatCommand (σ : Type) where
  | make (handle : String) (template : Option Text) (registry : Option (Registry σ))
  | stamp (handle : String) (text : Text)
  | borrow (handle logger : String)
  | register (handle : String) (name : Text) (placeholder : Placeholder σ)
  | setRegistry (handle : String) (registry : Registry σ)
  | copyRegistry (handle source : String) (without : Option Text)
  | reset (handle : String)
  | names (handle : String)
  | describe (handle : String) (tall : Bool)
  | template (handle : String)
  | render (handle : String) (context : Context) (prefixText : Text)

inductive MemoCommand where
  | output (key : MemoKey) (value : Text)
  | split (argument : Text)
  | forget
  | level (level : Level) (argument : Text)
  deriving DecidableEq, Repr

inductive LoggerCommand where
  | make (handle : String) (plan : Plan)
  | branch (handle parent : String) (prefixText : Option Text)
  | share (handle source : String)
  | drop (handle : String)
  | describe (handle : String)
  | setLevel (handle : String) (level : Level)
  | setPrefix (handle : String) (prefixText : Text)
  | setIndent (handle : String) (indent : Indent)
  | setTemplate (handle : String) (template : Text)
  | setFormatter (handle formatter : String)
  | setSink (handle sink : String)
  | setRouter (handle router : String)
  | setFallback (handle sink : String)
  | setExit (handle : String) (action : ExitAction)
  | flush (handle : String)
  deriving DecidableEq, Repr

inductive Command (σ : Type) where
  | sink (command : SinkCommand)
  | router (command : RouterCommand)
  | format (command : FormatCommand σ)
  | memo (command : MemoCommand)
  | logger (command : LoggerCommand)
  | log (handle : String) (entry : Entry) (site : Option CallSite) (instant : Time.Instant)
      (message : Text) (effects : List (Command σ))
  /-- A record that goes nowhere; its message is never put into words. -/
  | discard

inductive Answer where
  | done
  | count (value : Nat)
  | counts (values : List Nat)
  | text (value : Text)
  | texts (values : List Text)
  | memory (contents : Text) (bytes : Bytes) (lines : List Text) (isEmpty : Bool)
  | tally (writes flushes : Nat)
  | bytes (value : Bytes)
  | memo (value : Text) (computed : Bool)
  | logger (level : Level) (prefixText : Text) (indent : Text) (description : Text)
      (enabled : List Bool)
  deriving DecidableEq, Repr

inductive Failure where
  | error (cause : LogError)
  | unread (fault : Json.Fault)
  | noFile
  /-- A handle that names nothing, or nothing of the kind, or a directory that cannot be made. -/
  | misuse
  deriving DecidableEq, Repr

abbrev Result (σ : Type) := Except Failure Answer × Session σ

end Logbook
