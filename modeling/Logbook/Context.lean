import Logbook.Level.Basic
import Logbook.Time.Instant

/-!
# Contexts

What a placeholder may read about the record being rendered.
-/

namespace Logbook

structure CallSite where
  file : Text
  line : Nat
  deriving DecidableEq, Repr

structure Context where
  level : Level
  site : Option CallSite := none
  instant : Time.Instant
  deriving DecidableEq, Repr

end Logbook
