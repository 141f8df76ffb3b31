import Logbook.Text.Lines
import Logbook.Text.Utf8

/-!
# Memory sinks

A sink that keeps what it is given, to be read or drained. Octets become text only when they are
read, so a character may come in parts.
-/

namespace Logbook

structure Memory where
  bytes : Bytes := []
  deriving DecidableEq, Repr

namespace Memory

def write (memory : Memory) (data : Bytes) : Memory := ⟨memory.bytes ++ data⟩

@[simp] theorem bytes_write (memory : Memory) (data : Bytes) :
    (memory.write data).bytes = memory.bytes ++ data := rfl

def contents (memory : Memory) : Text := Text.decode memory.bytes

def lines (memory : Memory) : List Text := Text.lines memory.contents

def isEmpty (memory : Memory) : Bool := memory.bytes = []

def drain (memory : Memory) : Text × Memory := (memory.contents, {})

end Memory

end Logbook
