import Logbook.Context
import Logbook.Memo
import Logbook.Path
import Logbook.Text.Digits
import Logbook.Time.Format

/-!
# Built-in placeholders

The texts that `level`, `line`, `file` and `time` stand for. The text of a level is remembered in
the memo; `levelText` is the text that has to be remembered.
-/

namespace Logbook.Builtin

def messageToken : Text := ['%', 's']

def unknownSite : Text := ['?', '?']

def wantsShort (field : Text) : Bool :=
  field = "true".toList || field = "yes".toList || field = "1".toList

/-- A level in its column. The fields are the frame around the name, the side that the frame
stands on in its column, and whether the short name is meant. Without a side the frame is not
filled up. -/
def levelColumn (level : Level) (fields : List Text) : Text :=
  let frame := Argument.fieldAt fields 0
  let frame := if frame = [] then messageToken else frame
  let short := wantsShort (Argument.fieldAt fields 2)
  let name := if short then level.shortName else level.name
  let width := if short then Level.shortWidth else Level.width
  let framed := Text.replaceFirst messageToken name frame
  let padding := spaces (width - name.length)
  let side := Argument.fieldAt fields 1
  if side = "left".toList then framed ++ padding
  else if side = "right".toList then padding ++ framed
  else framed

def levelText (level : Level) (argument : Text) : Text :=
  levelColumn level (Argument.split argument)

/-- The name that the texts of levels are remembered under. -/
def levelName : Text := "level".toList

def rememberedLevel (level : Level) (argument : Text) (memo : Memo) : Text × Memo :=
  memo.output ⟨levelName, level, argument⟩ fun memo =>
    let (fields, memo) := memo.split argument
    (levelColumn level fields, memo)

def lineText (site : Option CallSite) : Text :=
  match site with
  | some site => Text.decimal site.line
  | none => unknownSite

/-- The name of the file, or its whole path when the argument is `long`. -/
def fileText (site : Option CallSite) (argument : Text) : Text :=
  match site with
  | none => unknownSite
  | some site =>
      if argument = "long".toList then site.file else (Path.fileName? site.file).getD site.file

def timeText (instant : Time.Instant) (argument : Text) : Text :=
  (Time.Format.ofArgument argument).render instant

end Logbook.Builtin
