import Logbook.Error
import Logbook.Text.Blank
import Logbook.Text.Capitals

/-!
# Reading a level

A level is named by its full or its short name, in any mixture of capitals and small letters, with
blanks around it.
-/

namespace Logbook.Level

def ofName? (text : Text) : Option Level :=
  all.find? fun level => text = level.name || text = level.shortName

def ofText? (text : Text) : Option Level := ofName? (Text.upper (Text.trim text))

def invalid (text : Text) : LogError :=
  .configuration "LogLevel".toList ("invalid log level: '".toList ++ text ++ ['\''])

def parse (text : Text) : Except LogError Level :=
  match ofText? text with
  | some level => .ok level
  | none => .error (invalid text)

theorem ofName?_name (level : Level) : ofName? level.name = some level := by
  cases level <;> decide

theorem ofName?_shortName (level : Level) : ofName? level.shortName = some level := by
  cases level <;> decide

end Logbook.Level
