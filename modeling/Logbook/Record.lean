import Logbook.Placeholder.Builtin
import Logbook.Text.Quoted

/-!
# Records

A record is the rendered text of a format with the message in place of the first message token,
and a line feed. Continuation lines of the message can be shifted, by a fixed width or to the
visible column of the message.
-/

namespace Logbook

inductive Indent where
  | disabled
  | auto
  | shift (width : Nat)
  deriving DecidableEq, Repr

def isControlEnd (c : Char) : Bool := '@' ≤ c && c ≤ '~'

mutual

/-- How many columns of a terminal a text takes. An escape takes none, nor does the character
behind it; a bracket there opens a control sequence. -/
def visibleWidth : Text → Nat
  | [] => 0
  | '\x1b' :: '[' :: rest => visibleWidthInControl rest
  | '\x1b' :: _ :: rest => visibleWidth rest
  | ['\x1b'] => 0
  | _ :: rest => visibleWidth rest + 1

def visibleWidthInControl : Text → Nat
  | [] => 0
  | c :: rest => if isControlEnd c then visibleWidth rest else visibleWidthInControl rest

end

def lastLine (text : Text) : Text := (text.reverse.takeWhile (· ≠ '\n')).reverse

/-- The visible column of the first message token on its line; zero without a token. -/
def messageColumn (rendered : Text) : Nat :=
  match Text.cut? Builtin.messageToken rendered with
  | some (before, _) => visibleWidth (lastLine before)
  | none => 0

def Indent.width (indent : Indent) (rendered : Text) : Nat :=
  match indent with
  | .disabled => 0
  | .auto => messageColumn rendered
  | .shift width => width

def shiftLines (width : Nat) (message : Text) : Text :=
  message.flatMap fun c => if c = '\n' then '\n' :: spaces width else [c]

theorem shiftLines_zero (message : Text) : shiftLines 0 message = message := by
  induction message with
  | nil => rfl
  | cons c rest ih =>
      unfold shiftLines at ih ⊢
      rw [List.flatMap_cons, ih]
      by_cases h : c = '\n' <;> simp [h, spaces]

def assemble (indent : Indent) (rendered message : Text) : Text :=
  Text.replaceFirst Builtin.messageToken (shiftLines (indent.width rendered) message) rendered ++
    ['\n']

def Indent.describe : Indent → Text
  | .disabled => "Disabled".toList
  | .auto => "Auto".toList
  | .shift width => "Shift(".toList ++ Text.decimal width ++ [')']

end Logbook
