import Logbook.Json.Lexeme

/-!
# Writing JSON

Lexemes written as text, with nothing between them. A string escapes the quote, the backslash and
the control characters below the space, five of them by a letter.
-/

namespace Logbook.Json

def letterEscapes : List (Char × Char) :=
  [('\x08', 'b'), ('\t', 't'), ('\n', 'n'), ('\x0c', 'f'), ('\r', 'r')]

def writeChar (c : Char) : Text :=
  if c = '"' then ['\\', '"']
  else if c = '\\' then ['\\', '\\']
  else if c < ' ' then
    match letterEscapes.lookup c with
    | some letter => ['\\', letter]
    | none => ['\\', 'u'] ++ Text.lastHexDigits 4 c.toNat
  else [c]

def writeString (text : Text) : Text := '"' :: (text.flatMap writeChar ++ ['"'])

def Number.write : Number → Text
  | .natural value => Text.decimal value
  | .negative size => '-' :: Text.decimal size
  | .floating text => text

def Lexeme.write : Lexeme → Text
  | .null => "null".toList
  | .truth true => "true".toList
  | .truth false => "false".toList
  | .number value => value.write
  | .string text => writeString text
  | .openObject => ['\x7b']
  | .closeObject => ['\x7d']
  | .openArray => ['[']
  | .closeArray => [']']
  | .comma => [',']
  | .colon => [':']
  | .malformed => []

def write (lexemes : List Lexeme) : Text := lexemes.flatMap Lexeme.write

def objectLexemes (fields : List (Text × List Lexeme)) : List Lexeme :=
  let member (field : Text × List Lexeme) : List Lexeme := .string field.1 :: .colon :: field.2
  let rec members : List (Text × List Lexeme) → List Lexeme
    | [] => []
    | [field] => member field
    | field :: more => member field ++ .comma :: members more
  .openObject :: members fields ++ [.closeObject]

end Logbook.Json
