import Logbook.Text.Basic

/-!
# Tokens of a template

A token is a dollar sign and, between braces, a name of letters, digits and underscores, with an
argument behind a colon or without. The argument is everything up to the first closing brace.
`pieces` cuts a template into tokens and single characters, whatever the names stand for.
-/

namespace Logbook

structure Token where
  name : Text
  argument : Option Text := none
  deriving DecidableEq, Repr

namespace Token

def isNameChar (c : Char) : Bool := c.isAlphanum || c = '_'

def source (token : Token) : Text :=
  ['$', '\x7b'] ++ token.name ++
    (match token.argument with
      | some argument => ':' :: argument
      | none => []) ++ ['\x7d']

/-- The argument that the placeholder gets; a token without one gives the empty text. -/
def argumentText (token : Token) : Text := token.argument.getD []

/-- The end of a token behind its name, and the text behind the token. -/
def readEnd? (name : Text) : Text → Option (Token × Text)
  | '\x7d' :: rest => some (⟨name, none⟩, rest)
  | ':' :: rest =>
      match rest.dropWhile (· ≠ '\x7d') with
      | _ :: behind => some (⟨name, some (rest.takeWhile (· ≠ '\x7d'))⟩, behind)
      | [] => none
  | _ => none

/-- The token that a text begins with, and the text behind it. -/
def read? : Text → Option (Token × Text)
  | '$' :: '\x7b' :: rest =>
      let name := rest.takeWhile isNameChar
      if name = [] then none else readEnd? name (rest.dropWhile isNameChar)
  | _ => none

theorem source_append_of_readEnd? {name text rest : Text} {token : Token}
    (h : readEnd? name text = some (token, rest)) :
    ['$', '\x7b'] ++ name ++ text = token.source ++ rest := by
  unfold readEnd? at h
  split at h
  · cases h
    simp [source]
  · rename_i tail
    split at h
    · rename_i brace behind hd
      cases h
      have hb : brace = '\x7d' := by
        have := List.head?_dropWhile_not (fun c => decide (c ≠ '\x7d')) tail
        rw [hd] at this
        simpa using this
      have ht := List.takeWhile_append_dropWhile (p := (· ≠ '\x7d')) (l := tail)
      rw [hd, hb] at ht
      simp [source]
      simpa using ht.symm
    · cases h
  · cases h

theorem source_append_of_read? {text rest : Text} {token : Token}
    (h : read? text = some (token, rest)) : text = token.source ++ rest := by
  unfold read? at h
  split at h
  · rename_i tail
    dsimp only at h
    split at h
    · cases h
    · have := source_append_of_readEnd? h
      rw [← this]
      simp
  · cases h

theorem length_lt_of_read? {text rest : Text} {token : Token}
    (h : read? text = some (token, rest)) : rest.length < text.length := by
  rw [source_append_of_read? h]
  simp [source]
  omega

end Token

/-- A token of a template or a character outside of all tokens. -/
inductive Piece where
  | plain (c : Char)
  | token (token : Token)
  deriving DecidableEq, Repr

def Piece.source : Piece → Text
  | .plain c => [c]
  | .token found => found.source

/-- The pieces of a template from left to right; a token is taken wherever one begins. -/
def pieces (template : Text) : List Piece :=
  match template with
  | [] => []
  | c :: rest =>
      match h : Token.read? (c :: rest) with
      | some (token, behind) =>
          have : behind.length < rest.length + 1 := Token.length_lt_of_read? h
          .token token :: pieces behind
      | none => .plain c :: pieces rest
  termination_by template.length

/-- The pieces lose nothing of the template. -/
theorem flatMap_source_pieces (template : Text) :
    (pieces template).flatMap Piece.source = template := by
  fun_induction pieces template with
  | case1 => rfl
  | case2 c rest token behind h _ ih =>
      rw [List.flatMap_cons, ih]
      exact (Token.source_append_of_read? h).symm
  | case3 c rest h ih =>
      rw [List.flatMap_cons, ih]
      rfl

end Logbook
