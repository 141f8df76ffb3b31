import Logbook.Format.Token
import Logbook.Placeholder.Basic

/-!
# Segments

A template compiled against a registry: literal text, tokens with their placeholders, and places
for the prefix of the logger. A token whose name is not registered is literal text.
-/

namespace Logbook

inductive Segment (σ : Type) where
  | literal (text : Text)
  | replacement (token : Token) (placeholder : Placeholder σ)
  | prefixMark

namespace Segment

variable {σ : Type}

/-- The token that is always available: the prefix of the logger and a space. -/
def prefixToken : Token := ⟨"prefix".toList, none⟩

def source : Segment σ → Text
  | .literal text => text
  | .replacement token _ => token.source
  | .prefixMark => prefixToken.source

def token? : Segment σ → Option Token
  | .replacement token _ => some token
  | _ => none

/-- What a token becomes; nothing when it stays in the literal text. -/
def ofToken? (registry : Registry σ) (token : Token) : Option (Segment σ) :=
  match registry.find? token.name with
  | some placeholder => some (.replacement token placeholder)
  | none => if token = prefixToken then some .prefixMark else none

/-- Literal text in front of segments joins a literal that stands first. -/
def prepend (text : Text) : List (Segment σ) → List (Segment σ)
  | .literal rest :: segments => .literal (text ++ rest) :: segments
  | segments => .literal text :: segments

def ofPieces (registry : Registry σ) : List Piece → List (Segment σ)
  | [] => []
  | .plain c :: rest => prepend [c] (ofPieces registry rest)
  | .token token :: rest =>
      match ofToken? registry token with
      | some segment => segment :: ofPieces registry rest
      | none => prepend token.source (ofPieces registry rest)

def compile (registry : Registry σ) (template : Text) : List (Segment σ) :=
  ofPieces registry (pieces template)

def tokens (segments : List (Segment σ)) : List Text :=
  segments.filterMap fun segment => segment.token?.map Token.source

/-- The text of the prefix: a space keeps it from what follows, an empty one leaves nothing. -/
def prefixOutput (prefixText : Text) : Text :=
  if prefixText = [] then [] else prefixText ++ [' ']

def render (segment : Segment σ) (context : Context) (prefixText : Text) (desk : Desk σ) :
    Text × Desk σ :=
  match segment with
  | .literal text => (text, desk)
  | .replacement token placeholder => placeholder.render context token.argumentText desk
  | .prefixMark => (prefixOutput prefixText, desk)

/-- The segments rendered one after the other. What a placeholder returns is copied as it is. -/
def renderAll (context : Context) (prefixText : Text) :
    List (Segment σ) → Desk σ → Text × Desk σ
  | [], desk => ([], desk)
  | segment :: rest, desk =>
      let (text, desk) := segment.render context prefixText desk
      let (more, desk) := renderAll context prefixText rest desk
      (text ++ more, desk)

theorem flatMap_source_prepend (text : Text) (segments : List (Segment σ)) :
    (prepend text segments).flatMap source = text ++ segments.flatMap source := by
  unfold prepend
  split <;> simp [source]

theorem source_of_ofToken? {registry : Registry σ} {token : Token} {segment : Segment σ}
    (h : ofToken? registry token = some segment) : segment.source = token.source := by
  unfold ofToken? at h
  split at h
  · cases h; rfl
  · split at h
    · rename_i ht
      cases h
      rw [ht]
      rfl
    · cases h

theorem flatMap_source_ofPieces (registry : Registry σ) (list : List Piece) :
    (ofPieces registry list).flatMap source = list.flatMap Piece.source := by
  induction list with
  | nil => rfl
  | cons piece rest ih =>
      cases piece with
      | plain c => simp [ofPieces, flatMap_source_prepend, ih, Piece.source]
      | token token =>
          unfold ofPieces
          split
          · rename_i segment h
            simp [source_of_ofToken? h, ih, Piece.source]
          · simp [flatMap_source_prepend, ih, Piece.source]

/-- Compilation keeps the template. -/
theorem flatMap_source_compile (registry : Registry σ) (template : Text) :
    (compile registry template).flatMap source = template := by
  rw [compile, flatMap_source_ofPieces, flatMap_source_pieces]

end Segment

end Logbook
