import Logbook.Proofs.Rendering

/-!
# Occurrences of tokens

Where the tokens of a template stand is settled by the template alone: `Cut` states it by the
grammar, and `pieces` is the only way to cut. A rendering is cut up alike: one text for each piece,
which comes of that piece, the registry and the desk that the pieces before it have left.
-/

namespace Logbook

variable {σ : Type}

/-! ## Cutting a template -/

/-- A template cut into tokens and single characters. A token is taken as a whole wherever one is
spelled, and the cutting goes on behind it. -/
inductive Cut : Text → List Piece → Prop where
  | done : Cut [] []
  | token {spelling rest : Text} {token : Token} {parts : List Piece} :
      Token.Spells spelling token → Cut rest parts → Cut (spelling ++ rest) (.token token :: parts)
  | plain {c : Char} {rest : Text} {parts : List Piece} :
      Token.NoneAt (c :: rest) → Cut rest parts → Cut (c :: rest) (.plain c :: parts)

theorem cut_pieces (template : Text) : Cut template (pieces template) := by
  fun_induction pieces template with
  | case1 => exact .done
  | case2 c rest token behind h _ ih =>
      rw [Token.source_append_of_read? h]
      exact .token (Token.spells_of_read? h) ih
  | case3 c rest h ih => exact .plain (Token.read?_eq_none_iff.1 h) ih

theorem cut_iff {template : Text} {parts : List Piece} :
    Cut template parts ↔ parts = pieces template := by
  constructor
  · intro h
    induction h with
    | done => rw [pieces]
    | token hs _ ih => rw [pieces_append_of_spells hs, ih]
    | plain hnone _ ih => rw [pieces_cons_of_noneAt hnone, ih]
  · rintro rfl
    exact cut_pieces template

def Piece.token? : Piece → Option Token
  | .plain _ => none
  | .token found => some found

/-- The tokens of a template from left to right, whatever is registered. -/
def occurrences (template : Text) : List Token := (pieces template).filterMap Piece.token?

namespace Token

theorem Spells.name_ne_nil {spelling : Text} {token : Token} (h : Spells spelling token) :
    token.name ≠ [] := by
  cases h <;> assumption

theorem Spells.letters {spelling : Text} {token : Token} (h : Spells spelling token) :
    ∀ c ∈ token.name, NameLetter c := by
  cases h <;> assumption

end Token

theorem Cut.spells {template : Text} {parts : List Piece} (h : Cut template parts) {token : Token}
    (hm : .token token ∈ parts) : Token.Spells token.source token := by
  induction h with
  | done => cases hm
  | @token spelling rest first parts hs _ ih =>
      rcases List.mem_cons.1 hm with heq | hm
      · cases heq
        rwa [← hs.eq_source]
      · exact ih hm
  | plain _ _ ih =>
      rcases List.mem_cons.1 hm with heq | hm
      · cases heq
      · exact ih hm

theorem mem_occurrences_iff {template : Text} {token : Token} :
    token ∈ occurrences template ↔ .token token ∈ pieces template := by
  rw [occurrences, List.mem_filterMap]
  constructor
  · rintro ⟨piece, hm, heq⟩
    cases piece with
    | plain c => cases heq
    | token found =>
        cases heq
        exact hm
  · intro hm
    exact ⟨_, hm, rfl⟩

/-! ## Rendering piece by piece -/

namespace Piece

def render (registry : Registry σ) (context : Context) (prefixText : Text) (piece : Piece)
    (desk : Desk σ) : Text × Desk σ :=
  match piece with
  | .plain c => ([c], desk)
  | .token found => tokenOutput registry context prefixText found.source found desk

/-- A token leaves the desk that its placeholder leaves; one that is not registered leaves it as it
is. -/
theorem snd_render_token (registry : Registry σ) (context : Context) (prefixText : Text)
    (found : Token) (desk : Desk σ) :
    ((Piece.token found).render registry context prefixText desk).2 =
      match registry.find? found.name with
      | some placeholder => (placeholder.render context (found.argument.getD []) desk).2
      | none => desk := by
  simp only [render, tokenOutput]
  cases registry.find? found.name with
  | some placeholder => rfl
  | none =>
      dsimp only
      split <;> rfl

def renderEach (registry : Registry σ) (context : Context) (prefixText : Text) :
    List Piece → Desk σ → List Text × Desk σ
  | [], desk => ([], desk)
  | piece :: rest, desk =>
      let (text, desk) := piece.render registry context prefixText desk
      let (texts, desk) := renderEach registry context prefixText rest desk
      (text :: texts, desk)

theorem length_renderEach (registry : Registry σ) (context : Context) (prefixText : Text)
    (parts : List Piece) (desk : Desk σ) :
    (renderEach registry context prefixText parts desk).1.length = parts.length := by
  induction parts generalizing desk with
  | nil => rfl
  | cons piece rest ih => simp [renderEach, ih]

end Piece

namespace Segment

/-- Segments put out what the pieces do from which they were compiled. -/
theorem renderAll_of_cut {template : Text} {parts : List Piece} (h : Cut template parts)
    (registry : Registry σ) (context : Context) (prefixText : Text) (desk : Desk σ) :
    renderAll context prefixText (ofPieces registry parts) desk =
      let rendered := Piece.renderEach registry context prefixText parts desk
      (rendered.1.flatten, rendered.2) := by
  induction h generalizing desk with
  | done => rfl
  | token hs _ ih =>
      rw [renderAll_ofPieces_token hs, hs.eq_source]
      simp only [ih, Piece.renderEach, Piece.render, List.flatten_cons]
  | plain _ _ ih =>
      rw [ofPieces, renderAll_prepend, ih]
      simp only [Piece.renderEach, Piece.render, List.flatten_cons]

theorem tokens_prepend (text : Text) (segments : List (Segment σ)) :
    tokens (prepend text segments) = tokens segments := by
  unfold prepend
  split <;> simp [tokens, token?]

theorem tokens_ofPieces (registry : Registry σ) (parts : List Piece) :
    tokens (ofPieces registry parts) =
      ((parts.filterMap Piece.token?).filter fun token =>
        (registry.find? token.name).isSome).map Token.source := by
  induction parts with
  | nil => rfl
  | cons piece rest ih =>
      cases piece with
      | plain c => rw [ofPieces, tokens_prepend, ih]; rfl
      | token token =>
          rw [List.filterMap_cons_some (f := Piece.token?) rfl]
          cases hr : registry.find? token.name with
          | some placeholder =>
              rw [List.filter_cons_of_pos (by simp [hr]), List.map_cons, ← ih]
              simp [ofPieces, ofToken?, hr, tokens, token?]
          | none =>
              rw [List.filter_cons_of_neg (by simp [hr]), ← ih]
              by_cases ht : token = prefixToken
              · subst ht
                simp [ofPieces, ofToken?, hr, tokens, token?]
              · simp only [ofPieces, ofToken?, hr, if_neg ht, tokens_prepend]

end Segment

namespace Format

/-- A rendering puts out the texts of the pieces of the template under the present registry, also
when the segments were compiled earlier. -/
theorem render_eq_renderEach {format : Format σ} (coherent : format.Coherent) (context : Context)
    (prefixText : Text) (desk : Desk σ) :
    let rendered := format.render context prefixText desk
    let texts :=
      Piece.renderEach format.registry context prefixText (pieces format.template) desk
    rendered.1 = texts.1.flatten ∧ rendered.2.2 = texts.2 := by
  have hall := Segment.renderAll_of_cut (cut_pieces format.template) format.registry context
    prefixText desk
  rw [← Segment.compile, ← segments, ← compile_eq_segments coherent] at hall
  exact Prod.ext_iff.1 hall

/-- After a rendering, the compiled tokens are the occurrences whose names are registered. -/
theorem compiledTokens_render {format : Format σ} (coherent : format.Coherent) (context : Context)
    (prefixText : Text) (desk : Desk σ) :
    (format.render context prefixText desk).2.1.compiledTokens =
      ((occurrences format.template).filter fun token =>
        (format.registry.find? token.name).isSome).map Token.source := by
  rw [occurrences, ← Segment.tokens_ofPieces, ← Segment.compile, ← segments,
    ← compile_eq_segments coherent]
  rfl

end Format

end Logbook
