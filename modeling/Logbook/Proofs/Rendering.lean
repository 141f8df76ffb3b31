import Logbook.Format.Basic
import Logbook.Proofs.TokenForms
import Mathlib.Data.List.Chain

/-!
# Rendering as rewriting

A rendering is one rewriting of the template from left to right. `Rewrites` states that rewriting
by the grammar of tokens, without segments and without a compiled form; every format renders by it,
whether its segments are compiled for the rendering or left from an earlier one. The segments keep
the template, and neighbouring literal text is one literal.
-/

namespace Logbook

variable {σ : Type}

/-! ## The rewriting -/

/-- What a spelled token gives way to: the output of its placeholder, the prefix and a space, or
the spelling itself. -/
def tokenOutput (registry : Registry σ) (context : Context) (prefixText spelling : Text)
    (token : Token) (desk : Desk σ) : Text × Desk σ :=
  match registry.find? token.name with
  | some placeholder => placeholder.render context (token.argument.getD []) desk
  | none =>
      if spelling = "$\x7bprefix\x7d".toList then
        (if prefixText = [] then [] else prefixText ++ [' '], desk)
      else (spelling, desk)

/-- A template and a desk are rewritten to an output and a later desk. A token is taken wherever
one is spelled, and the rewriting goes on behind it; any other character stands for itself. -/
inductive Rewrites (registry : Registry σ) (context : Context) (prefixText : Text) :
    Text → Desk σ → Text → Desk σ → Prop where
  | done (desk : Desk σ) : Rewrites registry context prefixText [] desk [] desk
  | token {spelling rest output more : Text} {token : Token} {desk next after : Desk σ} :
      Token.Spells spelling token →
      tokenOutput registry context prefixText spelling token desk = (output, next) →
      Rewrites registry context prefixText rest next more after →
      Rewrites registry context prefixText (spelling ++ rest) desk (output ++ more) after
  | plain {c : Char} {rest more : Text} {desk after : Desk σ} :
      Token.NoneAt (c :: rest) →
      Rewrites registry context prefixText rest desk more after →
      Rewrites registry context prefixText (c :: rest) desk (c :: more) after

namespace Segment

theorem renderAll_prepend (context : Context) (prefixText text : Text)
    (segments : List (Segment σ)) (desk : Desk σ) :
    renderAll context prefixText (prepend text segments) desk =
      (text ++ (renderAll context prefixText segments desk).1,
        (renderAll context prefixText segments desk).2) := by
  unfold prepend
  split <;> simp [renderAll, render]

theorem eq_prefixToken_iff {spelling : Text} {token : Token} (h : Token.Spells spelling token) :
    token = prefixToken ↔ spelling = "$\x7bprefix\x7d".toList := by
  constructor
  · rintro rfl
    exact h.eq_source
  · intro hs
    have hread := Token.read?_append h []
    rw [hs] at hread
    have hmark : Token.read? ("$\x7bprefix\x7d".toList ++ []) = some (prefixToken, []) := by
      decide
    rw [hmark] at hread
    cases hread
    rfl

/-- The segment of a token, or the literal text that it stays, puts out what the token gives way
to. -/
theorem renderAll_ofPieces_token {spelling : Text} {token : Token}
    (h : Token.Spells spelling token) (registry : Registry σ) (context : Context)
    (prefixText : Text) (list : List Piece) (desk : Desk σ) :
    renderAll context prefixText (ofPieces registry (.token token :: list)) desk =
      let found := tokenOutput registry context prefixText spelling token desk
      let others := renderAll context prefixText (ofPieces registry list) found.2
      (found.1 ++ others.1, others.2) := by
  cases hr : registry.find? token.name with
  | some placeholder =>
      simp [ofPieces, ofToken?, tokenOutput, hr, renderAll, render, Token.argumentText]
  | none =>
      by_cases ht : token = prefixToken
      · have hs := (eq_prefixToken_iff h).1 ht
        subst ht
        simp [ofPieces, ofToken?, tokenOutput, hr, hs, renderAll, render, prefixOutput]
      · have hs := mt (eq_prefixToken_iff h).2 ht
        rw [h.eq_source] at hs
        simp only [ofPieces, ofToken?, tokenOutput, hr, if_neg ht, h.eq_source, if_neg hs,
          renderAll_prepend]

theorem rewrites_renderAll (registry : Registry σ) (context : Context) (prefixText : Text)
    (template : Text) (desk : Desk σ) :
    Rewrites registry context prefixText template desk
      (renderAll context prefixText (compile registry template) desk).1
      (renderAll context prefixText (compile registry template) desk).2 := by
  unfold compile
  fun_induction pieces template generalizing desk with
  | case1 => exact .done desk
  | case2 c rest token behind h _ ih =>
      have hs := Token.spells_of_read? h
      rw [renderAll_ofPieces_token hs, Token.source_append_of_read? h]
      exact .token hs rfl (ih _)
  | case3 c rest h ih =>
      rw [ofPieces, renderAll_prepend]
      exact .plain (Token.read?_eq_none_iff.1 h) (ih desk)

/-- No other output and no other desk come out of the rewriting. -/
theorem renderAll_eq_of_rewrites {registry : Registry σ} {context : Context}
    {prefixText template output : Text} {desk after : Desk σ}
    (h : Rewrites registry context prefixText template desk output after) :
    renderAll context prefixText (compile registry template) desk = (output, after) := by
  unfold compile
  induction h with
  | done desk => rw [pieces]; rfl
  | token hs houtput _ ih =>
      rw [pieces_append_of_spells hs, renderAll_ofPieces_token hs, houtput]
      simp only [ih]
  | plain hnone _ ih =>
      rw [pieces_cons_of_noneAt hnone, ofPieces, renderAll_prepend, ih]
      rfl

theorem rewrites_iff {registry : Registry σ} {context : Context}
    {prefixText template output : Text} {desk after : Desk σ} :
    Rewrites registry context prefixText template desk output after ↔
      renderAll context prefixText (compile registry template) desk = (output, after) := by
  constructor
  · exact renderAll_eq_of_rewrites
  · intro h
    have hr := rewrites_renderAll registry context prefixText template desk
    rwa [h] at hr

/-! ## Literal text -/

def IsLiteral : Segment σ → Prop
  | .literal _ => True
  | _ => False

/-- Every literal holds some text and no two literals are neighbours. -/
structure Tidy (segments : List (Segment σ)) : Prop where
  nonempty : ∀ text, .literal text ∈ segments → text ≠ []
  apart : segments.IsChain fun a b => ¬ (a.IsLiteral ∧ b.IsLiteral)

theorem tidy_nil : Tidy ([] : List (Segment σ)) := ⟨by simp, .nil⟩

theorem Tidy.cons {segment : Segment σ} {rest : List (Segment σ)} (h : Tidy rest)
    (hs : ¬ segment.IsLiteral) : Tidy (segment :: rest) := by
  constructor
  · intro text hm
    rcases List.mem_cons.1 hm with rfl | hm
    · exact absurd trivial hs
    · exact h.nonempty text hm
  · exact h.apart.cons fun next _ both => hs both.1

/-- Literal text that joins the literal behind it leaves none behind. -/
theorem Tidy.prepend {text : Text} {rest : List (Segment σ)} (h : Tidy rest) (ht : text ≠ []) :
    Tidy (prepend text rest) := by
  unfold Segment.prepend
  split
  · rename_i joined behind
    constructor
    · intro other hm
      rcases List.mem_cons.1 hm with heq | hm
      · cases heq
        simp [ht]
      · exact h.nonempty other (List.mem_cons_of_mem _ hm)
    · exact h.apart.tail.cons fun next hn both =>
        (List.isChain_cons.1 h.apart).1 next hn ⟨trivial, both.2⟩
  · rename_i hfirst
    constructor
    · intro other hm
      rcases List.mem_cons.1 hm with heq | hm
      · cases heq
        exact ht
      · exact h.nonempty other hm
    · refine h.apart.cons fun next hn both => ?_
      cases rest with
      | nil => cases hn
      | cons first behind =>
          obtain rfl : first = next := by simpa using hn
          cases first with
          | literal joined => exact hfirst joined behind rfl
          | replacement token placeholder => exact both.2
          | prefixMark => exact both.2

theorem not_isLiteral_of_ofToken? {registry : Registry σ} {token : Token} {segment : Segment σ}
    (h : ofToken? registry token = some segment) : ¬ segment.IsLiteral := by
  unfold ofToken? at h
  split at h
  · cases h
    exact id
  · split at h
    · cases h
      exact id
    · cases h

theorem tidy_ofPieces (registry : Registry σ) (list : List Piece) :
    Tidy (ofPieces registry list) := by
  induction list with
  | nil => exact tidy_nil
  | cons piece rest ih =>
      cases piece with
      | plain c => exact ih.prepend (by simp)
      | token token =>
          unfold ofPieces
          split
          · rename_i segment h
            exact ih.cons (not_isLiteral_of_ofToken? h)
          · exact ih.prepend (by simp [Token.source])

end Segment

/-! ## Formats -/

namespace Format

/-- The formats that come about: made from a template and a registry, and then rendered, reset or
given other placeholders, in any order. -/
inductive Made : Format σ → Prop where
  | fresh (template : Text) (registry : Registry σ) : Made { template, registry }
  | rendered {format : Format σ} (context : Context) (prefixText : Text) (desk : Desk σ) :
      Made format → Made (format.render context prefixText desk).2.1
  | reset {format : Format σ} : Made format → Made format.reset
  | registered {format : Format σ} (name : Text) (placeholder : Placeholder σ) :
      Made format → Made (format.register name placeholder)
  | replaced {format : Format σ} (registry : Registry σ) :
      Made format → Made (format.withRegistry registry)

theorem Made.coherent {format : Format σ} (made : format.Made) : format.Coherent := by
  induction made with
  | fresh template registry => intro segments h; cases h
  | rendered context prefixText desk _ ih => exact coherent_render ih context prefixText desk
  | reset _ _ => exact coherent_reset _
  | registered name placeholder _ _ => exact coherent_withRegistry _ _
  | replaced registry _ _ => exact coherent_withRegistry _ registry

/-- Every format renders by the rewriting of its template against its present registry. The
segments that it then keeps are the template, cut into literals and replacements without an empty
literal or two literals side by side. -/
theorem render_by_rewriting {format : Format σ} (made : format.Made) (context : Context)
    (prefixText : Text) (desk : Desk σ) :
    (∀ output after,
      Rewrites format.registry context prefixText format.template desk output after ↔
        (format.render context prefixText desk).1 = output ∧
          (format.render context prefixText desk).2.2 = after) ∧
    ∃ segments, (format.render context prefixText desk).2.1.compiled = some segments ∧
      segments.flatMap Segment.source = format.template ∧ Segment.Tidy segments := by
  have hcompile : format.compile = Segment.compile format.registry format.template :=
    compile_eq_segments made.coherent
  constructor
  · intro output after
    rw [Segment.rewrites_iff, ← hcompile, Prod.ext_iff]
    rfl
  · refine ⟨format.compile, rfl, ?_, ?_⟩
    · rw [hcompile, Segment.flatMap_source_compile]
    · rw [hcompile]
      exact Segment.tidy_ofPieces format.registry (pieces format.template)

/-- A reset format. Its template has an unknown token with an opening in its argument, a doubled
dollar sign, an argument with a line feed and an unclosed token. -/
def tangled : Format Unit :=
  ({ template := "$\x7bno:$\x7blevel\x7d $$\x7braw:a\nb\x7d $\x7bprefix\x7d%s$\x7bx".toList,
     registry := Registry.builtin.insert "raw".toList
      (.pure fun _ argument => "$\x7blevel\x7d".toList ++ argument) } : Format Unit).reset

theorem tangled_rewrites :
    tangled.Made ∧ ∃ after,
      Rewrites tangled.registry { level := .info, instant := ⟨0, 0, 0⟩ } "db".toList
        tangled.template { own := () }
        "$\x7bno:$\x7blevel\x7d $$\x7blevel\x7da\nb db %s$\x7bx".toList after := by
  have made : tangled.Made := .reset (.fresh _ _)
  refine ⟨made, _, ((render_by_rewriting made _ _ _).1 _ _).2 ⟨?_, rfl⟩⟩
  decide +kernel

end Format

end Logbook
