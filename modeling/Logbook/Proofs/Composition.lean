import Logbook.Proofs.TokenBoundaries

/-!
# Templates compose

A template in front of another one is rendered as if it stood alone, and so is the one behind it, as
long as the front template cannot leave a token open: behind its last token it has no dollar sign.
A dollar sign before that token is settled within the front template, since the closing brace of
that token ends every name and every argument that was begun.
-/

namespace Logbook

variable {σ : Type}

/-! ## Where tokens end -/

namespace Token

theorem Spells.exists_body {spelling : Text} {token : Token} (h : Spells spelling token) :
    ∃ body, spelling = body ++ ['\x7d'] ∧ '\x7d' ∉ body := by
  have hname : ∀ {name : Text}, (∀ c ∈ name, NameLetter c) → '\x7d' ∉ name := by
    intro name letters hm
    exact absurd ((isNameChar_iff '\x7d').2 (letters _ hm)) (by decide)
  cases h with
  | @bare name nonempty letters =>
      exact ⟨'$' :: '\x7b' :: name, rfl, by simp [hname letters]⟩
  | @argued name argument nonempty letters closed =>
      exact ⟨'$' :: '\x7b' :: (name ++ ':' :: argument), by simp, by simp [hname letters, closed]⟩

/-- Where no token is spelled, none comes about by what is added behind a closing brace. -/
theorem NoneAt.append {text : Text} (h : NoneAt text) (closed : '\x7d' ∈ text) (more : Text) :
    NoneAt (text ++ more) := by
  intro spelling token rest hs heq
  obtain ⟨body, hspelling, hbody⟩ := hs.exists_body
  rcases List.append_eq_append_iff.1 heq with ⟨added, hadded, -⟩ | ⟨behind, htext, -⟩
  · cases added using List.reverseRec with
    | nil => exact h spelling token [] hs (by rw [hadded, List.append_nil, List.append_nil])
    | append_singleton front last =>
        -- the brace in the text is not the last character of the spelling
        rw [hspelling, ← List.append_assoc] at hadded
        rw [List.append_inj_left' hadded rfl] at hbody
        exact hbody (List.mem_append_left front closed)
  · exact h spelling token behind hs htext

theorem noneAt_of_ne {c : Char} (h : c ≠ '$') (rest : Text) : NoneAt (c :: rest) := by
  intro spelling token behind hs heq
  cases hs <;> exact h (List.cons_eq_cons.1 heq).1

end Token

/-! ## What stands behind the last token -/

namespace Piece

def isPlain (piece : Piece) : Bool := piece.token?.isNone

def plainEnd (parts : List Piece) : Text :=
  (parts.reverse.takeWhile isPlain).reverse.flatMap source

theorem plainEnd_cons (piece : Piece) (rest : List Piece) :
    plainEnd (piece :: rest) =
      if rest.all isPlain && piece.isPlain then piece.source ++ plainEnd rest
      else plainEnd rest := by
  unfold plainEnd
  rw [List.reverse_cons, List.takeWhile_append]
  by_cases h : ∀ other ∈ rest, isPlain other = true
  · have hrest : rest.reverse.takeWhile isPlain = rest.reverse :=
      List.takeWhile_eq_self_iff.2 (by simpa using h)
    rw [hrest, if_pos rfl, List.all_eq_true.2 h]
    cases hpiece : piece.isPlain <;> simp [hpiece]
  · have hrest : (rest.reverse.takeWhile isPlain).length ≠ rest.reverse.length := by
      intro hlength
      have hall := (List.takeWhile_prefix isPlain).eq_of_length hlength
      exact h (by simpa using List.takeWhile_eq_self_iff.1 hall)
    have hall : rest.all isPlain = false := by simpa using h
    rw [if_neg hrest, hall, Bool.false_and, if_neg Bool.false_ne_true]

theorem plainEnd_token (found : Token) (rest : List Piece) :
    plainEnd (.token found :: rest) = plainEnd rest := by
  simp [plainEnd_cons, isPlain, token?]

theorem mem_plainEnd_cons {c : Char} {rest : List Piece} (h : c ∈ plainEnd rest) (piece : Piece) :
    c ∈ plainEnd (piece :: rest) := by
  rw [plainEnd_cons]
  split
  · exact List.mem_append_right _ h
  · exact h

/-- A single character is at the end or a token comes behind it. -/
theorem mem_plainEnd_or_token (c : Char) (rest : List Piece) :
    c ∈ plainEnd (.plain c :: rest) ∨ ∃ found, .token found ∈ rest := by
  by_cases h : rest.all isPlain = true
  · refine .inl ?_
    simp [plainEnd_cons, h, isPlain, token?, source]
  · obtain ⟨piece, hm, hpiece⟩ : ∃ piece ∈ rest, piece.isPlain = false := by simpa using h
    cases piece with
    | plain d => cases hpiece
    | token found => exact .inr ⟨found, hm⟩

theorem renderEach_append (registry : Registry σ) (context : Context) (prefixText : Text)
    (first second : List Piece) (desk : Desk σ) :
    renderEach registry context prefixText (first ++ second) desk =
      ((renderEach registry context prefixText first desk).1 ++
        (renderEach registry context prefixText second
          (renderEach registry context prefixText first desk).2).1,
        (renderEach registry context prefixText second
          (renderEach registry context prefixText first desk).2).2) := by
  induction first generalizing desk with
  | nil => rfl
  | cons piece rest ih => simp only [List.cons_append, renderEach, ih]

section

variable (registry : Registry σ) (context : Context) (prefixText : Text)

theorem sameAnswers_render (piece : Piece) (desk : Desk σ) :
    desk.memo.SameAnswers (piece.render registry context prefixText desk).2.memo := by
  cases piece with
  | plain c => exact .refl desk.memo
  | token found =>
      rw [snd_render_token]
      cases registry.find? found.name with
      | none => exact .refl desk.memo
      | some placeholder =>
          exact placeholder.sameAnswers_render context (found.argument.getD []) desk

theorem sameAnswers_renderEach (parts : List Piece) (desk : Desk σ) :
    desk.memo.SameAnswers (renderEach registry context prefixText parts desk).2.memo := by
  induction parts generalizing desk with
  | nil => exact .refl desk.memo
  | cons piece rest ih =>
      exact (piece.sameAnswers_render registry context prefixText desk).trans (ih _)

/-- Texts of steady placeholders come out alike wherever the memo answers alike. -/
theorem renderEach_steady (steady : registry.Steady) (parts : List Piece) {desk desk' : Desk σ}
    (same : desk.memo.SameAnswers desk'.memo) :
    (renderEach registry context prefixText parts desk').1 =
      (renderEach registry context prefixText parts desk).1 := by
  induction parts generalizing desk desk' with
  | nil => rfl
  | cons piece rest ih =>
      have like : desk.Like (fun _ _ => True) desk' := ⟨same, trivial⟩
      obtain ⟨htext, hlike⟩ := piece.render_like context prefixText
        (fun token placeholder _ hfind context argument own own' _ =>
          ⟨steady token.name placeholder hfind context argument own' own, trivial⟩) like
      simp only [renderEach, htext, ih hlike.memo]

end

end Piece

/-- What a template has behind its last token; the whole template where it has none. -/
def behindTokens (template : Text) : Text := Piece.plainEnd (pieces template)

theorem Cut.flatMap_source {template : Text} {parts : List Piece} (h : Cut template parts) :
    parts.flatMap Piece.source = template := by
  rw [cut_iff.1 h, flatMap_source_pieces]

theorem Cut.brace_mem {template : Text} {parts : List Piece} (h : Cut template parts)
    {found : Token} (hm : .token found ∈ parts) : '\x7d' ∈ template := by
  have hsource : '\x7d' ∈ found.source := by simp [Token.source]
  rw [← h.flatMap_source]
  exact List.mem_flatMap.2 ⟨_, hm, hsource⟩

/-- Two cut templates are cut at the same places when the one stands behind the other, if behind the
last token of the front one there is no dollar sign. -/
theorem Cut.append {first second : Text} {parts others : List Piece} (h : Cut first parts)
    (hend : '$' ∉ Piece.plainEnd parts) (h' : Cut second others) :
    Cut (first ++ second) (parts ++ others) := by
  induction h with
  | done => exact h'
  | token hs _ ih =>
      rw [Piece.plainEnd_token] at hend
      rw [List.append_assoc]
      exact .token hs (ih hend)
  | @plain c rest parts hnone hcut ih =>
      have hrest := ih fun hm => hend (Piece.mem_plainEnd_cons hm (.plain c))
      refine .plain ?_ hrest
      by_cases hc : c = '$'
      · -- a dollar sign has a token behind it, whose brace is there to refuse it
        subst hc
        obtain ⟨found, hm⟩ := (Piece.mem_plainEnd_or_token '$' parts).resolve_left hend
        exact hnone.append (List.mem_cons_of_mem _ (hcut.brace_mem hm)) second
      · exact Token.noneAt_of_ne hc (rest ++ second)

theorem pieces_append {first : Text} (h : '$' ∉ behindTokens first) (second : Text) :
    pieces (first ++ second) = pieces first ++ pieces second :=
  (cut_iff.1 ((cut_pieces first).append h (cut_pieces second))).symm

theorem occurrences_append {first : Text} (h : '$' ∉ behindTokens first) (second : Text) :
    occurrences (first ++ second) = occurrences first ++ occurrences second := by
  rw [occurrences, pieces_append h, List.filterMap_append]
  rfl

namespace Format

theorem Made.sameAnswers_render {format : Format σ} (made : format.Made) (context : Context)
    (prefixText : Text) (desk : Desk σ) :
    desk.memo.SameAnswers (format.render context prefixText desk).2.2.memo := by
  rw [(render_eq_renderEach made.coherent context prefixText desk).2]
  exact Piece.sameAnswers_renderEach _ context prefixText _ desk

/-- If the texts of its placeholders do not depend on what placeholders keep, a format renders the
same text whenever the memo answers the same. -/
theorem Made.render_steady {format : Format σ} (made : format.Made)
    (steady : format.registry.Steady) (context : Context) (prefixText : Text)
    {desk desk' : Desk σ} (same : desk.memo.SameAnswers desk'.memo) :
    (format.render context prefixText desk').1 = (format.render context prefixText desk).1 := by
  rw [(render_eq_renderEach made.coherent context prefixText desk).1,
    (render_eq_renderEach made.coherent context prefixText desk').1,
    Piece.renderEach_steady _ context prefixText steady _ same]

/-- A template without a dollar sign behind its last token composes with every other: under one
registry the two templates in a row render to the two texts in a row, with the tokens of both, where
the second rendering is made on the desk that the first has left. If the texts of the placeholders
do not depend on what placeholders keep, it does not matter when and on which desk each rendering is
made, as long as the memo answers the same there. -/
theorem render_of_composed {one two both : Format σ} (hend : '$' ∉ behindTokens one.template)
    (hboth : both.template = one.template ++ two.template) (hregistry : two.registry = one.registry)
    (hregistry' : both.registry = one.registry) (made : one.Made) (made' : two.Made)
    (made'' : both.Made) (context : Context) (prefixText : Text) (desk : Desk σ) :
    let front := one.render context prefixText desk
    let back := two.render context prefixText front.2.2
    let whole := both.render context prefixText desk
    (whole.1 = front.1 ++ back.1 ∧ whole.2.2 = back.2.2 ∧
        whole.2.1.compiledTokens = front.2.1.compiledTokens ++ back.2.1.compiledTokens) ∧
      (one.registry.Steady → ∀ desk' desk'' : Desk σ, desk.memo.SameAnswers desk'.memo →
        desk.memo.SameAnswers desk''.memo →
          whole.1 = (one.render context prefixText desk').1 ++
            (two.render context prefixText desk'').1) := by
  intro front back whole
  obtain ⟨hfront, hdesk⟩ := render_eq_renderEach made.coherent context prefixText desk
  obtain ⟨hback, hdesk'⟩ := render_eq_renderEach made'.coherent context prefixText front.2.2
  obtain ⟨hwhole, hdesk''⟩ := render_eq_renderEach made''.coherent context prefixText desk
  rw [hregistry', hboth, pieces_append hend, Piece.renderEach_append, ← hdesk] at hwhole hdesk''
  rw [hregistry] at hback hdesk'
  have htext : whole.1 = front.1 ++ back.1 := by
    rw [hfront, hback, ← List.flatten_append]
    exact hwhole
  refine ⟨⟨htext, hdesk''.trans hdesk'.symm, ?_⟩, fun steady desk' desk'' same same' => ?_⟩
  · simp only [whole, front, back, compiledTokens_render made.coherent,
      compiledTokens_render made'.coherent, compiledTokens_render made''.coherent, hboth,
      hregistry, hregistry', occurrences_append hend, List.filter_append, List.map_append]
  · have steady' : two.registry.Steady := hregistry ▸ steady
    have hlater := made.sameAnswers_render context prefixText desk
    rw [htext, made.render_steady steady context prefixText same,
      made'.render_steady steady' context prefixText (hlater.symm.trans same')]

def shielding : Format Unit :=
  { template := "$\x7b$\x7bno:$\x7blevel\x7d [$\x7blevel:%s:left\x7d] %".toList }

def trailing : Format Unit := { template := "s:x\x7d $\x7bprefix\x7d$\x7blevel".toList }

theorem render_of_composed_shielding :
    let context : Context := { level := .warning, instant := ⟨0, 0, 0⟩ }
    let both : Format Unit := { template := shielding.template ++ trailing.template }
    behindTokens shielding.template = "] %".toList ∧
      (both.render context "db".toList { own := () }).1 =
        "$\x7b$\x7bno:$\x7blevel\x7d [WARNING] %".toList ++
          "s:x\x7d db $\x7blevel".toList := by
  intro context both
  have hbehind : behindTokens shielding.template = "] %".toList := by decide +kernel
  have hend : '$' ∉ behindTokens shielding.template := by rw [hbehind]; decide
  have hfront : (shielding.render context "db".toList { own := () }).1 =
      "$\x7b$\x7bno:$\x7blevel\x7d [WARNING] %".toList := by decide +kernel
  have hback : (trailing.render context "db".toList { own := () }).1 =
      "s:x\x7d db $\x7blevel".toList := by decide +kernel
  have hboth : both.template = shielding.template ++ trailing.template := rfl
  have hcomposed := (render_of_composed hend hboth rfl rfl (.fresh _ _) (.fresh _ _) (.fresh _ _)
    context "db".toList { own := () }).2 Registry.steady_builtin { own := () } { own := () }
    (.refl _) (.refl _)
  rw [hfront, hback] at hcomposed
  exact ⟨hbehind, hcomposed⟩

end Format

end Logbook
