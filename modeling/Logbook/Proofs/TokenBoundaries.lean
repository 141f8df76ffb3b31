import Logbook.Proofs.PlaceholderCalls
import Logbook.Proofs.SteadyFormats

/-!
# Token boundaries

Two renderings of one template under two registries that differ in one name. Both cut the template
alike, so that they differ in the texts at the tokens of that name alone, as long as what the
placeholders of that name change is not what the others read. Asking for the text of a level is no
such change: it fills the memo, but alters no later answer.
-/

namespace Logbook

variable {σ : Type}

/-! ## Memos that answer alike -/

namespace Memo

/-- Asked for the text of a level, both memos give the same. -/
def SameAnswers (memo other : Memo) : Prop :=
  ∀ level argument, (Builtin.rememberedLevel level argument other).1 =
    (Builtin.rememberedLevel level argument memo).1

theorem SameAnswers.refl (memo : Memo) : memo.SameAnswers memo := fun _ _ => rfl

theorem SameAnswers.symm {memo other : Memo} (h : memo.SameAnswers other) :
    other.SameAnswers memo := fun level argument => (h level argument).symm

theorem SameAnswers.trans {memo next other : Memo} (h : memo.SameAnswers next)
    (hnext : next.SameAnswers other) : memo.SameAnswers other :=
  fun level argument => (hnext level argument).trans (h level argument)

theorem Honest.sameAnswers {memo other : Memo} (honest : memo.Honest) (honest' : other.Honest) :
    memo.SameAnswers other := by
  intro level argument
  rw [honest.rememberedLevel_eq, honest'.rememberedLevel_eq]

theorem fst_split (memo : Memo) (argument : Text) :
    (memo.split argument).1 = (memo.splits.find? argument).getD (Argument.split argument) := by
  unfold split
  split <;> rename_i h <;> simp [h]

theorem fst_split_split (memo : Memo) (argument other : Text) :
    ((memo.split argument).2.split other).1 = (memo.split other).1 := by
  rw [fst_split, fst_split]
  unfold split
  split
  · rfl
  · rename_i hnone
    by_cases h : argument = other
    · subst h
      simp [hnone]
    · simp [h]

theorem fst_rememberedLevel (memo : Memo) (level : Level) (argument : Text) :
    (Builtin.rememberedLevel level argument memo).1 =
      (memo.output? ⟨Builtin.levelName, level, argument⟩).getD
        (Builtin.levelColumn level (memo.split argument).1) := by
  unfold Builtin.rememberedLevel
  cases h : memo.output? ⟨Builtin.levelName, level, argument⟩ with
  | some text => rw [output_of_some _ h]; rfl
  | none => rw [output_of_none _ h]; rfl

theorem output?_rememberedLevel (memo : Memo) (level : Level) (argument : Text) (key : MemoKey) :
    (Builtin.rememberedLevel level argument memo).2.output? key =
      if ⟨Builtin.levelName, level, argument⟩ = key then
        some (Builtin.rememberedLevel level argument memo).1
      else memo.output? key := by
  unfold Builtin.rememberedLevel
  cases h : memo.output? ⟨Builtin.levelName, level, argument⟩ with
  | some text =>
      rw [output_of_some _ h]
      split
      · rename_i hkey
        rw [← hkey, h]
      · rfl
  | none =>
      rw [output_of_none _ h, output?_store]
      simp only [output?, outputs_split]

theorem fst_split_rememberedLevel (memo : Memo) (level : Level) (argument other : Text) :
    ((Builtin.rememberedLevel level argument memo).2.split other).1 = (memo.split other).1 := by
  unfold Builtin.rememberedLevel
  cases h : memo.output? ⟨Builtin.levelName, level, argument⟩ with
  | some text => rw [output_of_some _ h]
  | none =>
      rw [output_of_none _ h, ← fst_split_split memo argument other, fst_split, fst_split,
        splits_store]

/-- Asking for the text of a level alters no later answer, whatever is remembered. -/
theorem sameAnswers_rememberedLevel (memo : Memo) (level : Level) (argument : Text) :
    memo.SameAnswers (Builtin.rememberedLevel level argument memo).2 := by
  intro other otherArgument
  rw [fst_rememberedLevel, output?_rememberedLevel, fst_split_rememberedLevel]
  split
  · rename_i hkey
    cases hkey
    rfl
  · rw [← fst_rememberedLevel]

end Memo

/-! ## Desks that look alike -/

/-- The memos of two desks answer alike, and what placeholders keep there is related. -/
structure Desk.Like (same : σ → σ → Prop) (desk other : Desk σ) : Prop where
  memo : desk.memo.SameAnswers other.memo
  own : same desk.own other.own

namespace Placeholder

/-- From related states come the same text and related states. -/
def Keeps (same : σ → σ → Prop) (placeholder : Placeholder σ) : Prop :=
  ∀ context argument own own', same own own' →
    (placeholder.output context argument own').1 = (placeholder.output context argument own).1 ∧
      same (placeholder.output context argument own).2 (placeholder.output context argument own').2

theorem sameAnswers_render (placeholder : Placeholder σ) (context : Context) (argument : Text)
    (desk : Desk σ) :
    desk.memo.SameAnswers (placeholder.render context argument desk).2.memo := by
  cases placeholder with
  | level => exact desk.memo.sameAnswers_rememberedLevel context.level argument
  | _ => exact .refl desk.memo

theorem Keeps.render {same : σ → σ → Prop} {placeholder : Placeholder σ}
    (keeps : placeholder.Keeps same) {desk other : Desk σ} (like : desk.Like same other)
    (context : Context) (argument : Text) :
    (placeholder.render context argument other).1 =
        (placeholder.render context argument desk).1 ∧
      (placeholder.render context argument desk).2.Like same
        (placeholder.render context argument other).2 := by
  obtain ⟨htext, hown⟩ := keeps context argument desk.own other.own like.own
  refine ⟨?_, ?_, ?_⟩
  · cases placeholder with
    | level => exact like.memo context.level argument
    | custom run => exact htext
    | _ => rfl
  · have hdesk := placeholder.sameAnswers_render context argument desk
    have hother := placeholder.sameAnswers_render context argument other
    exact hdesk.symm.trans (like.memo.trans hother)
  · rw [own_render, own_render]
    exact hown

end Placeholder

/-- In two registries, what the placeholders of a name change does not show in what all others put
out: they keep states related that the placeholders of the name leave related. -/
structure Registry.Apart (name : Text) (registry other : Registry σ) (same : σ → σ → Prop) :
    Prop where
  here : ∀ placeholder, registry.find? name = some placeholder →
    ∀ context argument own own', same own own' →
      same (placeholder.output context argument own).2 own'
  there : ∀ placeholder, other.find? name = some placeholder →
    ∀ context argument own own', same own own' →
      same own (placeholder.output context argument own').2
  others : ∀ n placeholder, n ≠ name → registry.find? n = some placeholder →
    placeholder.Keeps same

/-- The placeholders of all other names are functions of the context and the argument. -/
def Registry.SteadyBut (name : Text) (registry : Registry σ) : Prop :=
  ∀ n placeholder, n ≠ name → registry.find? n = some placeholder → placeholder.Steady

theorem Registry.SteadyBut.apart {registry : Registry σ} {name : Text}
    (steady : registry.SteadyBut name) (other : Registry σ) :
    registry.Apart name other fun _ _ => True := by
  constructor
  · intros; trivial
  · intros; trivial
  · intro n placeholder hne hfind context argument own own' _
    exact ⟨steady n placeholder hne hfind context argument own' own, trivial⟩

/-- Two registries have the same placeholders under all names but one. -/
def Registry.AgreeBut (name : Text) (registry other : Registry σ) : Prop :=
  ∀ n, n ≠ name → other.find? n = registry.find? n

theorem Registry.agreeBut_insert (registry : Registry σ) (name : Text)
    (placeholder : Placeholder σ) : registry.AgreeBut name (registry.insert name placeholder) :=
  fun _ hne => Table.find?_insert_of_ne registry placeholder (Ne.symm hne)

def Piece.IsOf (name : Text) : Piece → Prop
  | .plain _ => False
  | .token found => found.name = name

/-- Two renderings put out the same text at every piece that is no token of a name. -/
def SameBut (name : Text) (parts : List Piece) (texts others : List Text) : Prop :=
  ∀ (index : Nat) (piece : Piece), parts[index]? = some piece → ¬ piece.IsOf name →
    others[index]? = texts[index]?

namespace Piece

theorem not_isOf_of_occurrences {template name : Text}
    (h : ∀ token ∈ occurrences template, token.name ≠ name) {piece : Piece}
    (hm : piece ∈ pieces template) : ¬ piece.IsOf name := by
  cases piece with
  | plain c => exact id
  | token found => exact h found (mem_occurrences_iff.2 hm)

section

variable {name : Text} {registry other : Registry σ} (context : Context) (prefixText : Text)

theorem render_of_agreeBut (agree : registry.AgreeBut name other) {piece : Piece}
    (h : ¬ piece.IsOf name) (desk : Desk σ) :
    piece.render other context prefixText desk = piece.render registry context prefixText desk := by
  cases piece with
  | plain c => rfl
  | token found =>
      simp only [render, tokenOutput, agree found.name h]

/-- From desks that look alike, a piece puts out the same text and leaves such desks, if the
placeholder of its token keeps them alike. -/
theorem render_like {same : σ → σ → Prop} {piece : Piece}
    (keeps : ∀ token placeholder, piece = .token token →
      registry.find? token.name = some placeholder → placeholder.Keeps same)
    {desk desk' : Desk σ} (like : desk.Like same desk') :
    (piece.render registry context prefixText desk').1 =
        (piece.render registry context prefixText desk).1 ∧
      (piece.render registry context prefixText desk).2.Like same
        (piece.render registry context prefixText desk').2 := by
  cases piece with
  | plain c => exact ⟨rfl, like⟩
  | token found =>
      simp only [render, tokenOutput]
      cases hfind : registry.find? found.name with
      | none =>
          dsimp only
          split <;> exact ⟨rfl, like⟩
      | some placeholder =>
          exact (keeps found placeholder rfl hfind).render like context (found.argument.getD [])

/-- From desks that look alike, a piece leaves such desks under the two registries, and it puts out
the same text unless it is a token of the name. -/
theorem render_apart {same : σ → σ → Prop} (agree : registry.AgreeBut name other)
    (apart : registry.Apart name other same) (piece : Piece) {desk desk' : Desk σ}
    (like : desk.Like same desk') :
    (¬ piece.IsOf name → (piece.render other context prefixText desk').1 =
        (piece.render registry context prefixText desk).1) ∧
      (piece.render registry context prefixText desk).2.Like same
        (piece.render other context prefixText desk').2 := by
  cases piece with
  | plain c => exact ⟨fun _ => rfl, like⟩
  | token found =>
      by_cases h : found.name = name
      · subst h
        refine ⟨fun hother => absurd rfl hother, ?_⟩
        have hleft : ((Piece.token found).render registry context prefixText desk).2.Like same
            desk' := by
          rw [snd_render_token]
          cases hfind : registry.find? found.name with
          | none => exact like
          | some placeholder =>
              have hmemo := placeholder.sameAnswers_render context (found.argument.getD []) desk
              refine ⟨hmemo.symm.trans like.memo, ?_⟩
              rw [placeholder.own_render]
              exact apart.here placeholder hfind _ _ _ _ like.own
        rw [snd_render_token other]
        cases hfind : other.find? found.name with
        | none => exact hleft
        | some placeholder =>
            have hmemo := placeholder.sameAnswers_render context (found.argument.getD []) desk'
            refine ⟨hleft.memo.trans hmemo, ?_⟩
            rw [placeholder.own_render]
            exact apart.there placeholder hfind _ _ _ _ hleft.own
      · have keeps : ∀ token placeholder, Piece.token found = .token token →
            registry.find? token.name = some placeholder → placeholder.Keeps same := by
          rintro _ placeholder ⟨⟩ hfind
          exact apart.others found.name placeholder h hfind
        obtain ⟨htext, hlike⟩ := render_like context prefixText keeps like
        have hother : ¬ (Piece.token found).IsOf name := h
        rw [render_of_agreeBut context prefixText agree hother desk']
        exact ⟨fun _ => htext, hlike⟩

/-- Rendered from desks that look alike, pieces put out the same texts under the two registries, but
at the tokens of the name. -/
theorem renderEach_apart {same : σ → σ → Prop} (agree : registry.AgreeBut name other)
    (apart : registry.Apart name other same) (parts : List Piece) {desk desk' : Desk σ}
    (like : desk.Like same desk') :
    SameBut name parts (renderEach registry context prefixText parts desk).1
      (renderEach other context prefixText parts desk').1 := by
  intro index piece hat h
  induction parts generalizing desk desk' index with
  | nil => cases hat
  | cons first rest ih =>
      obtain ⟨htext, hlike⟩ := first.render_apart context prefixText agree apart like
      cases index with
      | zero =>
          cases hat
          simp only [renderEach, List.getElem?_cons_zero, htext h]
      | succ index =>
          simp only [renderEach, List.getElem?_cons_succ]
          exact ih hlike index hat

/-- Where the placeholders of all other names are functions of the context and the argument, it does
not matter what placeholders keep. -/
theorem renderEach_of_steadyBut (agree : registry.AgreeBut name other)
    (steady : registry.SteadyBut name) (parts : List Piece) {desk desk' : Desk σ}
    (answers : desk.memo.SameAnswers desk'.memo) :
    SameBut name parts (renderEach registry context prefixText parts desk).1
      (renderEach other context prefixText parts desk').1 := by
  have like : desk.Like (fun _ _ => True) desk' := ⟨answers, trivial⟩
  exact renderEach_apart context prefixText agree (steady.apart other) parts like

end

end Piece

/-- A name that no token has does not matter to the compilation. -/
theorem Segment.ofPieces_of_agreeBut {name : Text} {registry other : Registry σ}
    (agree : registry.AgreeBut name other) {parts : List Piece}
    (h : ∀ piece ∈ parts, ¬ piece.IsOf name) : ofPieces other parts = ofPieces registry parts := by
  induction parts with
  | nil => rfl
  | cons piece rest ih =>
      obtain ⟨hpiece, hrest⟩ := List.forall_mem_cons.1 h
      cases piece with
      | plain c => rw [ofPieces, ofPieces, ih hrest]
      | token token =>
          have hfind : other.find? token.name = registry.find? token.name :=
            agree token.name hpiece
          simp only [ofPieces, ofToken?, hfind, ih hrest]

/-! ## Formats -/

namespace Format

def texts (format : Format σ) (context : Context) (prefixText : Text) (desk : Desk σ) :
    List Text :=
  (Piece.renderEach format.registry context prefixText (pieces format.template) desk).1

section

variable {format other : Format σ} {name : Text}

theorem compile_of_agreeBut (coherent : format.Coherent) (coherent' : other.Coherent)
    (htemplate : other.template = format.template)
    (agree : format.registry.AgreeBut name other.registry)
    (h : ∀ token ∈ occurrences format.template, token.name ≠ name) :
    other.compile = format.compile := by
  have hpieces : ∀ piece ∈ pieces format.template, ¬ piece.IsOf name :=
    fun _ hm => Piece.not_isOf_of_occurrences h hm
  rw [compile_eq_segments coherent, compile_eq_segments coherent', segments, segments, htemplate]
  exact Segment.ofPieces_of_agreeBut agree hpieces

theorem render_of_compile (h : other.compile = format.compile) (context : Context)
    (prefixText : Text) (desk : Desk σ) :
    let rendered := format.render context prefixText desk
    let again := other.render context prefixText desk
    again.1 = rendered.1 ∧ again.2.2 = rendered.2.2 ∧
      again.2.1.compiledTokens = rendered.2.1.compiledTokens := by
  simp only [render, compiledTokens, h, Option.getD_some, and_self]

end

end Format

namespace Session

/-! ## Sessions -/

theorem Coherent.perform {session : Session σ} (coherent : session.Coherent) (act : Act σ) :
    (session.perform act).Coherent := by
  rintro index formatter hat format rfl
  cases hbefore : session.formatters[index]? with
  | none =>
      have hfresh : format.compiled = none := fresh_of_perform hbefore hat
      intro segments hsegments
      rw [hfresh] at hsegments
      cases hsegments
  | some start =>
      rw [formatter_perform hbefore act] at hat
      have hmade := Option.some.inj hat
      cases start with
      | format found =>
          rw [Formatter.foldl_moved_format] at hmade
          cases hmade
          exact Format.coherent_foldl_moved (coherent index _ hbefore found rfl) _
      | stamp found =>
          obtain ⟨after, hafter⟩ := Formatter.exists_stamp_of_foldl_moved found
            (session.movesAt index act)
          rw [hafter] at hmade
          cases hmade

theorem Reached.coherent {own : σ} {session : Session σ} (reached : Reached own session) :
    session.Coherent := by
  induction reached with
  | fresh =>
      intro index formatter hat
      cases hat
  | act _ _ ih => exact ih.perform _
  | work _ _ ih => exact ih

theorem view_render {session : Session σ} {index : Nat} {format : Format σ}
    (hat : session.formatters[index]? = some (.format format)) (context : Context)
    (prefixText : Text) :
    ((session.render index context prefixText).2.formatters[index]?).map viewFormatter =
      some (.format true (Segment.tokens format.compile)) := by
  obtain ⟨hlt, -⟩ := List.getElem?_eq_some_iff.1 hat
  simp only [render, hat, List.getElem?_set_self hlt]
  rfl

/-- In a session too, where it empties the memo, a placeholder that is registered under a name that
no token has changes neither the text of the format nor what shows of it. -/
theorem Reached.render_register {own : σ} {session : Session σ} (reached : Reached own session)
    {handle : String} {index : Nat} {format : Format σ}
    (hat : session.formatter? handle = some (index, .format format))
    {name : Text} (h : ∀ token ∈ occurrences format.template, token.name ≠ name)
    (placeholder : Placeholder σ) (context : Context) (prefixText : Text) :
    let after := session.perform (.format (.register handle name placeholder))
    let rendered := session.render index context prefixText
    let again := after.render index context prefixText
    again.1 = rendered.1 ∧ again.2.desk.own = rendered.2.desk.own ∧
      (again.2.formatters[index]?).map viewFormatter =
        (rendered.2.formatters[index]?).map viewFormatter := by
  intro after rendered again
  have hbefore : session.formatters[index]? = some (.format format) := getElem?_of_formatter? hat
  have hmove : session.movesAt index (.format (.register handle name placeholder)) =
      [.registered name placeholder] := by
    simp [movesAt, formatterMove?, commandMove?, hat]
  have hafter : after.formatters[index]? = some (.format (format.register name placeholder)) := by
    rw [formatter_perform hbefore, hmove]
    rfl
  have hown : after.desk.own = session.desk.own := by
    simp only [after, perform, release, runFormat, withFormatter_eq, hat]
    rfl
  have coherent := reached.coherent index _ hbefore format rfl
  have hcompile : (format.register name placeholder).compile = format.compile :=
    Format.compile_of_agreeBut coherent (Format.coherent_withRegistry format _) rfl
      (format.registry.agreeBut_insert name placeholder) h
  have reached' : Reached own after := .act reached trivial
  have hall := Segment.renderAll_of_honest reached.honest context prefixText format.compile
  have hall' := Segment.renderAll_of_honest reached'.honest context prefixText format.compile
  rw [hown, ← hall] at hall'
  obtain ⟨htext, hkept⟩ := Prod.ext_iff.1 hall'
  refine ⟨?_, ?_, ?_⟩
  · rw [(render_of_format hafter context prefixText).1,
      (render_of_format hbefore context prefixText).1]
    simp only [Format.render, hcompile]
    exact htext
  · rw [(render_of_format hafter context prefixText).2,
      (render_of_format hbefore context prefixText).2]
    simp only [Format.render, hcompile]
    exact hkept
  · rw [view_render hafter, view_render hbefore, hcompile]

/-- The tokens of a template are settled by the template: there is one way to cut it, the names of
its tokens are letters, digits and underscores, and every rendering leaves as compiled tokens those
whose names are registered and puts out one text for each piece. Under two registries that agree on
all names but one, every piece that is no token of that name does the same from any desk, and so do
whole renderings where no token has that name. The two renderings put out the same texts but at the
tokens of that name, on desks that look alike, whenever what the placeholders of that name change is
apart from what the others read; when the others are functions of the context and the argument, it
is enough that both memos answer alike. In sessions that are reached without storing under the name
of the levels, all memos do, and registering a name that no token has changes nothing that a
rendering puts out or leaves to see. -/
theorem tokens_settled_by_template (own : σ) (template : Text) :
    (∀ parts, Cut template parts ↔ parts = pieces template) ∧
    (∀ token ∈ occurrences template,
      token.name ≠ [] ∧ ∀ c ∈ token.name, Token.NameLetter c) ∧
    (∀ (format : Format σ) context prefixText desk, format.Made → format.template = template →
      let rendered := format.render context prefixText desk
      let texts := format.texts context prefixText desk
      rendered.2.1.compiledTokens =
          ((occurrences template).filter fun token =>
            (format.registry.find? token.name).isSome).map Token.source ∧
        rendered.1 = texts.flatten ∧ texts.length = (pieces template).length) ∧
    (∀ (format other : Format σ) name context prefixText, format.Made → other.Made →
      format.template = template → other.template = template →
      format.registry.AgreeBut name other.registry →
        let alike (desk desk' : Desk σ) := SameBut name (pieces template)
          (format.texts context prefixText desk) (other.texts context prefixText desk')
        (∀ piece : Piece, ¬ piece.IsOf name →
          piece.render other.registry context prefixText =
            piece.render format.registry context prefixText) ∧
        ((∀ token ∈ occurrences template, token.name ≠ name) → ∀ desk,
          let rendered := format.render context prefixText desk
          let again := other.render context prefixText desk
          again.1 = rendered.1 ∧ again.2.2 = rendered.2.2 ∧
            again.2.1.compiledTokens = rendered.2.1.compiledTokens) ∧
        (∀ same, format.registry.Apart name other.registry same →
          ∀ desk desk', desk.Like same desk' → alike desk desk') ∧
        (format.registry.SteadyBut name →
          ∀ desk desk', desk.memo.SameAnswers desk'.memo → alike desk desk')) ∧
    ∀ session, Reached own session →
      (∀ session', Reached own session' → session.desk.memo.SameAnswers session'.desk.memo) ∧
      ∀ handle index format, session.formatter? handle = some (index, .format format) →
        format.template = template → ∀ name, (∀ token ∈ occurrences template, token.name ≠ name) →
          ∀ placeholder context prefixText,
            let after := session.perform (.format (.register handle name placeholder))
            let rendered := session.render index context prefixText
            let again := after.render index context prefixText
            again.1 = rendered.1 ∧ again.2.desk.own = rendered.2.desk.own ∧
              (again.2.formatters[index]?).map viewFormatter =
                (rendered.2.formatters[index]?).map viewFormatter := by
  refine ⟨fun parts => cut_iff, fun token hm => ?_, ?_, ?_, fun session reached => ⟨?_, ?_⟩⟩
  · have hspells := (cut_pieces template).spells (mem_occurrences_iff.1 hm)
    exact ⟨hspells.name_ne_nil, hspells.letters⟩
  · rintro format context prefixText desk made rfl rendered texts
    have coherent := made.coherent
    exact ⟨Format.compiledTokens_render coherent context prefixText desk,
      (Format.render_eq_renderEach coherent context prefixText desk).1,
      Piece.length_renderEach format.registry context prefixText _ desk⟩
  · rintro format other name context prefixText made made' rfl htemplate agree alike
    have halike : ∀ desk desk', alike desk desk' ↔ SameBut name (pieces format.template)
        (Piece.renderEach format.registry context prefixText (pieces format.template) desk).1
        (Piece.renderEach other.registry context prefixText (pieces format.template) desk').1 := by
      intro desk desk'
      simp only [alike, Format.texts, htemplate]
    refine ⟨fun piece h => funext fun desk => ?_, fun h desk => ?_, ?_, ?_⟩
    · exact Piece.render_of_agreeBut context prefixText agree h desk
    · have hcompile := Format.compile_of_agreeBut made.coherent made'.coherent htemplate agree h
      exact Format.render_of_compile hcompile context prefixText desk
    · intro same apart desk desk' like
      rw [halike]
      exact Piece.renderEach_apart context prefixText agree apart _ like
    · intro steady desk desk' answers
      rw [halike]
      exact Piece.renderEach_of_steadyBut context prefixText agree steady _ answers
  · intro session' reached'
    exact reached.honest.sameAnswers reached'.honest
  · rintro handle index format hat rfl name h placeholder context prefixText
    exact reached.render_register hat h placeholder context prefixText

def counting : Format Stock.State :=
  { template := "$\x7ba\x7d$\x7bb\x7d$\x7bno:$\x7bb\x7d|$\x7ba\x7d".toList,
    registry := (Table.empty.insert "a".toList (Stock.counter 0)).insert "b".toList
      Stock.levelAndArgument }

def SameCount (state state' : Stock.State) : Prop :=
  state'.counts.find? 0 = state.counts.find? 0

/-- Another counter under the other name is apart from the first. -/
theorem apart_counting : counting.registry.Apart "b".toList
    (counting.registry.insert "b".toList (Stock.counter 1)) SameCount := by
  unfold SameCount
  constructor
  · intro placeholder hfind context argument own own' hsame
    cases (Table.find?_insert_self _ _ _).symm.trans hfind
    exact hsame
  · intro placeholder hfind context argument own own' hsame
    rw [Table.find?_insert_self] at hfind
    cases hfind
    simpa [Placeholder.output, Stock.counter] using hsame
  · intro n placeholder hne hfind context argument own own' hsame
    dsimp only [counting] at hfind
    rw [Table.find?_insert_of_ne _ _ (Ne.symm hne), Table.find?_insert, Table.find?_empty] at hfind
    by_cases hn : "a".toList = n
    · rw [if_pos hn] at hfind
      cases hfind
      simp [Placeholder.output, Stock.counter, hsame]
    · rw [if_neg hn] at hfind
      cases hfind

theorem tokens_settled_by_template_counting :
    let context : Context := { level := .info, instant := ⟨0, 0, 0⟩ }
    let desk : Desk Stock.State := { own := {} }
    let another := counting.register "b".toList (Stock.counter 1)
    let fixed := counting.register "a".toList (Stock.constant "x".toList)
    let session := (fresh {}).performAll
      [.format (.make "f" (some counting.template) (some counting.registry))]
    let after := session.perform (.format (.register "f" "x-y".toList (Stock.counter 0)))
    (counting.render context [] desk).2.1.compiledTokens =
        ["$\x7ba\x7d".toList, "$\x7bb\x7d".toList, "$\x7ba\x7d".toList] ∧
      SameBut "b".toList (pieces counting.template) (counting.texts context [] desk)
        (another.texts context [] desk) ∧
      SameBut "a".toList (pieces counting.template) (counting.texts context [] desk)
        (fixed.texts context [] desk) ∧
      (after.render 0 context []).1 = (session.render 0 context []).1 := by
  intro context desk another fixed session after
  obtain ⟨-, -, hone, htwo, hreached⟩ :=
    tokens_settled_by_template (σ := Stock.State) {} counting.template
  have made : counting.Made := .fresh _ _
  have reached : Reached {} session :=
    Reached.fresh.performAll (List.forall_mem_singleton.2 trivial)
  refine ⟨?_, ?_, ?_, ?_⟩
  · rw [(hone counting context [] desk made rfl).1]
    decide +kernel
  · have agree := counting.registry.agreeBut_insert "b".toList (Stock.counter 1)
    have made' : another.Made := .registered _ _ made
    obtain ⟨-, -, hapart, -⟩ := htwo counting another _ context [] made made' rfl rfl agree
    exact hapart SameCount apart_counting desk desk ⟨.refl _, rfl⟩
  · have agree := counting.registry.agreeBut_insert "a".toList (Stock.constant "x".toList)
    have made' : fixed.Made := .registered _ _ made
    have steady : counting.registry.SteadyBut "a".toList := by
      intro n placeholder hne hfind
      dsimp only [counting] at hfind
      rw [Table.find?_insert, Table.find?_insert_of_ne _ _ (Ne.symm hne)] at hfind
      split at hfind
      · cases hfind
        exact fun _ _ _ _ => rfl
      · cases hfind
    obtain ⟨-, -, -, hsteady⟩ := htwo counting fixed _ context [] made made' rfl rfl agree
    exact hsteady steady desk desk (.refl _)
  · have hfree : ∀ token ∈ occurrences counting.template, token.name ≠ "x-y".toList := by
      decide +kernel
    exact ((hreached session reached).2 "f" 0 _ rfl rfl _ hfree (Stock.counter 0) context []).1

/-- Two tokens of different names ask one counter. -/
def sharing : Format Stock.State :=
  { template := "$\x7ba\x7d$\x7bb\x7d".toList,
    registry := (Table.empty.insert "a".toList (Stock.counter 0)).insert "b".toList
      (Stock.counter 0) }

/-- Texts at other tokens can change. Where two tokens ask one counter, a fixed text in place of the
first leaves its number to the second; and a name that no token has, registered in a session, lets
the memo forget what was stored under the name of the levels. -/
theorem texts_change_at_other_tokens :
    let context : Context := { level := .info, instant := ⟨0, 0, 0⟩ }
    let desk : Desk Stock.State := { own := {} }
    let fixed := sharing.register "a".toList (Stock.constant "x".toList)
    let stored : Session Unit := (fresh ()).performAll
      [.format (.make "f" (some "${level}".toList) none),
        .memo (.output ⟨Builtin.levelName, .info, []⟩ "ZZZ".toList)]
    let after := stored.perform (.format (.register "f" "x-y".toList (.pure fun _ _ => [])))
    (sharing.registry.AgreeBut "a".toList fixed.registry ∧
        sharing.texts context [] desk = ["1".toList, "2".toList] ∧
        fixed.texts context [] desk = ["x".toList, "1".toList] ∧
        ¬ SameBut "a".toList (pieces sharing.template) (sharing.texts context [] desk)
          (fixed.texts context [] desk)) ∧
      (∀ token ∈ occurrences "${level}".toList, token.name ≠ "x-y".toList) ∧
      (stored.render 0 context []).1 = "ZZZ".toList ∧
      (after.render 0 context []).1 = "INFO".toList := by
  intro context desk fixed stored after
  have htexts : sharing.texts context [] desk = ["1".toList, "2".toList] := by decide +kernel
  have htexts' : fixed.texts context [] desk = ["x".toList, "1".toList] := by decide +kernel
  refine ⟨⟨Registry.agreeBut_insert _ _ _, htexts, htexts', fun same => ?_⟩, ?_, ?_, ?_⟩
  · have hname : ¬ (Piece.token ⟨"b".toList, none⟩).IsOf "a".toList := by
      unfold Piece.IsOf
      decide
    have hsecond := same 1 _ (by decide +kernel) hname
    rw [htexts, htexts'] at hsecond
    exact absurd hsecond (by decide)
  · decide +kernel
  · decide +kernel
  · decide +kernel

end Session

end Logbook
