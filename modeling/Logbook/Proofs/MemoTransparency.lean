import Logbook.Proofs.FormatterMoves
import Logbook.Proofs.HonestMemo

/-!
# Transparency of the memo

Whoever works on the memo leaves it honest, as long as nobody stores under the name of the levels.
All acts of a session do no more than such work, so that every rendering puts out what it would
without a memo, and what was done with one format does not show in what others render.
-/

namespace Logbook

variable {σ : Type}

namespace Memo

/-! ## Work on the memo -/

/-- What can come of a memo when nobody stores under the name of the levels. What computes an
output under another name may work on the memo in turn. -/
inductive Works : Memo → Memo → Prop where
  | done (memo : Memo) : Works memo memo
  | trans {memo next after : Memo} : Works memo next → Works next after → Works memo after
  | level (memo : Memo) (level : Level) (argument : Text) :
      Works memo (Builtin.rememberedLevel level argument memo).2
  | split (memo : Memo) (argument : Text) : Works memo (memo.split argument).2
  | forget (memo : Memo) : Works memo .empty
  | output (memo : Memo) {key : MemoKey} {compute : Memo → Text × Memo} :
      key.name ≠ Builtin.levelName → (∀ before, Works before (compute before).2) →
      Works memo (memo.output key compute).2

theorem Works.honest {memo after : Memo} (h : memo.Works after) (honest : memo.Honest) :
    after.Honest := by
  induction h with
  | done memo => exact honest
  | trans _ _ first second => exact second (first honest)
  | level memo level argument => exact honest.rememberedLevel level argument
  | split memo argument => exact honest.split argument
  | forget memo => exact honest_empty
  | @output memo key compute hname _ ih =>
      cases hm : memo.output? key with
      | some value =>
          rw [output_of_some _ hm]
          exact honest
      | none =>
          rw [output_of_none _ hm]
          exact (ih memo honest).store_of_ne hname _

end Memo

/-! ## Renderings -/

namespace Placeholder

/-- What a placeholder puts out when nothing is remembered. -/
def output (placeholder : Placeholder σ) (context : Context) (argument : Text) (own : σ) :
    Text × σ :=
  match placeholder with
  | .level => (Builtin.levelText context.level argument, own)
  | .line => (Builtin.lineText context.site, own)
  | .file => (Builtin.fileText context.site argument, own)
  | .time => (Builtin.timeText context.instant argument, own)
  | .custom run => run context argument own

/-- What a placeholder leaves of the state that those of users keep does not depend on the memo. -/
theorem own_render (placeholder : Placeholder σ) (context : Context) (argument : Text)
    (desk : Desk σ) : (placeholder.render context argument desk).2.own =
      (placeholder.output context argument desk.own).2 := by
  cases placeholder <;> rfl

theorem works_render (placeholder : Placeholder σ) (context : Context) (argument : Text)
    (desk : Desk σ) : desk.memo.Works (placeholder.render context argument desk).2.memo := by
  cases placeholder with
  | level => exact .level desk.memo context.level argument
  | _ => exact .done desk.memo

theorem render_of_honest {desk : Desk σ} (honest : desk.memo.Honest) (placeholder : Placeholder σ)
    (context : Context) (argument : Text) :
    let rendered := placeholder.render context argument desk
    (rendered.1, rendered.2.own) = placeholder.output context argument desk.own := by
  cases placeholder with
  | level => exact Prod.ext (honest.rememberedLevel_eq context.level argument) rfl
  | _ => rfl

end Placeholder

namespace Segment

def output (segment : Segment σ) (context : Context) (prefixText : Text) (own : σ) : Text × σ :=
  match segment with
  | .literal text => (text, own)
  | .replacement token placeholder => placeholder.output context token.argumentText own
  | .prefixMark => (prefixOutput prefixText, own)

def outputAll (context : Context) (prefixText : Text) : List (Segment σ) → σ → Text × σ
  | [], own => ([], own)
  | segment :: rest, own =>
      let (text, own) := segment.output context prefixText own
      let (more, own) := outputAll context prefixText rest own
      (text ++ more, own)

theorem works_render (segment : Segment σ) (context : Context) (prefixText : Text)
    (desk : Desk σ) : desk.memo.Works (segment.render context prefixText desk).2.memo := by
  cases segment with
  | replacement token placeholder =>
      exact placeholder.works_render context token.argumentText desk
  | _ => exact .done desk.memo

theorem render_of_honest {desk : Desk σ} (honest : desk.memo.Honest) (segment : Segment σ)
    (context : Context) (prefixText : Text) :
    let rendered := segment.render context prefixText desk
    (rendered.1, rendered.2.own) = segment.output context prefixText desk.own := by
  cases segment with
  | replacement token placeholder =>
      exact placeholder.render_of_honest honest context token.argumentText
  | _ => rfl

theorem works_renderAll (context : Context) (prefixText : Text) (segments : List (Segment σ))
    (desk : Desk σ) : desk.memo.Works (renderAll context prefixText segments desk).2.memo := by
  induction segments generalizing desk with
  | nil => exact .done desk.memo
  | cons segment rest ih => exact .trans (segment.works_render context prefixText desk) (ih _)

theorem renderAll_of_honest {desk : Desk σ} (honest : desk.memo.Honest) (context : Context)
    (prefixText : Text) (segments : List (Segment σ)) :
    let rendered := renderAll context prefixText segments desk
    (rendered.1, rendered.2.own) = outputAll context prefixText segments desk.own := by
  induction segments generalizing desk with
  | nil => rfl
  | cons segment rest ih =>
      have hsegment := segment.render_of_honest honest context prefixText
      have hrest := ih ((segment.works_render context prefixText desk).honest honest)
      simp only [renderAll, outputAll, ← hsegment, ← hrest]

end Segment

namespace Formatter

theorem works_render (formatter : Formatter σ) (context : Context) (prefixText : Text)
    (desk : Desk σ) : desk.memo.Works (formatter.render context prefixText desk).2.2.memo := by
  cases formatter with
  | format found => exact Segment.works_renderAll context prefixText found.compile desk
  | stamp found => exact .done desk.memo

theorem works_register (formatter : Formatter σ) (name : Text) (placeholder : Placeholder σ)
    (desk : Desk σ) : desk.memo.Works (formatter.register name placeholder desk).2.memo := by
  cases formatter with
  | format found => exact .forget desk.memo
  | stamp found => exact .done desk.memo

theorem works_setRegistry (formatter : Formatter σ) (registry : Registry σ) (desk : Desk σ) :
    desk.memo.Works (formatter.setRegistry registry desk).2.memo := by
  cases formatter with
  | format found => exact .forget desk.memo
  | stamp found => exact .done desk.memo

end Formatter

/-- An act that stores nothing of its own under the name of the levels. -/
def Act.Tame : Act σ → Prop
  | .memo (.output key _) => key.name ≠ Builtin.levelName
  | _ => True

namespace Session

/-! ## Acts -/

theorem works_render (session : Session σ) (index : Nat) (context : Context) (prefixText : Text) :
    session.desk.memo.Works (session.render index context prefixText).2.desk.memo := by
  unfold render
  split
  · exact .done _
  · rename_i formatter _
    exact formatter.works_render context prefixText session.desk

theorem works_rendered (session : Session σ) (logger : Nat) (context : Context) :
    session.desk.memo.Works (session.rendered logger context).desk.memo := by
  unfold rendered
  split
  · exact .done _
  · exact session.works_render _ _ _

theorem works_runFormat (session : Session σ) (command : FormatCommand σ) :
    session.desk.memo.Works (session.runFormat command).2.desk.memo := by
  rcases session.desk_runFormat command with
    ⟨handle, index, context, prefixText, -, hrender⟩ | hsame | hempty
  · rw [hrender]
    exact session.works_render index context prefixText
  · rw [hsame]
    exact .done _
  · rw [hempty]
    exact .forget _

theorem works_runMemo (session : Session σ) {command : MemoCommand}
    (tame : (Act.memo command : Act σ).Tame) :
    session.desk.memo.Works (session.runMemo command).2.desk.memo := by
  cases command with
  | output key value =>
      exact @Memo.Works.output session.desk.memo key (fun memo => (value, memo)) tame .done
  | split argument => exact .split _ argument
  | forget => exact .forget _
  | level level argument => exact .level _ level argument

theorem works_perform (session : Session σ) {act : Act σ} (tame : act.Tame) :
    session.desk.memo.Works (session.perform act).desk.memo := by
  cases act with
  | sink command =>
      obtain ⟨outlets, sinkHandles, h⟩ := session.runSink_frame command
      simp only [perform, release, h]
      exact .done _
  | router command =>
      obtain ⟨outlets, routers, routerHandles, wrappers, h⟩ := session.runRouter_frame command
      simp only [perform, release, h]
      exact .done _
  | format command => exact session.works_runFormat command
  | memo command => exact session.works_runMemo tame
  | logger command =>
      obtain ⟨grown, loggers, hgrown, h⟩ | ⟨router, h⟩ := session.runLogger_frame command
      · simp only [perform, release, h, hgrown.desk]
        exact .done _
      · simp only [perform, release, h, flushRouter]
        exact .done _
  | enter handle =>
      simp only [perform]
      split <;> exact .done _
  | make logger entry site instant message =>
      obtain ⟨outlets, h⟩ := session.deliver_rendered logger entry site instant message
      simp only [perform, release, leave, h]
      exact session.works_rendered logger ⟨entry.level, site, instant⟩

/-! ## Reached sessions -/

/-- Sessions that come of acts, and of work on the memo between them, when nobody stores under the
name of the levels. -/
inductive Reached (own : σ) : Session σ → Prop where
  | fresh : Reached own (fresh own)
  | act {session : Session σ} {act : Act σ} :
      Reached own session → act.Tame → Reached own (session.perform act)
  | work {session : Session σ} {memo : Memo} :
      Reached own session → session.desk.memo.Works memo → Reached own (session.setMemo memo)

theorem Reached.honest {own : σ} {session : Session σ} (reached : Reached own session) :
    session.desk.memo.Honest := by
  induction reached with
  | fresh => exact Memo.honest_empty
  | act _ tame ih => exact (works_perform _ tame).honest ih
  | work _ works ih => exact works.honest ih

theorem Reached.performAll {own : σ} {session : Session σ} (reached : Reached own session)
    {acts : List (Act σ)} (tame : ∀ act ∈ acts, act.Tame) :
    Reached own (session.performAll acts) := by
  induction acts generalizing session with
  | nil => exact reached
  | cons act rest ih =>
      exact ih (.act reached (tame act List.mem_cons_self))
        fun other hm => tame other (List.mem_cons_of_mem act hm)

/-- A format renders in a reached session as if nothing were remembered, whatever the state that
the placeholders of users keep. -/
theorem Reached.render_eq {own : σ} {session : Session σ} (reached : Reached own session)
    (format : Format σ) (context : Context) (prefixText : Text) (kept : σ) :
    (format.render context prefixText ⟨session.desk.memo, kept⟩).1 =
      (Segment.outputAll context prefixText format.compile kept).1 := by
  have honest : (⟨session.desk.memo, kept⟩ : Desk σ).memo.Honest := reached.honest
  have hall := Segment.renderAll_of_honest honest context prefixText format.compile
  exact congrArg Prod.fst hall

/-- In every session that is reached without storing under the name of the levels: what is
remembered of levels and of arguments is what the functions without a memo give, asking through the
memo answers what they give, and every format renders as if nothing were remembered. An act that
makes no move with a format leaves it as it is, and its renderings too. -/
theorem memo_transparent {own : σ} {session : Session σ} (reached : Reached own session) :
    (∀ level argument text,
        session.desk.memo.output? ⟨Builtin.levelName, level, argument⟩ = some text →
          text = Builtin.levelText level argument) ∧
      (∀ argument fields, session.desk.memo.splits.find? argument = some fields →
        fields = Argument.split argument) ∧
      (∀ level argument, (session.runMemo (.level level argument)).1 =
        .ok (.text (Builtin.levelText level argument))) ∧
      (∀ argument, (session.runMemo (.split argument)).1 =
        .ok (.texts (Argument.split argument))) ∧
      (∀ (format : Format σ) context prefixText kept,
        (format.render context prefixText ⟨session.desk.memo, kept⟩).1 =
          (Segment.outputAll context prefixText format.compile kept).1) ∧
      ∀ (act : Act σ), act.Tame → ∀ index format,
        session.formatters[index]? = some (.format format) → session.movesAt index act = [] →
          (session.perform act).formatters[index]? = some (.format format) ∧
            ∀ context prefixText kept,
              (format.render context prefixText ⟨(session.perform act).desk.memo, kept⟩).1 =
                (format.render context prefixText ⟨session.desk.memo, kept⟩).1 := by
  have honest := reached.honest
  refine ⟨honest.levels, honest.splits, fun level argument => ?_, fun argument => ?_,
    reached.render_eq, fun act tame index format hat hmoves => ⟨?_, ?_⟩⟩
  · simp only [runMemo, honest.rememberedLevel_eq]
  · simp only [runMemo, Memo.split_eq honest.splits]
  · have hperform := formatter_perform hat act
    rwa [hmoves] at hperform
  · intro context prefixText kept
    rw [(Reached.act reached tame).render_eq, reached.render_eq]

def remembering : List (Act Unit) :=
  [.format (.make "f" (some "$\x7blevel:[%s]:left\x7d".toList) none), .format (.make "g" none none),
    .format (.render "f" { level := .info, instant := ⟨0, 0, 0⟩ } []),
    .memo (.output ⟨"own".toList, .info, []⟩ "x".toList)]

/-- Another format then loses its placeholders. -/
theorem memo_transparent_remembering :
    let session := (fresh ()).performAll remembering
    let change : Act Unit := .format (.setRegistry "g" Table.empty)
    "[INFO]   ".toList = Builtin.levelText .info "[%s]:left".toList ∧
      ∃ format, session.formatters[0]? = some (.format format) ∧
        (session.perform change).formatters[0]? = some (.format format) ∧
          ∀ context prefixText kept,
            (format.render context prefixText ⟨(session.perform change).desk.memo, kept⟩).1 =
              (format.render context prefixText ⟨session.desk.memo, kept⟩).1 := by
  intro session change
  have tame : ∀ act ∈ remembering, act.Tame := by
    have hname : (Act.memo (.output ⟨"own".toList, .info, []⟩ "x".toList) : Act Unit).Tame := by
      unfold Act.Tame
      decide
    simp only [remembering, List.forall_mem_cons]
    exact ⟨trivial, trivial, trivial, hname, List.forall_mem_nil _⟩
  have reached : Reached () session := Reached.fresh.performAll tame
  have hfound : session.desk.memo.output? ⟨Builtin.levelName, .info, "[%s]:left".toList⟩ =
      some "[INFO]   ".toList := by decide +kernel
  obtain ⟨hlevels, -, -, -, -, hothers⟩ := memo_transparent reached
  exact ⟨hlevels .info _ _ hfound, _, rfl, hothers change trivial 0 _ rfl rfl⟩

end Session

end Logbook
