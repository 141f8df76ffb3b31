import Logbook.Placeholder.Stock
import Logbook.Proofs.CompiledFormats
import Logbook.Proofs.MemoTransparency
import Logbook.Proofs.Occurrences

/-!
# Calls of placeholders

A rendering calls the placeholder of each occurrence of a registered token once, from left to
right, whether it compiles the template or finds it compiled; nothing else calls a placeholder. As
placeholders may keep a state, this is a law about runs: what they keep after a run is what the
calls of all its renderings, one after the other, have made of what they kept before.
-/

namespace Logbook

variable {σ : Type}

structure Call (σ : Type) where
  placeholder : Placeholder σ
  context : Context
  argument : Text

namespace Call

def after (desk : Desk σ) (call : Call σ) : Desk σ :=
  (call.placeholder.render call.context call.argument desk).2

/-- What a call leaves of the state that the placeholders of users keep. -/
def touch (own : σ) (call : Call σ) : σ :=
  (call.placeholder.output call.context call.argument own).2

theorem own_after (desk : Desk σ) (call : Call σ) :
    (call.after desk).own = call.touch desk.own :=
  call.placeholder.own_render call.context call.argument desk

def afterAll (desk : Desk σ) (calls : List (Call σ)) : Desk σ := calls.foldl after desk

theorem own_afterAll (desk : Desk σ) (calls : List (Call σ)) :
    (afterAll desk calls).own = calls.foldl touch desk.own := by
  induction calls generalizing desk with
  | nil => rfl
  | cons call rest ih =>
      rw [List.foldl_cons, ← own_after]
      exact ih _

/-- When each call appends a note of its own, the notes are those of the calls in order. -/
theorem notes_foldl_touch {α : Type} {notes : σ → List α} {note : Call σ → α}
    {calls : List (Call σ)}
    (h : ∀ call ∈ calls, ∀ own, notes (call.touch own) = notes own ++ [note call]) (own : σ) :
    notes (calls.foldl touch own) = notes own ++ calls.map note := by
  induction calls generalizing own with
  | nil => simp
  | cons call rest ih =>
      obtain ⟨hcall, hrest⟩ := List.forall_mem_cons.1 h
      rw [List.foldl_cons, ih hrest, hcall]
      simp

end Call

namespace Piece

/-- The call that a piece makes under a registry. The argument is given as it is written; a token
without one gives the empty text. -/
def call? (registry : Registry σ) (context : Context) : Piece → Option (Call σ)
  | .plain _ => none
  | .token found =>
      (registry.find? found.name).map (⟨·, context, found.argument.getD []⟩)

theorem snd_render (registry : Registry σ) (context : Context) (prefixText : Text) (piece : Piece)
    (desk : Desk σ) :
    (piece.render registry context prefixText desk).2 =
      Call.afterAll desk (piece.call? registry context).toList := by
  cases piece with
  | plain c => rfl
  | token found =>
      rw [snd_render_token, call?]
      cases registry.find? found.name <;> rfl

theorem snd_renderEach (registry : Registry σ) (context : Context) (prefixText : Text)
    (parts : List Piece) (desk : Desk σ) :
    (renderEach registry context prefixText parts desk).2 =
      Call.afterAll desk (parts.filterMap (call? registry context)) := by
  induction parts generalizing desk with
  | nil => rfl
  | cons piece rest ih =>
      have hpiece := piece.snd_render registry context prefixText desk
      have hrest := ih (piece.render registry context prefixText desk).2
      rw [hpiece] at hrest
      cases hc : piece.call? registry context with
      | none =>
          rw [hc] at hrest
          rw [List.filterMap_cons_none hc]
          simp only [renderEach, hpiece, hc]
          exact hrest
      | some call =>
          rw [hc] at hrest
          rw [List.filterMap_cons_some hc]
          simp only [renderEach, hpiece, hc]
          exact hrest

end Piece

def Format.calls (format : Format σ) (context : Context) : List (Call σ) :=
  (pieces format.template).filterMap (Piece.call? format.registry context)

theorem Format.desk_render {format : Format σ} (coherent : format.Coherent) (context : Context)
    (prefixText : Text) (desk : Desk σ) :
    (format.render context prefixText desk).2.2 = Call.afterAll desk (format.calls context) := by
  rw [(render_eq_renderEach coherent context prefixText desk).2, Piece.snd_renderEach]
  rfl

namespace Formatter

def calls : Formatter σ → Context → List (Call σ)
  | .format found, context => found.calls context
  | .stamp _, _ => []

def Coherent (formatter : Formatter σ) : Prop :=
  ∀ format, formatter = .format format → format.Coherent

theorem desk_render {formatter : Formatter σ} (coherent : formatter.Coherent) (context : Context)
    (prefixText : Text) (desk : Desk σ) :
    (formatter.render context prefixText desk).2.2 =
      Call.afterAll desk (formatter.calls context) := by
  cases formatter with
  | format found => exact Format.desk_render (coherent found rfl) context prefixText desk
  | stamp found => rfl

end Formatter

namespace Session

/-! ## The calls of an act -/

/-- The formatter that an act renders with, and the context that it renders. -/
def rendering? (session : Session σ) : Act σ → Option (Formatter σ × Context)
  | .format (.render handle context _) =>
      (session.formatter? handle).map fun found => (found.2, context)
  | .make logger entry site instant _ =>
      (session.loggers.settings? logger).bind fun settings =>
        (session.formatters[settings.formatter]?).map (·, ⟨entry.level, site, instant⟩)
  | _ => none

def calls (session : Session σ) (act : Act σ) : List (Call σ) :=
  match session.rendering? act with
  | some (formatter, context) => formatter.calls context
  | none => []

def callsAll : Session σ → List (Act σ) → List (Call σ)
  | _, [] => []
  | session, act :: rest => session.calls act ++ callsAll (session.perform act) rest

theorem callsAll_append (session : Session σ) (first second : List (Act σ)) :
    session.callsAll (first ++ second) =
      session.callsAll first ++ (session.performAll first).callsAll second := by
  induction first generalizing session with
  | nil => rfl
  | cons act rest ih =>
      rw [List.cons_append, callsAll, ih, callsAll, List.append_assoc]
      rfl

def Coherent (session : Session σ) : Prop :=
  ∀ (index : Nat) (formatter : Formatter σ),
    session.formatters[index]? = some formatter → formatter.Coherent

theorem coherent_after (own : σ) (acts : List (Act σ)) :
    ((fresh own).performAll acts).Coherent := by
  rintro index formatter hat format rfl
  exact coherent_performAll hat

theorem desk_render {session : Session σ} (coherent : session.Coherent) {index : Nat}
    {formatter : Formatter σ} (hat : session.formatters[index]? = some formatter)
    (context : Context) (prefixText : Text) :
    (session.render index context prefixText).2.desk =
      Call.afterAll session.desk (formatter.calls context) := by
  simp only [render, hat]
  exact Formatter.desk_render (coherent index formatter hat) context prefixText session.desk

/-- A command that does not render calls nothing: it leaves the desk, or empties the memo. -/
theorem desk_runFormat_of_ne (session : Session σ) {command : FormatCommand σ}
    (h : ∀ handle context prefixText, command ≠ .render handle context prefixText) :
    (session.runFormat command).2.desk = session.desk ∨
      (session.runFormat command).2.desk = { session.desk with memo := .empty } := by
  rcases session.desk_runFormat command with
    ⟨handle, index, context, prefixText, heq, -⟩ | hother
  · exact absurd heq (h handle context prefixText)
  · exact hother

theorem own_runFormat {session : Session σ} (coherent : session.Coherent)
    (command : FormatCommand σ) :
    (session.runFormat command).2.desk.own =
      (session.calls (.format command)).foldl Call.touch session.desk.own := by
  by_cases h : ∃ handle context prefixText, command = .render handle context prefixText
  · obtain ⟨handle, context, prefixText, rfl⟩ := h
    simp only [runFormat, calls, rendering?]
    rw [withFormatter_eq]
    cases hf : session.formatter? handle with
    | none => rfl
    | some found =>
        have hdesk := desk_render coherent (getElem?_of_formatter? hf) context prefixText
        rw [← Call.own_afterAll]
        exact congrArg Desk.own hdesk
  · have hother : ∀ handle context prefixText, command ≠ .render handle context prefixText :=
      fun handle context prefixText heq => h ⟨handle, context, prefixText, heq⟩
    have hcalls : session.calls (.format command) = [] := by
      cases command with
      | render handle context prefixText => exact absurd rfl (hother handle context prefixText)
      | _ => rfl
    rw [hcalls]
    rcases session.desk_runFormat_of_ne hother with hsame | hempty
    · rw [hsame]; rfl
    · rw [hempty]; rfl

/-- An act does to the state that placeholders keep what its calls do. -/
theorem own_perform {session : Session σ} (coherent : session.Coherent) (act : Act σ) :
    (session.perform act).desk.own = (session.calls act).foldl Call.touch session.desk.own := by
  cases act with
  | sink command =>
      obtain ⟨outlets, sinkHandles, h⟩ := session.runSink_frame command
      simp only [perform, release, h]
      rfl
  | router command =>
      obtain ⟨outlets, routers, routerHandles, wrappers, h⟩ := session.runRouter_frame command
      simp only [perform, release, h]
      rfl
  | format command => exact own_runFormat coherent command
  | memo command => cases command <;> rfl
  | logger command =>
      obtain ⟨grown, loggers, hgrown, h⟩ | ⟨router, h⟩ := session.runLogger_frame command
      · simp only [perform, release, h, hgrown.desk]
        rfl
      · simp only [perform, release, h, flushRouter]
        rfl
  | enter handle =>
      simp only [perform]
      split <;> rfl
  | make logger entry site instant message =>
      obtain ⟨outlets, h⟩ := session.deliver_rendered logger entry site instant message
      simp only [perform, release, leave, h, rendered, calls, rendering?]
      cases session.loggers.settings? logger with
      | none => rfl
      | some settings =>
          simp only [Option.bind_some]
          cases hat : session.formatters[settings.formatter]? with
          | none =>
              simp only [render, hat]
              rfl
          | some formatter =>
              have hdesk := desk_render coherent hat ⟨entry.level, site, instant⟩
                settings.prefixText
              rw [hdesk, Call.own_afterAll]
              rfl

theorem own_performAll (own : σ) (acts : List (Act σ)) :
    ((fresh own).performAll acts).desk.own = ((fresh own).callsAll acts).foldl Call.touch own := by
  induction acts using List.reverseRecOn with
  | nil => rfl
  | append_singleton acts act ih =>
      have hact := own_perform (coherent_after own acts) act
      rw [ih] at hact
      rw [performAll_append, callsAll_append, List.foldl_append, callsAll, callsAll,
        List.append_nil]
      exact hact

/-- In every run, what the placeholders keep is what the calls of its acts have made of it, in
order; so when every call notes itself, the notes are those calls, each of them once. In every
state, every format renders by calling for each token of its template, from left to right, the
placeholder that is registered for it now, with the context and with the argument as it is written;
whether it was compiled does not matter. No other command about formats calls anything. Compiling
and asking for the compiled tokens are functions of the format alone, which no desk goes into. -/
theorem placeholders_called_in_order (own : σ) :
    (∀ commands : List (Command σ),
      execAll commands (fresh own) = (fresh own).performAll (actsAll commands (fresh own))) ∧
    ∀ acts : List (Act σ),
      let now := (fresh own).performAll acts
      let calls := (fresh own).callsAll acts
      now.desk.own = calls.foldl Call.touch own ∧
      (∀ (α : Type) (notes : σ → List α) (note : Call σ → α),
        (∀ call ∈ calls, ∀ kept, notes (call.touch kept) = notes kept ++ [note call]) →
          notes now.desk.own = notes own ++ calls.map note) ∧
      (∀ index format parts, now.formatters[index]? = some (.format format) →
        Cut format.template parts → ∀ context prefixText,
          (now.render index context prefixText).2.desk =
            Call.afterAll now.desk (parts.filterMap (Piece.call? format.registry context))) ∧
      ∀ command : FormatCommand σ,
        (∀ handle context prefixText, command ≠ .render handle context prefixText) →
          (now.runFormat command).2.desk = now.desk ∨
            (now.runFormat command).2.desk = { now.desk with memo := .empty } := by
  refine ⟨fun commands => (performAll_actsAll commands (fresh own)).symm, ?_⟩
  intro acts now calls
  have hown : now.desk.own = calls.foldl Call.touch own := own_performAll own acts
  refine ⟨hown, ?_, ?_, fun command hother => now.desk_runFormat_of_ne hother⟩
  · intro α notes note hnote
    rw [hown]
    exact Call.notes_foldl_touch hnote own
  · intro index format parts hat hcut context prefixText
    rw [cut_iff.1 hcut]
    exact desk_render (coherent_after own acts) hat context prefixText

def repeating : Text :=
  "$\x7ba\x7d $\x7ba:\x7d$\x7bb:x\\:y\x7d$\x7bno:$\x7ba\x7d".toList

/-- A format with placeholders that note their calls is rendered; one of its placeholders is
replaced; it is rendered again, reset, and used for the record of a logger. -/
def echoed : List (Act Stock.State) :=
  actsAll
    [.format (.make "f" (some repeating)
        (some ⟨[("a".toList, Stock.echo "a".toList), ("b".toList, Stock.echo "b".toList)]⟩)),
      .format (.render "f" { level := .info, instant := ⟨0, 0, 0⟩ } []),
      .format (.register "f" "b".toList (Stock.echo "c".toList)),
      .format (.render "f" { level := .info, instant := ⟨0, 0, 0⟩ } []), .format (.reset "f"),
      .logger (.make "app" { formatter := some "f" }),
      .log "app" (.leveled .error) none ⟨0, 0, 0⟩ "hello".toList []] (fresh {})

def echoes (label : Text) (level : Level) : List (Call Stock.State) :=
  let context : Context := { level, instant := ⟨0, 0, 0⟩ }
  [⟨Stock.echo "a".toList, context, []⟩, ⟨Stock.echo "a".toList, context, []⟩,
    ⟨Stock.echo label, context, "x\\:y".toList⟩]

theorem callsAll_echoed : (fresh {}).callsAll echoed =
    echoes "b".toList .info ++ (echoes "c".toList .info ++ echoes "c".toList .error) := by
  have hpieces : pieces repeating =
      [.token ⟨"a".toList, none⟩, .plain ' ', .token ⟨"a".toList, some []⟩,
        .token ⟨"b".toList, some "x\\:y".toList⟩,
        .token ⟨"no".toList, some "$\x7ba".toList⟩] := by decide +kernel
  let registry : Registry Stock.State :=
    ⟨[("a".toList, Stock.echo "a".toList), ("b".toList, Stock.echo "b".toList)]⟩
  let changed := registry.insert "b".toList (Stock.echo "c".toList)
  let context (level : Level) : Context := { level, instant := ⟨0, 0, 0⟩ }
  change
    (pieces repeating).filterMap (Piece.call? registry (context .info)) ++
      ((pieces repeating).filterMap (Piece.call? changed (context .info)) ++
        ((pieces repeating).filterMap (Piece.call? changed (context .error)) ++ [])) = _
  rw [hpieces]
  rfl

theorem placeholders_called_in_order_echoed :
    let now := (fresh {}).performAll echoed
    now.desk.own.echoes =
        ["[a@]".toList, "[a@]".toList, "[b@x\\:y]".toList, "[a@]".toList, "[a@]".toList,
          "[c@x\\:y]".toList, "[a@]".toList, "[a@]".toList, "[c@x\\:y]".toList] ∧
      (∃ format, now.formatters[0]? = some (.format format) ∧
        ∀ context prefixText, (now.render 0 context prefixText).2.desk =
          Call.afterAll now.desk
            ((pieces repeating).filterMap (Piece.call? format.registry context))) ∧
      ((now.runFormat (.reset "f")).2.desk = now.desk ∨
        (now.runFormat (.reset "f")).2.desk = { now.desk with memo := .empty }) := by
  intro now
  obtain ⟨-, hnotes, hrender, hothers⟩ := (placeholders_called_in_order {}).2 echoed
  let note (call : Call Stock.State) : Text :=
    (call.placeholder.output call.context call.argument {}).1
  have hnote : ∀ call ∈ (fresh {}).callsAll echoed, ∀ kept : Stock.State,
      (call.touch kept).echoes = kept.echoes ++ [note call] := by
    have heach : ∀ label level, ∀ call ∈ echoes label level, ∀ kept : Stock.State,
        (call.touch kept).echoes = kept.echoes ++ [note call] := by
      intro label level
      simp only [echoes, List.forall_mem_cons]
      exact ⟨fun _ => rfl, fun _ => rfl, fun _ => rfl, List.forall_mem_nil _⟩
    rw [callsAll_echoed]
    simp only [List.forall_mem_append]
    exact ⟨heach _ _, heach _ _, heach _ _⟩
  refine ⟨?_, ⟨_, rfl, hrender 0 _ _ rfl (cut_pieces repeating)⟩, hothers (.reset "f") ?_⟩
  · rw [hnotes Text Stock.State.echoes note hnote, callsAll_echoed]
    decide +kernel
  · intro handle context prefixText heq
    cases heq

end Session

end Logbook
