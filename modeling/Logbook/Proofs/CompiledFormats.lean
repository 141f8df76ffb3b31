import Logbook.Proofs.FormatterMoves

/-!
# Compiled formats

Compiled segments are always those that a compilation would give now, so that a rendering with them
is the rendering of a format that was made this moment. They are there exactly after a rendering
that no reset and no change of the registry has followed.
-/

namespace Logbook

variable {σ : Type}

namespace Format

/-! ## Moves -/

theorem Coherent.moved {format : Format σ} (h : format.Coherent) (move : FormatterMove σ) :
    (format.moved move).Coherent := by
  cases move with
  | rendered =>
      intro segments hs
      rw [← Option.some.inj hs, compile_eq_segments h]
      rfl
  | reset => exact coherent_reset format
  | registered name placeholder => exact coherent_withRegistry format _
  | replaced registry => exact coherent_withRegistry format registry

theorem isCompiled_moved (format : Format σ) (move : FormatterMove σ) :
    (format.moved move).isCompiled = true ↔ move = .rendered := by
  cases move <;> simp [moved, isCompiled, reset, register, withRegistry]

theorem coherent_foldl_moved {start : Format σ} (h : start.Coherent)
    (moves : List (FormatterMove σ)) : (moves.foldl moved start).Coherent := by
  induction moves generalizing start with
  | nil => exact h
  | cons move rest ih => exact ih (h.moved move)

/-- A format that began without segments has some exactly when its last move was a rendering. -/
theorem isCompiled_foldl_moved {start : Format σ} (h : start.compiled = none)
    (moves : List (FormatterMove σ)) :
    (moves.foldl moved start).isCompiled = true ↔ moves.getLast? = some .rendered := by
  obtain rfl | ⟨earlier, last, rfl⟩ := List.eq_nil_or_concat moves
  · simp [isCompiled, h]
  · rw [List.concat_eq_append, List.foldl_append, List.foldl_cons, List.foldl_nil,
      isCompiled_moved, List.getLast?_concat, Option.some.injEq]

/-- The format with the same template and registry that is made this moment. -/
def anew (format : Format σ) : Format σ :=
  { template := format.template, registry := format.registry }

theorem render_anew {format : Format σ} (h : format.Coherent) (context : Context)
    (prefixText : Text) (desk : Desk σ) :
    format.anew.render context prefixText desk = format.render context prefixText desk := by
  have hcompile : format.anew.compile = format.compile := (compile_eq_segments h).symm
  simp only [render, hcompile]
  rfl

end Format

namespace Formatter

def anew : Formatter σ → Formatter σ
  | .format found => .format found.anew
  | .stamp found => .stamp { text := found.text }

theorem anew_moved_rendered (formatter : Formatter σ) :
    (formatter.moved .rendered).anew = formatter.anew := by
  cases formatter <;> rfl

theorem foldl_moved_format (start : Format σ) (moves : List (FormatterMove σ)) :
    moves.foldl moved (.format start) = .format (moves.foldl Format.moved start) := by
  induction moves generalizing start with
  | nil => rfl
  | cons move rest ih => exact ih (start.moved move)

theorem exists_stamp_of_foldl_moved (start : Stamp) (moves : List (FormatterMove σ)) :
    ∃ after, moves.foldl moved (.stamp start) = .stamp after := by
  induction moves generalizing start with
  | nil => exact ⟨start, rfl⟩
  | cons move rest ih => cases move <;> exact ih _

theorem Fresh.exists_format {start : Formatter σ} (fresh : start.Fresh) {format : Format σ}
    {moves : List (FormatterMove σ)} (h : .format format = moves.foldl moved start) :
    ∃ found : Format σ, found.compiled = none ∧ format = moves.foldl Format.moved found := by
  cases start with
  | format found =>
      rw [foldl_moved_format] at h
      cases h
      exact ⟨found, fresh, rfl⟩
  | stamp found =>
      obtain ⟨after, hafter⟩ := exists_stamp_of_foldl_moved found moves
      rw [hafter] at h
      cases h

end Formatter

namespace Session

/-- A format in a run is what its own moves have made of an uncompiled one. -/
theorem format_performAll {own : σ} {acts : List (Act σ)} {index : Nat} {format : Format σ}
    (hat : ((fresh own).performAll acts).formatters[index]? = some (.format format)) :
    ∃ start : Format σ, start.compiled = none ∧
      format = ((fresh own).formatterMoves index acts).foldl Format.moved start := by
  obtain ⟨start, hfresh, hmade⟩ := exists_fresh_of_performAll rfl hat
  exact hfresh.exists_format hmade

theorem coherent_performAll {own : σ} {acts : List (Act σ)} {index : Nat} {format : Format σ}
    (hat : ((fresh own).performAll acts).formatters[index]? = some (.format format)) :
    format.Coherent := by
  obtain ⟨start, hstart, rfl⟩ := format_performAll hat
  refine Format.coherent_foldl_moved ?_ _
  intro segments hs
  rw [hstart] at hs
  cases hs

theorem render_of_format {session : Session σ} {index : Nat} {format : Format σ}
    (hat : session.formatters[index]? = some (.format format)) (context : Context)
    (prefixText : Text) :
    (session.render index context prefixText).1 =
        (format.render context prefixText session.desk).1 ∧
      (session.render index context prefixText).2.desk =
        (format.render context prefixText session.desk).2.2 := by
  simp only [render, hat]
  exact ⟨rfl, rfl⟩

/-- In every state of every run and for every format there: what it is, its own moves have made of
it alone; its compiled segments are the compilation of its template against its present registry; a
rendering with it, by a command or for a record, puts out and leaves behind what one with a format
would that has the same template and registry and is made this moment; and it is compiled exactly
when its last move was a rendering, not a reset, a change of its registry or its making. -/
theorem renders_as_anew (own : σ) :
    (∀ commands : List (Command σ),
      execAll commands (fresh own) = (fresh own).performAll (actsAll commands (fresh own))) ∧
    ∀ (acts : List (Act σ)) (index : Nat) (format : Format σ),
      let now := (fresh own).performAll acts
      let moves := (fresh own).formatterMoves index acts
      now.formatters[index]? = some (.format format) →
        (∃ start : Format σ, start.compiled = none ∧ format = moves.foldl Format.moved start) ∧
        (∀ segments, format.compiled = some segments →
          segments = Segment.compile format.registry format.template) ∧
        (∀ context prefixText,
          (now.render index context prefixText).1 =
              (format.anew.render context prefixText now.desk).1 ∧
            (now.render index context prefixText).2.desk =
              (format.anew.render context prefixText now.desk).2.2) ∧
        (format.isCompiled = true ↔ moves.getLast? = some .rendered) := by
  refine ⟨fun commands => (performAll_actsAll commands (fresh own)).symm, ?_⟩
  intro acts index format now moves hat
  have hcoherent := coherent_performAll hat
  refine ⟨format_performAll hat, hcoherent, fun context prefixText => ?_, ?_⟩
  · rw [Format.render_anew hcoherent]
    exact render_of_format hat context prefixText
  · obtain ⟨start, hstart, hmade⟩ := format_performAll hat
    rw [hmade]
    exact Format.isCompiled_foldl_moved hstart moves

/-- A format is rendered, given another placeholder under the name that its template uses, and
rendered again for the record of a logger; in between another format changes its registry. -/
def reworked : List (Act Unit) :=
  actsAll
    [.format (.make "f" (some "$\x7bwho\x7d %s".toList) none),
      .format (.render "f" { level := .info, instant := ⟨0, 0, 0⟩ } []),
      .format (.register "f" "who".toList (.pure fun _ _ => "me".toList)),
      .format (.make "g" none none), .logger (.make "app" { formatter := some "f" }),
      .log "app" (.leveled .info) none ⟨0, 0, 0⟩ "hello".toList
        [.format (.setRegistry "g" Table.empty)]] (fresh ())

theorem renders_as_anew_reworked :
    ∃ format, ((fresh ()).performAll reworked).formatters[0]? = some (.format format) ∧
      format.isCompiled = true ∧ format.compiledTokens = ["$\x7bwho\x7d".toList] ∧
      ∀ context prefixText,
        (((fresh ()).performAll reworked).render 0 context prefixText).1 =
          (format.anew.render context prefixText ((fresh ()).performAll reworked).desk).1 := by
  refine ⟨_, rfl, rfl, by decide +kernel, fun context prefixText => ?_⟩
  exact (((renders_as_anew ()).2 reworked 0 _ rfl).2.2.1 context prefixText).1

end Session

end Logbook
