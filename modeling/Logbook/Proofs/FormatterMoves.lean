import Logbook.Proofs.Frames

/-!
# Moves of formatters

An act moves at most one formatter: it renders with it, resets it or gives it other placeholders.
Apart from that, acts only put fresh formatters behind those that there are. So a formatter is what
the moves of its own have made of it, whatever was done to others in between.
-/

namespace Logbook

variable {σ : Type}

inductive FormatterMove (σ : Type) where
  | rendered
  | reset
  | registered (name : Text) (placeholder : Placeholder σ)
  | replaced (registry : Registry σ)

def Format.moved (format : Format σ) : FormatterMove σ → Format σ
  | .rendered => { format with compiled := some format.compile }
  | .reset => format.reset
  | .registered name placeholder => format.register name placeholder
  | .replaced registry => format.withRegistry registry

namespace Formatter

/-- The formatter after a move. A stamp only counts how often it was used. -/
def moved (formatter : Formatter σ) (move : FormatterMove σ) : Formatter σ :=
  match formatter, move with
  | .format found, _ => .format (found.moved move)
  | .stamp found, .rendered => .stamp { found with renders := found.renders + 1 }
  | .stamp found, _ => .stamp found

theorem moved_render (formatter : Formatter σ) (context : Context) (prefixText : Text)
    (desk : Desk σ) :
    (formatter.render context prefixText desk).2.1 = formatter.moved .rendered := by
  cases formatter <;> rfl

theorem moved_reset (formatter : Formatter σ) : formatter.reset = formatter.moved .reset := by
  cases formatter <;> rfl

theorem moved_register (formatter : Formatter σ) (name : Text) (placeholder : Placeholder σ)
    (desk : Desk σ) :
    (formatter.register name placeholder desk).1 =
      formatter.moved (.registered name placeholder) := by
  cases formatter <;> rfl

theorem moved_setRegistry (formatter : Formatter σ) (registry : Registry σ) (desk : Desk σ) :
    (formatter.setRegistry registry desk).1 = formatter.moved (.replaced registry) := by
  cases formatter <;> rfl

end Formatter

namespace Session

/-! ## The move of an act -/

def formatter? (session : Session σ) (handle : String) : Option (Nat × Formatter σ) :=
  (session.formatterHandles.find? handle).bind fun found =>
    (session.formatters[found.index]?).map (found.index, ·)

theorem withFormatter_eq (session : Session σ) (handle : String)
    (act : Nat → Formatter σ → Result σ) :
    session.withFormatter handle act =
      match session.formatter? handle with
      | some found => act found.1 found.2
      | none => session.misused := by
  unfold withFormatter formatter?
  cases session.formatterHandles.find? handle with
  | none => rfl
  | some found =>
      cases hf : session.formatters[found.index]? with
      | none => simp [hf]
      | some formatter => simp [hf]

theorem getElem?_of_formatter? {session : Session σ} {handle : String} {index : Nat}
    {formatter : Formatter σ} (h : session.formatter? handle = some (index, formatter)) :
    session.formatters[index]? = some formatter := by
  obtain ⟨found, -, hfound⟩ := Option.bind_eq_some_iff.1 h
  obtain ⟨_, hat, heq⟩ := Option.map_eq_some_iff.1 hfound
  cases heq
  exact hat

/-- The formatter that a command moves, by its place, and the move. -/
def commandMove? (session : Session σ) : FormatCommand σ → Option (Nat × FormatterMove σ)
  | .register handle name placeholder =>
      (session.formatter? handle).map fun found => (found.1, .registered name placeholder)
  | .setRegistry handle registry =>
      (session.formatter? handle).map fun found => (found.1, .replaced registry)
  | .copyRegistry handle source without =>
      (session.formatter? source).bind fun origin =>
        (session.formatter? handle).map fun found =>
          (found.1, .replaced (lessen origin.2.registry without))
  | .reset handle => (session.formatter? handle).map fun found => (found.1, .reset)
  | .render handle _ _ => (session.formatter? handle).map fun found => (found.1, .rendered)
  | _ => none

def formatterMove? (session : Session σ) : Act σ → Option (Nat × FormatterMove σ)
  | .format command => session.commandMove? command
  | .make logger _ _ _ _ =>
      (session.loggers.settings? logger).bind fun settings =>
        (session.formatters[settings.formatter]?).map fun _ => (settings.formatter, .rendered)
  | _ => none

/-- Between two sessions, the formatter at a place was moved, or fresh formatters came behind those
that there were. -/
def Moves (before after : Session σ) : Option (Nat × FormatterMove σ) → Prop
  | some (index, move) => ∃ formatter, before.formatters[index]? = some formatter ∧
      after.formatters = before.formatters.set index (formatter.moved move)
  | none => ∃ more, (∀ formatter ∈ more, formatter.Fresh) ∧
      after.formatters = before.formatters ++ more

theorem Moves.same {before after : Session σ} (h : after.formatters = before.formatters) :
    Moves before after none := ⟨[], by simp, by simpa using h⟩

theorem moves_withFormatter {session : Session σ} {handle : String}
    {act : Nat → Formatter σ → Result σ} {move : FormatterMove σ}
    (h : ∀ index formatter, session.formatters[index]? = some formatter →
      Moves session (act index formatter).2 (some (index, move))) :
    Moves session (session.withFormatter handle act).2
      ((session.formatter? handle).map fun found => (found.1, move)) := by
  rw [withFormatter_eq]
  cases hf : session.formatter? handle with
  | none => exact .same rfl
  | some found => exact h found.1 found.2 (getElem?_of_formatter? hf)

theorem moves_none_withFormatter {session : Session σ} {handle : String}
    {act : Nat → Formatter σ → Result σ}
    (h : ∀ index formatter, (act index formatter).2.formatters = session.formatters) :
    Moves session (session.withFormatter handle act).2 none :=
  withFormatter_cases (p := fun after => Moves session after none) (.same rfl)
    fun index formatter => .same (h index formatter)

theorem moves_render {session : Session σ} {index : Nat} {formatter : Formatter σ}
    (hat : session.formatters[index]? = some formatter) (context : Context) (prefixText : Text) :
    Moves session (session.render index context prefixText).2 (some (index, .rendered)) := by
  refine ⟨formatter, hat, ?_⟩
  simp only [render, hat, Formatter.moved_render]

theorem moves_runFormat (session : Session σ) (command : FormatCommand σ) :
    Moves session (session.runFormat command).2 (session.commandMove? command) := by
  cases command with
  | make handle template registry =>
      exact ⟨[.format (makeFormat template registry)], List.forall_mem_singleton.2 rfl, rfl⟩
  | stamp handle text => exact ⟨[.stamp { text }], List.forall_mem_singleton.2 rfl, rfl⟩
  | borrow handle logger =>
      simp only [runFormat, commandMove?]
      split <;> exact Moves.same rfl
  | register handle name placeholder =>
      refine moves_withFormatter fun index formatter hat => ⟨formatter, hat, ?_⟩
      simp only [done, putFormatter, Formatter.moved_register]
  | setRegistry handle registry =>
      refine moves_withFormatter fun index formatter hat => ⟨formatter, hat, ?_⟩
      simp only [done, putFormatter, Formatter.moved_setRegistry]
  | copyRegistry handle source without =>
      simp only [runFormat, commandMove?]
      rw [withFormatter_eq]
      cases session.formatter? source with
      | none => exact .same rfl
      | some origin =>
          refine moves_withFormatter fun index formatter hat => ⟨formatter, hat, ?_⟩
          simp only [done, putFormatter, Formatter.moved_setRegistry]
  | reset handle =>
      refine moves_withFormatter fun index formatter hat => ⟨formatter, hat, ?_⟩
      simp only [done, putFormatter, Formatter.moved_reset]
  | names handle => exact moves_none_withFormatter fun index formatter => rfl
  | describe handle tall =>
      exact moves_none_withFormatter fun index formatter => by cases formatter <;> rfl
  | template handle =>
      exact moves_none_withFormatter fun index formatter => by cases formatter <;> rfl
  | render handle context prefixText =>
      exact moves_withFormatter fun index formatter hat => moves_render hat context prefixText

/-- Rendering a record of a logger is a move of its formatter, when both are there. -/
theorem moves_rendered (session : Session σ) (logger : Nat) (entry : Entry)
    (site : Option CallSite) (instant : Time.Instant) (message : Text) :
    Moves session (session.rendered logger ⟨entry.level, site, instant⟩)
      (session.formatterMove? (.make logger entry site instant message)) := by
  simp only [rendered, formatterMove?]
  cases session.loggers.settings? logger with
  | none => exact .same rfl
  | some settings =>
      simp only [Option.bind_some]
      cases hat : session.formatters[settings.formatter]? with
      | none => exact .same (by simp only [render, hat])
      | some formatter => exact moves_render hat _ settings.prefixText

theorem moves_perform (session : Session σ) (act : Act σ) :
    Moves session (session.perform act) (session.formatterMove? act) := by
  cases act with
  | sink command =>
      obtain ⟨outlets, sinkHandles, h⟩ := session.runSink_frame command
      exact .same (by simp only [perform, release, h])
  | router command =>
      obtain ⟨outlets, routers, routerHandles, wrappers, h⟩ := session.runRouter_frame command
      exact .same (by simp only [perform, release, h])
  | format command => exact session.moves_runFormat command
  | memo command =>
      obtain ⟨desk, h⟩ := session.runMemo_frame command
      exact .same (by simp only [perform, release, h])
  | logger command =>
      obtain ⟨grown, loggers, hgrown, h⟩ | ⟨router, h⟩ := session.runLogger_frame command
      · obtain ⟨more, hfresh, hmore⟩ := hgrown.formatters
        refine ⟨more, hfresh, ?_⟩
        simp only [perform, release, h]
        exact hmore
      · exact .same (by simp only [perform, release, h, flushRouter])
  | enter handle =>
      simp only [perform]
      split <;> exact .same rfl
  | make logger entry site instant message =>
      obtain ⟨outlets, h⟩ := session.deliver_rendered logger entry site instant message
      simp only [perform, release, leave, h]
      exact session.moves_rendered logger entry site instant message

/-! ## The moves of one formatter -/

/-- The move of an act that is one of the formatter at a place. -/
def movesAt (session : Session σ) (index : Nat) (act : Act σ) : List (FormatterMove σ) :=
  match session.formatterMove? act with
  | some (place, move) => if place = index then [move] else []
  | none => []

def formatterMoves (index : Nat) : Session σ → List (Act σ) → List (FormatterMove σ)
  | _, [] => []
  | session, act :: rest =>
      session.movesAt index act ++ formatterMoves index (session.perform act) rest

/-- A formatter that is there takes the move of an act if it is one of its own. -/
theorem formatter_perform {session : Session σ} {index : Nat} {formatter : Formatter σ}
    (hat : session.formatters[index]? = some formatter) (act : Act σ) :
    (session.perform act).formatters[index]? =
      some ((session.movesAt index act).foldl Formatter.moved formatter) := by
  have hmoves := session.moves_perform act
  unfold movesAt
  cases hm : session.formatterMove? act with
  | none =>
      rw [hm] at hmoves
      obtain ⟨more, -, hmore⟩ := hmoves
      obtain ⟨hlt, -⟩ := List.getElem?_eq_some_iff.1 hat
      rw [hmore, List.getElem?_append_left hlt, hat]
      rfl
  | some found =>
      obtain ⟨place, move⟩ := found
      rw [hm] at hmoves
      obtain ⟨found, hfound, hset⟩ := hmoves
      rw [hset]
      by_cases h : place = index
      · subst h
        rw [hat] at hfound
        cases hfound
        obtain ⟨hlt, -⟩ := List.getElem?_eq_some_iff.1 hat
        simp [hlt]
      · simp [h, List.getElem?_set_ne h, hat]

theorem movesAt_of_none {session : Session σ} {index : Nat}
    (hnone : session.formatters[index]? = none) (act : Act σ) : session.movesAt index act = [] := by
  have hmoves := session.moves_perform act
  unfold movesAt
  cases hm : session.formatterMove? act with
  | none => rfl
  | some found =>
      obtain ⟨place, move⟩ := found
      rw [hm] at hmoves
      obtain ⟨formatter, hat, -⟩ := hmoves
      have hne : place ≠ index := by
        rintro rfl
        rw [hnone] at hat
        cases hat
      simp [hne]

/-- A formatter that comes in by an act is fresh. -/
theorem fresh_of_perform {session : Session σ} {index : Nat} {formatter : Formatter σ} {act : Act σ}
    (hnone : session.formatters[index]? = none)
    (hat : (session.perform act).formatters[index]? = some formatter) : formatter.Fresh := by
  have hmoves := session.moves_perform act
  have hlength := List.getElem?_eq_none_iff.1 hnone
  cases hm : session.formatterMove? act with
  | none =>
      rw [hm] at hmoves
      obtain ⟨more, hfresh, hmore⟩ := hmoves
      rw [hmore, List.getElem?_append_right hlength] at hat
      exact hfresh formatter (List.mem_of_getElem? hat)
  | some found =>
      rw [hm] at hmoves
      obtain ⟨_, -, hset⟩ := hmoves
      rw [hset, List.getElem?_eq_none (by simpa using hlength)] at hat
      cases hat

/-- A formatter takes the moves of its own that a run makes, and no others. -/
theorem formatter_performAll {session : Session σ} {index : Nat} {formatter : Formatter σ}
    (hat : session.formatters[index]? = some formatter) (acts : List (Act σ)) :
    (session.performAll acts).formatters[index]? =
      some ((session.formatterMoves index acts).foldl Formatter.moved formatter) := by
  induction acts generalizing session formatter with
  | nil => exact hat
  | cons act rest ih =>
      rw [formatterMoves, List.foldl_append]
      exact ih (formatter_perform hat act)

/-- A formatter that comes in by a run is what its own moves have made of a fresh one. -/
theorem exists_fresh_of_performAll {session : Session σ} {index : Nat} {formatter : Formatter σ}
    {acts : List (Act σ)} (hnone : session.formatters[index]? = none)
    (hat : (session.performAll acts).formatters[index]? = some formatter) :
    ∃ start : Formatter σ, start.Fresh ∧
      formatter = (session.formatterMoves index acts).foldl Formatter.moved start := by
  induction acts generalizing session with
  | nil =>
      rw [performAll, List.foldl_nil, hnone] at hat
      cases hat
  | cons act rest ih =>
      rw [formatterMoves, movesAt_of_none hnone, List.nil_append]
      cases hact : (session.perform act).formatters[index]? with
      | none => exact ih hact hat
      | some start =>
          have hrest := formatter_performAll hact rest
          exact ⟨start, fresh_of_perform hnone hact, Option.some.inj (hat.symm.trans hrest)⟩

end Session

end Logbook
