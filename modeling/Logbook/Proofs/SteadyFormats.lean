import Logbook.Proofs.CompiledFormats
import Logbook.Proofs.MemoTransparency

/-!
# Steady formats

Placeholders whose text does not depend on what placeholders keep. Two formatters that would be the
same if they were made this moment render the same text, whatever each of them has compiled and
whatever is remembered and kept on the desks, as long as what is remembered is honest.
-/

namespace Logbook

variable {σ : Type}

/-! ## Placeholders and segments -/

/-- The text does not depend on the state that placeholders keep. -/
def Placeholder.Steady (placeholder : Placeholder σ) : Prop :=
  ∀ context argument own own',
    (placeholder.output context argument own).1 = (placeholder.output context argument own').1

namespace Registry

def Steady (registry : Registry σ) : Prop :=
  ∀ name placeholder, registry.find? name = some placeholder → placeholder.Steady

theorem steady_builtin : (builtin : Registry σ).Steady := by
  intro name placeholder h
  have hmem := Table.mem_values_of_find? h
  simp only [Table.values, builtin, List.map_cons, List.map_nil, List.mem_cons, List.not_mem_nil,
    or_false] at hmem
  rcases hmem with rfl | rfl | rfl | rfl <;> exact fun _ _ _ _ => rfl

theorem Steady.insert {registry : Registry σ} (steady : registry.Steady) (name : Text)
    {placeholder : Placeholder σ} (h : placeholder.Steady) :
    Steady (registry.insert name placeholder) := by
  intro other found hfound
  rw [Table.find?_insert] at hfound
  split at hfound
  · cases hfound
    exact h
  · exact steady other found hfound

theorem Steady.lessen {registry : Registry σ} (steady : registry.Steady) (without : Option Text) :
    (Session.lessen registry without).Steady := by
  cases without with
  | none => exact steady
  | some name =>
      intro other found hfound
      simp only [Session.lessen, Table.find?_erase] at hfound
      split at hfound
      · cases hfound
      · exact steady other found hfound

end Registry

namespace Segment

def Steady : Segment σ → Prop
  | .replacement _ placeholder => placeholder.Steady
  | _ => True

theorem steady_prepend {text : Text} {segments : List (Segment σ)}
    (h : ∀ segment ∈ segments, segment.Steady) :
    ∀ segment ∈ prepend text segments, segment.Steady := by
  unfold prepend
  split
  · rename_i rest more
    exact List.forall_mem_cons.2 ⟨trivial, (List.forall_mem_cons.1 h).2⟩
  · exact List.forall_mem_cons.2 ⟨trivial, h⟩

theorem steady_ofToken? {registry : Registry σ} (steady : registry.Steady) {token : Token}
    {segment : Segment σ} (h : ofToken? registry token = some segment) : segment.Steady := by
  unfold ofToken? at h
  split at h
  · rename_i placeholder hfind
    cases h
    exact steady token.name placeholder hfind
  · split at h
    · cases h
      trivial
    · cases h

theorem steady_ofPieces {registry : Registry σ} (steady : registry.Steady) (list : List Piece) :
    ∀ segment ∈ ofPieces registry list, segment.Steady := by
  induction list with
  | nil =>
      intro segment h
      cases h
  | cons piece rest ih =>
      cases piece with
      | plain c => exact steady_prepend ih
      | token token =>
          unfold ofPieces
          split
          · rename_i segment hsegment
            exact List.forall_mem_cons.2 ⟨steady_ofToken? steady hsegment, ih⟩
          · exact steady_prepend ih

theorem outputAll_of_steady {segments : List (Segment σ)} (h : ∀ segment ∈ segments, segment.Steady)
    (context : Context) (prefixText : Text) (own own' : σ) :
    (outputAll context prefixText segments own).1 =
      (outputAll context prefixText segments own').1 := by
  induction segments generalizing own own' with
  | nil => rfl
  | cons segment rest ih =>
      obtain ⟨hsegment, hrest⟩ := List.forall_mem_cons.1 h
      have htext : (segment.output context prefixText own).1 =
          (segment.output context prefixText own').1 := by
        cases segment with
        | replacement token placeholder => exact hsegment context token.argumentText own own'
        | _ => rfl
      simp only [outputAll, htext]
      exact congrArg (_ ++ ·) (ih hrest _ _)

end Segment

/-! ## Formatters -/

def FormatterMove.Steady : FormatterMove σ → Prop
  | .registered _ placeholder => placeholder.Steady
  | .replaced registry => registry.Steady
  | _ => True

/-- A move uses or resets a formatter, which leaves its template and its registry. -/
def FormatterMove.Idle : FormatterMove σ → Prop
  | .rendered => True
  | .reset => True
  | _ => False

theorem FormatterMove.Idle.steady {move : FormatterMove σ} (idle : move.Idle) : move.Steady := by
  cases move with
  | rendered => trivial
  | reset => trivial
  | registered => exact idle.elim
  | replaced => exact idle.elim

namespace Formatter

/-- What is compiled is the compilation of the present registry, which is steady. -/
def Settled : Formatter σ → Prop
  | .format found => found.Coherent ∧ found.registry.Steady
  | .stamp _ => True

/-- Two settled formatters would be the same if they were made this moment. -/
structure Alike (formatter other : Formatter σ) : Prop where
  anew : other.anew = formatter.anew
  settled : formatter.Settled
  settled' : other.Settled

theorem Settled.registry {formatter : Formatter σ} (h : formatter.Settled) :
    formatter.registry.Steady := by
  cases formatter with
  | format found => exact h.2
  | stamp found =>
      intro name placeholder hfound
      cases hfound

theorem Alike.refl {formatter : Formatter σ} (h : formatter.Settled) :
    formatter.Alike formatter := ⟨rfl, h, h⟩

theorem settled_makeFormat (template : Option Text) {registry : Option (Registry σ)}
    (h : ∀ found ∈ registry, found.Steady) :
    (Formatter.format (Session.makeFormat template registry)).Settled := by
  refine ⟨fun segments hsegments => ?_, ?_⟩
  · cases hsegments
  · cases registry with
    | none => exact Registry.steady_builtin
    | some found => exact h found rfl

theorem Settled.moved {formatter : Formatter σ} (settled : formatter.Settled)
    {move : FormatterMove σ} (steady : move.Steady) : (formatter.moved move).Settled := by
  cases formatter with
  | stamp found => cases move <;> trivial
  | format found =>
      refine ⟨settled.1.moved move, ?_⟩
      cases move with
      | rendered => exact settled.2
      | reset => exact settled.2
      | registered name placeholder => exact settled.2.insert name steady
      | replaced registry => exact steady

theorem anew_moved_congr {formatter other : Formatter σ} (h : other.anew = formatter.anew)
    (move : FormatterMove σ) : (other.moved move).anew = (formatter.moved move).anew := by
  cases formatter with
  | stamp found =>
      cases other with
      | stamp found' =>
          simp only [anew, Formatter.stamp.injEq, Stamp.mk.injEq, and_true] at h
          cases move <;> simp [moved, anew, h]
      | format found' => cases h
  | format found =>
      cases other with
      | stamp found' => cases h
      | format found' =>
          simp only [anew, Format.anew, Formatter.format.injEq, Format.mk.injEq, and_true] at h
          cases move <;>
            simp [moved, Format.moved, anew, Format.anew, Format.reset, Format.register,
              Format.withRegistry, h]

theorem anew_moved_idle {move : FormatterMove σ} (idle : move.Idle) (formatter : Formatter σ) :
    (formatter.moved move).anew = formatter.anew := by
  cases move with
  | rendered => exact anew_moved_rendered formatter
  | reset => cases formatter <;> rfl
  | registered => exact idle.elim
  | replaced => exact idle.elim

namespace Alike

variable {formatter other : Formatter σ}

theorem moved (alike : formatter.Alike other) {move : FormatterMove σ} (steady : move.Steady) :
    (formatter.moved move).Alike (other.moved move) :=
  ⟨anew_moved_congr alike.anew move, alike.settled.moved steady, alike.settled'.moved steady⟩

theorem used (alike : formatter.Alike other) {move : FormatterMove σ} (idle : move.Idle) :
    (formatter.moved move).Alike other :=
  ⟨by rw [anew_moved_idle idle, alike.anew], alike.settled.moved idle.steady, alike.settled'⟩

theorem used' (alike : formatter.Alike other) {move : FormatterMove σ} (idle : move.Idle) :
    formatter.Alike (other.moved move) :=
  ⟨by rw [anew_moved_idle idle, alike.anew], alike.settled, alike.settled'.moved idle.steady⟩

theorem registry (alike : formatter.Alike other) : other.registry = formatter.registry := by
  have hregistry : ∀ found : Formatter σ, found.anew.registry = found.registry := by
    intro found
    cases found <;> rfl
  rw [← hregistry, alike.anew, hregistry]

theorem render_eq (alike : formatter.Alike other) {desk desk' : Desk σ}
    (honest : desk.memo.Honest) (honest' : desk'.memo.Honest) (context : Context)
    (prefixText : Text) :
    (other.render context prefixText desk').1 = (formatter.render context prefixText desk).1 := by
  obtain ⟨hanew, hsettled, hsettled'⟩ := alike
  cases formatter with
  | stamp found =>
      cases other with
      | stamp found' =>
          simp only [Formatter.anew, Formatter.stamp.injEq, Stamp.mk.injEq, and_true] at hanew
          simp only [render, Stamp.render, hanew]
      | format found' => cases hanew
  | format found =>
      cases other with
      | stamp found' => cases hanew
      | format found' =>
          simp only [Formatter.anew, Format.anew, Formatter.format.injEq, Format.mk.injEq,
            and_true] at hanew
          have hsegments : found'.segments = found.segments := by
            rw [Format.segments, Format.segments, hanew.1, hanew.2]
          have hfirst := congrArg Prod.fst
            (Segment.renderAll_of_honest honest context prefixText found.segments)
          have hsecond := congrArg Prod.fst
            (Segment.renderAll_of_honest honest' context prefixText found.segments)
          have hsteady := Segment.outputAll_of_steady
            (Segment.steady_ofPieces hsettled.2 (pieces found.template)) context prefixText
            desk'.own desk.own
          simp only [render, Format.render, Format.compile_eq_segments hsettled.1,
            Format.compile_eq_segments hsettled'.1, hsegments]
          exact hsecond.trans (hsteady.trans hfirst.symm)

end Alike

end Formatter

end Logbook
