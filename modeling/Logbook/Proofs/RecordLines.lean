import Logbook.Proofs.BodiesKept
import Logbook.Proofs.BodyPlace
import Logbook.Proofs.Columns

/-!
# Lines of records

A record is the rendered text with the lines of the message in the place of the first message token.
The lines behind the first one begin under spaces, which under alignment bring the cursor to the
column where the message begins.
-/

namespace Logbook

/-! ## Lines -/

namespace Text

theorem not_mem_of_mem_splitOn {separator : Char} {text piece : Text}
    (h : piece ∈ splitOn separator text) : separator ∉ piece := by
  induction text generalizing piece with
  | nil =>
      rw [List.mem_singleton.1 h]
      exact List.not_mem_nil
  | cons c rest ih =>
      unfold splitOn at h
      split at h
      · rcases List.mem_cons.1 h with rfl | hrest
        · exact List.not_mem_nil
        · exact ih hrest
      · rename_i hc
        obtain ⟨first, more, hpieces⟩ := List.exists_cons_of_ne_nil (splitOn_ne_nil separator rest)
        rw [hpieces] at h ih
        rcases List.mem_cons.1 h with rfl | hmore
        · exact List.not_mem_cons_of_ne_of_not_mem (Ne.symm hc) (ih List.mem_cons_self)
        · exact ih (List.mem_cons_of_mem first hmore)

theorem joinWith_cons_cons (separator piece next : Text) (more : List Text) :
    joinWith separator (piece :: next :: more) =
      piece ++ separator ++ joinWith separator (next :: more) := rfl

/-- The lines before one of the lines, each with its separator, stand before that line. -/
theorem joinWith_append_cons (separator : Text) (first : List Text) (line : Text)
    (last : List Text) :
    joinWith separator (first ++ line :: last) =
      first.flatMap (· ++ separator) ++ joinWith separator (line :: last) := by
  induction first with
  | nil => rfl
  | cons piece rest ih =>
      obtain ⟨next, more, hrest⟩ := List.exists_cons_of_ne_nil
        (show rest ++ line :: last ≠ [] by simp)
      rw [List.cons_append, hrest, joinWith_cons_cons, ← hrest, ih, List.flatMap_cons]
      simp only [List.append_assoc]

theorem prefix_joinWith (separator line : Text) (last : List Text) :
    line <+: joinWith separator (line :: last) := by
  cases last with
  | nil => exact List.prefix_refl line
  | cons next more =>
      rw [joinWith_cons_cons, List.append_assoc]
      exact List.prefix_append line _

end Text

/-- The shifted lines of a message are its lines with the spaces behind each line feed. -/
theorem shiftLines_joinWith {lines : List Text} (h : ∀ line ∈ lines, '\n' ∉ line) (width : Nat) :
    shiftLines width (Text.joinWith ['\n'] lines) =
      Text.joinWith ('\n' :: spaces width) lines := by
  induction lines with
  | nil => rfl
  | cons line rest ih =>
      have hline : shiftLines width line = line :=
        shiftLines_of_not_mem (h line List.mem_cons_self) width
      have hrest := ih fun other ho => h other (List.mem_cons_of_mem line ho)
      cases rest with
      | nil => exact hline
      | cons next more =>
          have hfeed : shiftLines width ['\n'] = '\n' :: spaces width := by simp [shiftLines]
          rw [Text.joinWith_cons_cons, Text.joinWith_cons_cons]
          unfold shiftLines at hline hrest hfeed ⊢
          rw [List.flatMap_append, List.flatMap_append, hline, hfeed, hrest]

/-! ## Records -/

def Indent.shiftAt : Indent → Nat → Nat
  | .disabled, _ => 0
  | .auto, column => column
  | .shift width, _ => width

theorem Indent.width_of_free {before : Text} (h : ¬ Builtin.messageToken <:+: before)
    (indent : Indent) (after : Text) :
    indent.width (before ++ Builtin.messageToken ++ after) =
      indent.shiftAt (Cursor.columnAfter before) := by
  cases indent with
  | auto => exact messageColumn_of_free h after
  | _ => rfl

theorem assemble_of_free {before : Text} (h : ¬ Builtin.messageToken <:+: before)
    (indent : Indent) (after : Text) {lines : List Text} (hlines : ∀ line ∈ lines, '\n' ∉ line) :
    assemble indent (before ++ Builtin.messageToken ++ after) (Text.joinWith ['\n'] lines) =
      before ++ Text.joinWith ('\n' :: spaces (indent.shiftAt (Cursor.columnAfter before))) lines ++
        after ++ ['\n'] := by
  rw [assemble, Text.replaceFirst_of_cut? _ (cut?_messageToken h after), Indent.width_of_free h,
    shiftLines_joinWith hlines]

/-- The cursor stands at the column where the message began whenever one of its lines begins. -/
theorem Cursor.columnAfter_lines (before : Text) (first : List Text) :
    columnAfter (before ++ first.flatMap (· ++ '\n' :: spaces (columnAfter before))) =
      columnAfter before := by
  cases first using List.reverseRec with
  | nil => rw [List.flatMap_nil, List.append_nil]
  | append_singleton rest line =>
      rw [List.flatMap_append, List.flatMap_singleton, ← List.append_assoc, ← List.append_assoc]
      exact columnAfter_indented _ _

namespace Session

/-- The lines of a message in a record, whatever a formatter has rendered for it. Where that shows a
message token, the lines take the place of the first one, the continuation lines behind the shift
that the indentation asks for; aligned lines begin where the cursor stood when the message began.
Where no token shows, the message is left out. The router is handed that record, encoded. -/
theorem lines_in_record (rendered message : Text) (indent : Indent) :
    let lines := Text.splitOn '\n' message
    (message = Text.joinWith ['\n'] lines ∧ ∀ line ∈ lines, '\n' ∉ line) ∧
      (∀ before after, rendered = before ++ Builtin.messageToken ++ after →
        ¬ Builtin.messageToken <:+: before →
          let shift := '\n' :: spaces (indent.shiftAt (Cursor.columnAfter before))
          let text := before ++ Text.joinWith shift lines ++ after ++ ['\n']
          assemble indent rendered message = text ∧
            (indent = .auto → ∀ first line last, lines = first ++ line :: last →
              let lead := before ++ first.flatMap (· ++ shift)
              lead ++ line <+: text ∧ Cursor.columnAfter lead = Cursor.columnAfter before)) ∧
      (¬ Builtin.messageToken <:+: rendered →
        assemble indent rendered message = rendered ++ ['\n']) ∧
      ∀ {σ : Type} (session : Session σ) (logger : Nat) (settings : Settings) (entry : Entry)
        (site : Option CallSite) (instant : Time.Instant),
        session.loggers.settings? logger = some settings → settings.indent = indent →
          (session.render settings.formatter ⟨entry.level, site, instant⟩
              settings.prefixText).1 = rendered →
            session.Makes logger settings entry site instant message
              (assemble indent rendered message) := by
  intro lines
  have hmessage : message = Text.joinWith ['\n'] lines := (Text.joinWith_splitOn '\n' message).symm
  have hlines : ∀ line ∈ lines, '\n' ∉ line := fun _ => Text.not_mem_of_mem_splitOn
  refine ⟨⟨hmessage, hlines⟩, fun before after hrendered hfree => ⟨?_, ?_⟩, fun hfree => ?_, ?_⟩
  · have hrecord := assemble_of_free hfree indent after hlines
    rw [← hmessage, ← hrendered] at hrecord
    exact hrecord
  · intro hauto first line last heq lead
    refine ⟨?_, ?_⟩
    · obtain ⟨rest, hrest⟩ := Text.prefix_joinWith
        ('\n' :: spaces (indent.shiftAt (Cursor.columnAfter before))) line last
      refine ⟨rest ++ after ++ ['\n'], ?_⟩
      rw [heq, Text.joinWith_append_cons, ← hrest]
      simp only [lead, List.append_assoc]
    · simp only [lead, hauto, Indent.shiftAt]
      exact Cursor.columnAfter_lines before first
  · have hnone := mt (Text.contains_iff_infix Builtin.messageToken rendered).1 hfree
    rw [assemble, Text.replaceFirst_of_not_contains _ hnone]
  · rintro _ session logger settings entry site instant hset rfl rfl
    exact makes_record hset entry site instant message

def aligning : List (Act Unit) :=
  [.logger (.make "app"
    { template := some "head\n\x1b[1m> %s".toList, indentLines := some true })]

def aligningSettings : Settings :=
  { formatter := 0, router := 0, indent := .auto, exit := .terminate, fallback := ⟨1, none⟩ }

/-- A message with a token in its second line, which begins in the third column as the first does.
-/
theorem lines_in_record_aligned :
    ((fresh ()).performAll aligning).Makes 0 aligningSettings (.leveled .info) none ⟨0, 0, 0⟩
        "a\n%s".toList "head\n\x1b[1m> a\n  %s\n".toList ∧
      Cursor.columnAfter "head\n\x1b[1m> a\n  ".toList =
        Cursor.columnAfter "head\n\x1b[1m> ".toList := by
  have hset : ((fresh ()).performAll aligning).loggers.settings? 0 = some aligningSettings := by
    decide +kernel
  have hrendered : (((fresh ()).performAll aligning).render 0 ⟨.info, none, ⟨0, 0, 0⟩⟩ []).1 =
      "head\n\x1b[1m> ".toList ++ Builtin.messageToken ++ [] := by decide +kernel
  have hfree : ¬ Builtin.messageToken <:+: "head\n\x1b[1m> ".toList := by
    rw [← Text.contains_iff_infix]
    decide
  obtain ⟨-, hplace, -, hmakes⟩ :=
    lines_in_record ("head\n\x1b[1m> ".toList ++ Builtin.messageToken ++ []) "a\n%s".toList .auto
  obtain ⟨hrecord, haligned⟩ := hplace _ _ rfl hfree
  have hmade := hmakes _ 0 aligningSettings (.leveled .info) none ⟨0, 0, 0⟩ hset rfl hrendered
  rw [hrecord] at hmade
  exact ⟨hmade, (haligned rfl ["a".toList] "%s".toList [] rfl).2⟩

end Session

end Logbook
