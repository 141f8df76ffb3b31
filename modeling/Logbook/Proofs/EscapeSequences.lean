import Logbook.Proofs.Columns

/-!
# Escape sequences

The last line before a message as a sequence of elements: characters that show, and complete escape
sequences, which do not. The column of the message is the number of elements that show, so escape
sequences can come and go without moving it.
-/

namespace Logbook

/-- What a line is made of on a terminal: a character that shows, an escape with the character
behind it, or a control sequence from its bracket to the first character that can end it. -/
inductive Element where
  | visible (c : Char) (shows : c ≠ '\x1b' ∧ c ≠ '\n')
  | escape (c : Char) (short : c ≠ '[' ∧ c ≠ '\n')
  | control (parameters : Text) (final : Char)
      (inside : ∀ c ∈ parameters, c ≠ '\n' ∧ ¬ ('@' ≤ c ∧ c ≤ '~'))
      (ends : '@' ≤ final ∧ final ≤ '~')

theorem isControlEnd_iff (c : Char) : isControlEnd c = true ↔ '@' ≤ c ∧ c ≤ '~' := by
  simp [isControlEnd]

namespace Element

def text : Element → Text
  | .visible c _ => [c]
  | .escape c _ => ['\x1b', c]
  | .control parameters final _ _ => '\x1b' :: '[' :: (parameters ++ [final])

def isVisible : Element → Bool
  | .visible .. => true
  | _ => false

end Element

namespace Cursor

theorem after_parameters {parameters : Text}
    (h : ∀ c ∈ parameters, c ≠ '\n' ∧ ¬ ('@' ≤ c ∧ c ≤ '~')) (column : Nat) :
    after ⟨column, .control⟩ parameters = ⟨column, .control⟩ := by
  induction parameters with
  | nil => rfl
  | cons c rest ih =>
      obtain ⟨hline, hinside⟩ := h c List.mem_cons_self
      rw [after_cons, step_control hline, if_neg fun hend => hinside ((isControlEnd_iff c).1 hend)]
      exact ih fun d hd => h d (List.mem_cons_of_mem c hd)

/-- An element that shows moves the cursor by one column; every other leaves it where it is. -/
theorem after_element (element : Element) (column : Nat) :
    after ⟨column, .plain⟩ element.text =
      ⟨column + if element.isVisible then 1 else 0, .plain⟩ := by
  cases element with
  | visible c shows => exact step_plain shows.2 shows.1 column
  | escape c short => exact step_escape short.2 short.1 column
  | control parameters final inside ends =>
      have hline : final ≠ '\n' := by
        rintro rfl
        exact absurd ends.1 (by decide)
      show after ⟨column, .control⟩ (parameters ++ [final]) = _
      rw [after_append, after_parameters inside, after_cons, step_control hline,
        if_pos ((isControlEnd_iff final).2 ends)]
      rfl

theorem after_elements (elements : List Element) (column : Nat) :
    after ⟨column, .plain⟩ (elements.flatMap Element.text) =
      ⟨column + elements.countP Element.isVisible, .plain⟩ := by
  induction elements generalizing column with
  | nil => rfl
  | cons element rest ih =>
      rw [List.flatMap_cons, after_append, after_element, ih, List.countP_cons]
      congr 1
      omega

/-- At the start of a line the elements that show make up the column. -/
theorem after_line (elements : List Element) :
    after {} (elements.flatMap Element.text) = ⟨elements.countP Element.isVisible, .plain⟩ := by
  have hline := after_elements elements 0
  rw [Nat.zero_add] at hline
  exact hline

end Cursor

/-! ## Displays -/

/-- Whole lines and the elements of a last line. -/
structure Display where
  lead : Text := []
  elements : List Element
  whole : WholeLines lead := by decide

namespace Display

def text (display : Display) : Text := display.lead ++ display.elements.flatMap Element.text

def shown (display : Display) : Nat := display.elements.countP Element.isVisible

theorem after_text (display : Display) :
    Cursor.after {} display.text = ⟨display.shown, .plain⟩ := by
  rw [text, Cursor.after_append, Cursor.after_wholeLines display.whole]
  exact Cursor.after_line display.elements

theorem messageColumn_text {display : Display} (h : ¬ Builtin.messageToken <:+: display.text)
    (after : Text) :
    messageColumn (display.text ++ Builtin.messageToken ++ after) = display.shown := by
  rw [messageColumn_of_free h, Cursor.columnAfter, after_text]

/-- A second text goes on behind the first one, or on a line of its own if it has lines before. -/
theorem columnAfter_append (first second : Display) :
    Cursor.columnAfter (first.text ++ second.text) =
      if second.lead = [] then first.shown + second.shown else second.shown := by
  rw [Cursor.columnAfter, Cursor.after_append, after_text]
  split
  · rename_i hlead
    rw [text, hlead, List.nil_append, Cursor.after_elements]
    rfl
  · rename_i hlead
    rw [text, Cursor.after_append, Cursor.after_of_getLast? (second.whole.resolve_left hlead),
      Cursor.after_line]
    rfl

/-- The column of a message behind whole lines and elements, where no message token shows before, is
the number of elements that show. Elements that do not show can come and go without moving it.
Columns of two texts add up when the second one has no lines before its elements; otherwise the
column is that of the second text alone. -/
theorem column_of_elements :
    (∀ (display : Display) (after : Text), ¬ Builtin.messageToken <:+: display.text →
        messageColumn (display.text ++ Builtin.messageToken ++ after) =
          display.elements.countP Element.isVisible) ∧
      (∀ display other : Display,
        display.elements.filter Element.isVisible = other.elements.filter Element.isVisible →
        ¬ Builtin.messageToken <:+: display.text → ¬ Builtin.messageToken <:+: other.text →
          ∀ after, messageColumn (display.text ++ Builtin.messageToken ++ after) =
            messageColumn (other.text ++ Builtin.messageToken ++ after)) ∧
      ∀ first second : Display, ¬ Builtin.messageToken <:+: first.text ++ second.text → ∀ after,
        messageColumn (first.text ++ second.text ++ Builtin.messageToken ++ after) =
          if second.lead = [] then
            messageColumn (first.text ++ Builtin.messageToken ++ after) +
              messageColumn (second.text ++ Builtin.messageToken ++ after)
          else messageColumn (second.text ++ Builtin.messageToken ++ after) := by
  refine ⟨fun display after h => messageColumn_text h after, ?_, ?_⟩
  · intro display other hsame hdisplay hother after
    rw [messageColumn_text hdisplay, messageColumn_text hother, shown, shown,
      List.countP_eq_length_filter, List.countP_eq_length_filter, hsame]
  · intro first second hfree after
    have hfirst : ¬ Builtin.messageToken <:+: first.text := fun h =>
      hfree (h.trans (List.prefix_append _ _).isInfix)
    have hsecond : ¬ Builtin.messageToken <:+: second.text := fun h =>
      hfree (h.trans (List.suffix_append _ _).isInfix)
    rw [messageColumn_of_free hfree, columnAfter_append, messageColumn_text hfirst,
      messageColumn_text hsecond]

def colored : Display where
  lead := "head\n".toList
  elements := [.control "48;5;2".toList 'm' (by simp) (by decide), .visible '>' (by decide),
    .escape 'c' (by decide), .visible ' ' (by decide)]

def plain : Display where
  lead := "head\n".toList
  elements := [.visible '>' (by decide), .visible ' ' (by decide)]

def single (c : Char) (shows : c ≠ '\x1b' ∧ c ≠ '\n') (lead : Text := [])
    (whole : WholeLines lead := by decide) : Display :=
  { lead, elements := [.visible c shows], whole }

theorem column_of_elements_colored :
    messageColumn "head\n\x1b[48;5;2m>\x1bc %s".toList = messageColumn "head\n> %s".toList ∧
      messageColumn "head\n> !%s".toList =
        messageColumn "head\n> %s".toList + messageColumn "!%s".toList := by
  have hcolored : ¬ Builtin.messageToken <:+: colored.text := by
    rw [← Text.contains_iff_infix]
    decide
  have hplain : ¬ Builtin.messageToken <:+: plain.text := by
    rw [← Text.contains_iff_infix]
    decide
  have hboth : ¬ Builtin.messageToken <:+: plain.text ++ (single '!' (by decide)).text := by
    rw [← Text.contains_iff_infix]
    decide
  obtain ⟨-, hsame, hadd⟩ := column_of_elements
  exact ⟨hsame colored plain rfl hcolored hplain [], hadd plain (single '!' (by decide)) hboth []⟩

/-- Columns do not add up when the second text begins below the first one, nor when a message token
comes about where they meet. -/
theorem columns_do_not_add :
    let first := single '%' (by decide)
    let second := single 's' (by decide)
    let below := single 's' (by decide) ['\n']
    (¬ Builtin.messageToken <:+: first.text ++ below.text ∧
        messageColumn (first.text ++ below.text ++ Builtin.messageToken) ≠
          messageColumn (first.text ++ Builtin.messageToken) +
            messageColumn (below.text ++ Builtin.messageToken)) ∧
      ¬ Builtin.messageToken <:+: first.text ∧ ¬ Builtin.messageToken <:+: second.text ∧
        messageColumn (first.text ++ second.text ++ Builtin.messageToken) ≠
          messageColumn (first.text ++ Builtin.messageToken) +
            messageColumn (second.text ++ Builtin.messageToken) := by
  simp only [← Text.contains_iff_infix]
  decide

end Display

end Logbook
