import Logbook.Config.Basic
import Logbook.Proofs.HonestMemo
import Logbook.Proofs.Rendering
import Logbook.Proofs.TextSearch
import Logbook.Proofs.TimeLayouts

/-!
# Outlines

What the settings of a logger alone say about the text that a record of some level starts with:
characters that are known, and gaps where the call site or the time puts something in. The known
characters stand in every such text. At the right call site and time the gaps add no message token
to those of the outline, so a token that the outline lacks is missing there.
-/

namespace Logbook

/-- Known characters and gaps. -/
abbrev Outline := List (Option Char)

def Outline.ofText (text : Text) : Outline := text.map some

/-- A text has the known characters of an outline, and in the place of each gap a text with the
given property. -/
inductive Fills (P : Text → Prop) : Outline → Text → Prop where
  | nil : Fills P [] []
  | known {c : Char} {outline : Outline} {text : Text} :
      Fills P outline text → Fills P (some c :: outline) (c :: text)
  | gap {inserted : Text} {outline : Outline} {text : Text} :
      P inserted → Fills P outline text → Fills P (none :: outline) (inserted ++ text)

def Outline.messageToken : Outline := ofText Builtin.messageToken

/-- A text that neither holds the start of a message token nor can end one. -/
def Inert (text : Text) : Prop := text ≠ [] ∧ '%' ∉ text ∧ text.head? ≠ some 's'

instance (text : Text) : Decidable (Inert text) := by unfold Inert; infer_instance

namespace Fills

variable {P : Text → Prop}

theorem ofText (text : Text) : Fills P (Outline.ofText text) text := by
  induction text with
  | nil => exact .nil
  | cons c rest ih => exact .known ih

theorem ofGap {inserted : Text} (h : P inserted) : Fills P [none] inserted := by
  simpa using Fills.gap h .nil

theorem append {first second : Outline} {text more : Text} (h : Fills P first text)
    (h' : Fills P second more) : Fills P (first ++ second) (text ++ more) := by
  induction h with
  | nil => exact h'
  | known _ ih => exact .known ih
  | gap hp _ ih =>
      rw [List.append_assoc]
      exact .gap hp ih

theorem exists_append {first second : Outline} {text : Text} (h : Fills P (first ++ second) text) :
    ∃ front back, text = front ++ back ∧ Fills P first front ∧ Fills P second back := by
  induction first generalizing text with
  | nil => exact ⟨[], text, rfl, .nil, h⟩
  | cons place first ih =>
      cases h with
      | @known c _ tail h =>
          obtain ⟨front, back, rfl, hf, hb⟩ := ih h
          exact ⟨c :: front, back, rfl, .known hf, hb⟩
      | @gap inserted _ tail hp h =>
          obtain ⟨front, back, rfl, hf, hb⟩ := ih h
          exact ⟨inserted ++ front, back, by simp, .gap hp hf, hb⟩

theorem eq_of_ofText {known text : Text} (h : Fills P (Outline.ofText known) text) :
    text = known := by
  induction known generalizing text with
  | nil => cases h; rfl
  | cons c rest ih =>
      cases h with
      | known h => rw [ih h]

theorem infix_of_known {outline : Outline} {known text : Text} (h : Fills P outline text)
    (hk : Outline.ofText known <:+: outline) : known <:+: text := by
  obtain ⟨before, after, rfl⟩ := hk
  obtain ⟨front, back, rfl, hfront, -⟩ := h.exists_append
  obtain ⟨front, middle, rfl, -, hmiddle⟩ := hfront.exists_append
  rw [hmiddle.eq_of_ofText]
  exact List.infix_append front known back

/-- A message token behind a text without a percent sign begins behind that text. -/
theorem messageToken_infix_of_append {inserted text : Text} (hp : '%' ∉ inserted)
    (h : Builtin.messageToken <:+: inserted ++ text) : Builtin.messageToken <:+: text := by
  induction inserted with
  | nil => exact h
  | cons c rest ih =>
      rcases List.infix_cons_iff.1 h with hfront | hrest
      · obtain ⟨rfl, -⟩ := List.cons_prefix_cons.1 hfront
        exact absurd List.mem_cons_self hp
      · exact ih (fun hm => hp (List.mem_cons_of_mem c hm)) hrest

/-- With inert texts in its gaps, an outline holds every message token of the filled text. -/
theorem known_of_infix {outline : Outline} {text : Text} (h : Fills Inert outline text)
    (ht : Builtin.messageToken <:+: text) : Outline.messageToken <:+: outline := by
  induction h with
  | nil => cases List.eq_nil_of_infix_nil ht
  | @known c outline text h ih =>
      rcases List.infix_cons_iff.1 ht with hp | hi
      · obtain ⟨rfl, hs⟩ := List.cons_prefix_cons.1 hp
        -- what follows the percent sign is no gap, since no inert text begins with an `s`
        cases h with
        | nil => cases List.eq_nil_of_prefix_nil hs
        | known h =>
            obtain ⟨rfl, -⟩ := List.cons_prefix_cons.1 hs
            exact (List.prefix_append _ _).isInfix
        | @gap inserted outline text hinert h =>
            obtain ⟨hne, -, hhead⟩ := hinert
            cases inserted with
            | nil => exact absurd rfl hne
            | cons d more =>
                obtain ⟨rfl, -⟩ := List.cons_prefix_cons.1 hs
                exact absurd rfl hhead
      · exact List.infix_cons (ih hi)
  | gap hinert _ ih =>
      exact List.infix_cons (ih (messageToken_infix_of_append hinert.2.1 ht))

end Fills

/-! ## Layouts -/

namespace Time

def Item.known? : Item → Option Char
  | .literal c => some c
  | _ => none

/-- The outline of a layout. One that cannot be read is known as a whole. -/
def Layout.outline (layout : Text) : Outline :=
  match parse? layout with
  | some items => items.map Item.known?
  | none => .ofText layout

def Format.outline : Format → Outline
  | .dateTime => Layout.outline standardLayout
  | .unix => [none]
  | .custom layout => Layout.outline layout

/-- An item that was read is a character of the layout or belongs to a directive. -/
theorem Layout.mem_directives_of_parse? {layout : Text} {items : List Item}
    (h : parse? layout = some items) :
    ∀ item ∈ items, item.known? = none → ∃ entry ∈ directives, item ∈ entry.2 := by
  have hspells := parse?_eq_some_iff.1 h
  clear h
  induction hspells with
  | nil => simp
  | plain _ _ ih =>
      intro item hi hopen
      rcases List.mem_cons.1 hi with rfl | hi
      · cases hopen
      · exact ih item hi hopen
  | @directive entry rest items hentry _ ih =>
      intro item hi hopen
      rcases List.mem_append.1 hi with hi | hi
      · exact ⟨entry, hentry, hi⟩
      · exact ih item hi hopen

end Time

/-- What call site and time put into a text has the given property. -/
structure Suits (P : Text → Prop) (site : Option CallSite) (instant : Time.Instant) : Prop where
  line : P (Builtin.lineText site)
  file : ∀ argument, P (Builtin.fileText site argument)
  unix : P (Text.signed instant.seconds)
  item : ∀ entry ∈ Time.Layout.directives, ∀ item ∈ entry.2, item.known? = none →
    P (Time.Layout.renderItem instant item)

theorem suits_true (site : Option CallSite) (instant : Time.Instant) :
    Suits (fun _ => True) site instant := by
  constructor <;> intros <;> trivial

def plainSite : CallSite := ⟨['x'], 1⟩

def plainInstant : Time.Instant := ⟨0, 1, 0⟩

theorem suits_inert : Suits Inert (some plainSite) plainInstant where
  line := by decide +kernel
  file := by
    intro argument
    have hname : Path.fileName? ['x'] = some ['x'] := by decide
    have hx : Builtin.fileText (some plainSite) argument = ['x'] := by
      simp [Builtin.fileText, plainSite, hname]
    rw [hx]
    decide
  unix := by decide +kernel
  item := by decide +kernel

variable {P : Text → Prop} {site : Option CallSite} {instant : Time.Instant}

theorem Suits.fills_items (suits : Suits P site instant) {items : List Time.Item}
    (h : ∀ item ∈ items, item.known? = none → ∃ entry ∈ Time.Layout.directives, item ∈ entry.2) :
    Fills P (items.map Time.Item.known?) (Time.Layout.render items instant) := by
  induction items with
  | nil => exact .nil
  | cons item rest ih =>
      have hrest := ih fun other ho => h other (List.mem_cons_of_mem _ ho)
      cases hk : item.known? with
      | none =>
          obtain ⟨entry, hentry, hmem⟩ := h item List.mem_cons_self hk
          rw [List.map_cons, hk]
          exact .gap (suits.item entry hentry item hmem hk) hrest
      | some c =>
          cases item <;> cases hk
          exact .known hrest

theorem Suits.fills_layout (suits : Suits P site instant) (layout : Text) :
    Fills P (Time.Layout.outline layout) (Time.Format.renderLayout layout instant) := by
  unfold Time.Layout.outline Time.Format.renderLayout
  cases hp : Time.Layout.parse? layout with
  | none => exact .ofText layout
  | some items => exact suits.fills_items (Time.Layout.mem_directives_of_parse? hp)

theorem Suits.fills_time (suits : Suits P site instant) (format : Time.Format) :
    Fills P format.outline (format.render instant) := by
  cases format with
  | dateTime => exact suits.fills_layout _
  | unix => exact .ofGap suits.unix
  | custom layout => exact suits.fills_layout layout

/-! ## Templates -/

variable {σ : Type}

def Token.outline (level : Level) (prefixText : Text) (token : Token) : Outline :=
  if token.name = "level".toList then .ofText (Builtin.levelText level token.argumentText)
  else if token.name = "line".toList then [none]
  else if token.name = "file".toList then [none]
  else if token.name = "time".toList then (Time.Format.ofArgument token.argumentText).outline
  else if token = Segment.prefixToken then .ofText (Segment.prefixOutput prefixText)
  else .ofText token.source

def Piece.outline (level : Level) (prefixText : Text) : Piece → Outline
  | .plain c => [some c]
  | .token found => found.outline level prefixText

theorem find?_builtin (name : Text) :
    (Registry.builtin : Registry σ).find? name =
      if name = "level".toList then some .level
      else if name = "line".toList then some .line
      else if name = "file".toList then some .file
      else if name = "time".toList then some .time
      else none := by
  unfold Registry.builtin Table.find?
  rw [Table.findIn_cons, Table.findIn_cons, Table.findIn_cons, Table.findIn_cons]
  rfl

theorem Suits.fills_token (suits : Suits P site instant) (level : Level) (prefixText : Text)
    {spelling : Text} {token : Token} (hs : Token.Spells spelling token) {desk : Desk σ}
    (honest : desk.memo.Honest) :
    let found := tokenOutput Registry.builtin ⟨level, site, instant⟩ prefixText spelling token desk
    Fills P (token.outline level prefixText) found.1 ∧ found.2.memo.Honest := by
  unfold tokenOutput Token.outline
  rw [find?_builtin]
  by_cases hlevel : token.name = "level".toList
  · simp only [if_pos hlevel, Placeholder.render, honest.rememberedLevel_eq]
    exact ⟨.ofText _, honest.rememberedLevel level _⟩
  by_cases hline : token.name = "line".toList
  · simp only [if_neg hlevel, if_pos hline]
    exact ⟨.ofGap suits.line, honest⟩
  by_cases hfile : token.name = "file".toList
  · simp only [if_neg hlevel, if_neg hline, if_pos hfile]
    exact ⟨.ofGap (suits.file _), honest⟩
  by_cases htime : token.name = "time".toList
  · simp only [if_neg hlevel, if_neg hline, if_neg hfile, if_pos htime]
    exact ⟨suits.fills_time _, honest⟩
  simp only [if_neg hlevel, if_neg hline, if_neg hfile, if_neg htime,
    ← Segment.eq_prefixToken_iff hs]
  split
  · exact ⟨.ofText _, honest⟩
  · rw [← hs.eq_source]
    exact ⟨.ofText _, honest⟩

/-- A template with the built-in placeholders is rendered into a text that fills its outline. -/
theorem Suits.fills_template (suits : Suits P site instant) (level : Level) (prefixText : Text)
    (template : Text) {desk : Desk σ} (honest : desk.memo.Honest) :
    Fills P ((pieces template).flatMap (Piece.outline level prefixText))
      (Segment.renderAll ⟨level, site, instant⟩ prefixText
        (Segment.compile Registry.builtin template) desk).1 := by
  unfold Segment.compile
  fun_induction pieces template generalizing desk with
  | case1 => exact .nil
  | case2 c rest token behind h _ ih =>
      have hs := Token.spells_of_read? h
      obtain ⟨hfirst, hhonest⟩ := suits.fills_token level prefixText hs honest
      rw [Segment.renderAll_ofPieces_token hs]
      exact hfirst.append (ih hhonest)
  | case3 c rest h ih =>
      rw [Segment.ofPieces, Segment.renderAll_prepend]
      exact .known (ih honest)

end Logbook
