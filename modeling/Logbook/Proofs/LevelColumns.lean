import Logbook.Proofs.ArgumentFields
import Logbook.Proofs.MemoTransparency
import Logbook.Proofs.TextSearch

/-!
# Levels in columns

What the level placeholder puts out for an argument, out of the memo or not. The name of the level
stands in its frame, and the frame is filled up by what the name lacks to the width of its column,
so that on either side of the column all levels take up the same room.
-/

namespace Logbook

variable {σ : Type}

/-- A list in front of which no field ends with a backslash stays one. -/
theorem Argument.Closed.cons {field : Text} {more : List Text} (h : Closed more)
    (hfield : field.getLast? ≠ some '\\') : Closed (field :: more) := by
  cases more with
  | nil => exact closed_single field
  | cons next rest => exact closed_cons.2 ⟨hfield, h⟩

def Level.nameIn (level : Level) (short : Bool) : Text :=
  if short then level.shortName else level.name

def Level.columnWidth (short : Bool) : Nat := if short then 5 else 7

theorem Level.length_nameIn_le (level : Level) (short : Bool) :
    (level.nameIn short).length ≤ columnWidth short := by
  cases short with
  | false => exact level.length_name_le
  | true => exact level.length_shortName_le

namespace Builtin

/-! ## Names in frames -/

/-- The frame that a field asks for; an empty one asks for the bare name. -/
def frameOf (field : Text) : Text := if field = [] then messageToken else field

/-- A frame with a name in the place of its first message token. A frame without one stays bare. -/
inductive Framed (name : Text) : Text → Text → Prop where
  | token {before : Text} (after : Text) : ¬ messageToken <:+: before →
      Framed name (before ++ messageToken ++ after) (before ++ name ++ after)
  | bare {frame : Text} : ¬ messageToken <:+: frame → Framed name frame frame

theorem framed_replaceFirst (name frame : Text) :
    Framed name frame (Text.replaceFirst messageToken name frame) := by
  cases hcut : Text.cut? messageToken frame with
  | none =>
      have hnone : ¬ Text.Contains messageToken frame := by simp [Text.Contains, hcut]
      rw [Text.replaceFirst_of_not_contains name hnone]
      exact .bare (mt (Text.contains_iff_infix _ _).2 hnone)
  | some parts =>
      have hfree := Text.not_contains_of_cut? (by decide) hcut
      rw [Text.replaceFirst_of_cut? name hcut, Text.append_of_cut? hcut]
      exact .token parts.2 (mt (Text.contains_iff_infix _ _).2 hfree)

theorem Framed.length_eq {name frame framed : Text} (h : Framed name frame framed)
    (hframe : messageToken <:+: frame) :
    framed.length + 2 = frame.length + name.length := by
  cases h with
  | token after _ =>
      have htoken : messageToken.length = 2 := rfl
      simp only [List.length_append, htoken]
      omega
  | bare hbare => exact absurd hframe hbare

theorem infix_frameOf {field : Text} (h : field = [] ∨ messageToken <:+: field) :
    messageToken <:+: frameOf field := by
  unfold frameOf
  split
  · exact List.infix_refl messageToken
  · rename_i hne
    exact h.resolve_left hne

/-! ## Columns -/

/-- A framed name on its side of the column, or as it is when no side is asked for. -/
def onSide (side framed padding : Text) : Text :=
  if side = "left".toList then framed ++ padding
  else if side = "right".toList then padding ++ framed
  else framed

theorem length_onSide {side : Text} (h : side = "left".toList ∨ side = "right".toList)
    (framed padding : Text) :
    (onSide side framed padding).length = framed.length + padding.length := by
  rcases h with rfl | rfl
  · exact List.length_append
  · have hne : "right".toList ≠ "left".toList := by decide
    rw [onSide, if_neg hne, if_pos rfl, List.length_append, Nat.add_comm]

/-- The level stands framed on its side, with what its name lacks to the width. -/
theorem exists_framed_levelColumn (level : Level) (fields : List Text) :
    let short := wantsShort (Argument.fieldAt fields 2)
    let name := level.nameIn short
    ∃ framed, Framed name (frameOf (Argument.fieldAt fields 0)) framed ∧
      levelColumn level fields = onSide (Argument.fieldAt fields 1) framed
        (spaces (Level.columnWidth short - name.length)) :=
  ⟨_, framed_replaceFirst _ _, rfl⟩

/-- On either side the room that a level takes up does not depend on the level. -/
theorem length_levelColumn {fields : List Text}
    (hside : Argument.fieldAt fields 1 = "left".toList ∨ Argument.fieldAt fields 1 = "right".toList)
    (hframe : messageToken <:+: frameOf (Argument.fieldAt fields 0)) (level : Level) :
    (levelColumn level fields).length + 2 = (frameOf (Argument.fieldAt fields 0)).length +
      Level.columnWidth (wantsShort (Argument.fieldAt fields 2)) := by
  obtain ⟨framed, hframed, hcolumn⟩ := exists_framed_levelColumn level fields
  have hlength := hframed.length_eq hframe
  have hfits := level.length_nameIn_le (wantsShort (Argument.fieldAt fields 2))
  rw [hcolumn, length_onSide hside, length_spaces]
  omega

end Builtin

namespace Session

theorem Reached.render_level {own : σ} {session : Session σ} (reached : Reached own session)
    (context : Context) (argument : Text) :
    (Placeholder.level.render context argument session.desk).1 =
      Builtin.levelColumn context.level (Argument.split argument) :=
  reached.honest.rememberedLevel_eq context.level argument

/-- In every session that is reached without storing under the name of the levels, the level
placeholder puts the name of the level in the place of the first message token of the frame, and
what the name lacks to the width of its column on the side that is asked for. With a side, and a
frame that is empty or has a token, the length is that of the frame without the token and of the
column, at all levels; so it is for every frame that does not end with a backslash, written as a
field. -/
theorem level_in_column {own : σ} {session : Session σ} (reached : Reached own session) :
    (∀ (context : Context) (argument : Text),
      let fields := Argument.split argument
      let short := Builtin.wantsShort (Argument.fieldAt fields 2)
      let name := context.level.nameIn short
      let padding := spaces (Level.columnWidth short - name.length)
      ∃ framed, Builtin.Framed name (Builtin.frameOf (Argument.fieldAt fields 0)) framed ∧
        (Placeholder.level.render context argument session.desk).1 =
          if Argument.fieldAt fields 1 = "left".toList then framed ++ padding
          else if Argument.fieldAt fields 1 = "right".toList then padding ++ framed
          else framed) ∧
      (∀ argument : Text,
        let fields := Argument.split argument
        let field := Argument.fieldAt fields 0
        let side := Argument.fieldAt fields 1
        side = "left".toList ∨ side = "right".toList →
          field = [] ∨ Builtin.messageToken <:+: field →
            ∀ context, (Placeholder.level.render context argument session.desk).1.length + 2 =
              (Builtin.frameOf field).length +
                Level.columnWidth (Builtin.wantsShort (Argument.fieldAt fields 2))) ∧
      ∀ (field side : Text) (more : List Text), field.getLast? ≠ some '\\' →
        side = "left".toList ∨ side = "right".toList → Argument.Closed more →
          field = [] ∨ Builtin.messageToken <:+: field →
            let argument := Argument.encode (field :: side :: more)
            Argument.split argument = field :: side :: more ∧
              ∀ context, (Placeholder.level.render context argument session.desk).1.length + 2 =
                (Builtin.frameOf field).length +
                  Level.columnWidth (Builtin.wantsShort (Argument.fieldAt more 0)) := by
  refine ⟨fun context argument => ?_, fun argument hside hfield context => ?_, ?_⟩
  · rw [reached.render_level]
    exact Builtin.exists_framed_levelColumn context.level (Argument.split argument)
  · rw [reached.render_level]
    exact Builtin.length_levelColumn hside (Builtin.infix_frameOf hfield) context.level
  · intro field side more hend hside hclosed hfield argument
    have hsideEnd : side.getLast? ≠ some '\\' := by
      rcases hside with rfl | rfl <;> decide
    have hsplit : Argument.split argument = field :: side :: more :=
      Argument.split_encode (by simp) ((hclosed.cons hsideEnd).cons hend)
    refine ⟨hsplit, fun context => ?_⟩
    rw [reached.render_level, hsplit]
    show _ = (Builtin.frameOf (Argument.fieldAt (field :: side :: more) 0)).length +
      Level.columnWidth (Builtin.wantsShort (Argument.fieldAt (field :: side :: more) 2))
    apply Builtin.length_levelColumn
    · exact hside
    · exact Builtin.infix_frameOf hfield

def warned : Session Unit :=
  (fresh ()).perform (.memo (.level .warning "[%s]\\::right:true".toList))

/-- A frame with a colon, on the right of the column for short names. -/
theorem level_in_column_warned :
    Reached () warned ∧ "[%s]\\::right:true".toList = Argument.encode
        ["[%s]:".toList, "right".toList, "true".toList] ∧
      ∀ context,
        (Placeholder.level.render context "[%s]\\::right:true".toList warned.desk).1.length + 2 =
          5 + 5 := by
  have reached : Reached () warned := .act .fresh trivial
  have hframe : Builtin.messageToken <:+: "[%s]:".toList := by
    rw [← Text.contains_iff_infix]
    decide
  obtain ⟨-, -, hwritten⟩ := level_in_column reached
  obtain ⟨-, hlength⟩ := hwritten "[%s]:".toList "right".toList ["true".toList] (by decide)
    (.inr rfl) (Argument.closed_single _) (.inr hframe)
  exact ⟨reached, by decide, hlength⟩

end Session

end Logbook
