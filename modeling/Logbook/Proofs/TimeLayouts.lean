import Logbook.Time.Format

/-!
# Layouts are read in full or not at all

A layout is valid when it is made of plain characters and directives. No directive begins with
another one, so a valid layout can be cut into them in one way only, and what follows it does not
change how it is read. One unknown directive, wherever it stands, leaves the whole layout as it is.
-/

namespace Logbook.Time

namespace Layout

/-- No directive begins with another one. -/
theorem directives_prefix_free :
    ∀ entry ∈ directives, ∀ other ∈ directives, entry.1 <+: other.1 → entry = other := by
  decide +kernel

/-- A layout is spelled with plain characters and directives, which stand for items. -/
inductive Spells : Text → List Item → Prop where
  | nil : Spells [] []
  | plain {c : Char} {rest : Text} {items : List Item} (hplain : c ≠ '%')
      (hrest : Spells rest items) : Spells (c :: rest) (.literal c :: items)
  | directive {entry : Text × List Item} {rest : Text} {items : List Item}
      (hentry : entry ∈ directives) (hrest : Spells rest items) :
      Spells ('%' :: (entry.1 ++ rest)) (entry.2 ++ items)

def Valid (layout : Text) : Prop := ∃ items, Spells layout items

theorem Spells.append {first second : Text} {items more : List Item} (h : Spells first items)
    (h' : Spells second more) : Spells (first ++ second) (items ++ more) := by
  induction h with
  | nil => exact h'
  | plain hplain _ ih => exact .plain hplain ih
  | directive hentry _ ih =>
      rw [List.cons_append, List.append_assoc, List.append_assoc]
      exact .directive hentry ih

/-! ## One directive -/

/-- A text that begins with a directive begins with no other one. -/
theorem directive?_append {entry : Text × List Item} (h : entry ∈ directives) (rest : Text) :
    directive? (entry.1 ++ rest) = some (entry.2, rest) := by
  unfold directive?
  cases hfind : directives.find? fun other => other.1.isPrefixOf (entry.1 ++ rest) with
  | none =>
      have hnone := List.find?_eq_none.1 hfind entry h
      exact absurd (List.isPrefixOf_iff_prefix.2 (List.prefix_append entry.1 rest)) hnone
  | some found =>
      have hmem := List.mem_of_find?_eq_some hfind
      have hprefix : found.1 <+: entry.1 ++ rest :=
        List.isPrefixOf_iff_prefix.1 (by simpa using List.find?_some hfind)
      have hsame : found = entry := by
        rcases List.prefix_or_prefix_of_prefix hprefix (List.prefix_append entry.1 rest) with
          hshort | hlong
        · exact directives_prefix_free found hmem entry h hshort
        · exact (directives_prefix_free entry h found hmem hlong).symm
      rw [hsame, Option.map_some, List.drop_left]

theorem exists_of_directive? {text rest : Text} {items : List Item}
    (h : directive? text = some (items, rest)) :
    ∃ entry ∈ directives, text = entry.1 ++ rest ∧ items = entry.2 := by
  unfold directive? at h
  obtain ⟨entry, hfind, heq⟩ := Option.map_eq_some_iff.1 h
  have hprefix : entry.1 <+: text :=
    List.isPrefixOf_iff_prefix.1 (by simpa using List.find?_some hfind)
  obtain ⟨behind, rfl⟩ := hprefix
  rw [List.drop_left] at heq
  cases heq
  exact ⟨entry, List.mem_of_find?_eq_some hfind, rfl, rfl⟩

theorem directive?_eq_none_iff {text : Text} :
    directive? text = none ↔ ∀ entry ∈ directives, ¬ entry.1 <+: text := by
  unfold directive?
  rw [Option.map_eq_none_iff, List.find?_eq_none]
  simp only [List.isPrefixOf_iff_prefix]

/-! ## Whole layouts -/

theorem parse?_plain {c : Char} (h : c ≠ '%') (rest : Text) :
    parse? (c :: rest) = (parse? rest).map (.literal c :: ·) := by
  rw [parse?, if_neg h]

theorem parse?_directive {entry : Text × List Item} (h : entry ∈ directives) (rest : Text) :
    parse? ('%' :: (entry.1 ++ rest)) = (parse? rest).map (entry.2 ++ ·) := by
  rw [parse?, if_pos rfl]
  split
  · rename_i hnone
    rw [directive?_append h] at hnone
    cases hnone
  · rename_i items behind hsome
    rw [directive?_append h] at hsome
    cases hsome
    rfl

theorem Spells.parse?_append {first : Text} {items : List Item} (h : Spells first items)
    (second : Text) : parse? (first ++ second) = (parse? second).map (items ++ ·) := by
  induction h with
  | nil => simp
  | plain hplain _ ih =>
      rw [List.cons_append, parse?_plain hplain, ih, Option.map_map]
      rfl
  | @directive entry rest items hentry _ ih =>
      rw [List.cons_append, List.append_assoc, parse?_directive hentry, ih, Option.map_map]
      refine congrArg (Option.map · (parse? second)) (funext fun more => ?_)
      exact (List.append_assoc entry.2 items more).symm

/-- Reading finds the items that a layout spells, and only those. -/
theorem parse?_eq_some_iff {layout : Text} {items : List Item} :
    parse? layout = some items ↔ Spells layout items := by
  constructor
  · intro h
    fun_induction parse? layout generalizing items with
    | case1 =>
        cases h
        exact .nil
    | case2 rest hd => cases h
    | case3 rest found behind hd _ ih =>
        obtain ⟨more, hmore, rfl⟩ := Option.map_eq_some_iff.1 h
        obtain ⟨entry, hentry, rfl, rfl⟩ := exists_of_directive? hd
        exact .directive hentry (ih hmore)
    | case4 c rest hc ih =>
        obtain ⟨more, hmore, rfl⟩ := Option.map_eq_some_iff.1 h
        exact .plain hc (ih hmore)
  · intro h
    have hall := h.parse?_append []
    rw [List.append_nil, parse?, Option.map_some, List.append_nil] at hall
    exact hall

theorem parse?_eq_none_iff {layout : Text} : parse? layout = none ↔ ¬ Valid layout := by
  rw [Option.eq_none_iff_forall_ne_some]
  simp only [Valid, not_exists, ne_eq, parse?_eq_some_iff]

/-- An unknown directive spoils the layout, whatever stands around it. -/
theorem not_valid_of_unknown {front rest : Text} (h : Valid front)
    (hunknown : ∀ entry ∈ directives, ¬ entry.1 <+: rest) : ¬ Valid (front ++ '%' :: rest) := by
  obtain ⟨items, hitems⟩ := h
  have hnone : parse? ('%' :: rest) = none := by
    rw [parse?, if_pos rfl]
    split
    · rfl
    · rename_i found behind hsome
      rw [directive?_eq_none_iff.2 hunknown] at hsome
      cases hsome
  rw [← parse?_eq_none_iff, hitems.parse?_append, hnone, Option.map_none]

/-- A layout that is not valid has an unknown directive behind a valid front. -/
theorem exists_unknown {layout : Text} (h : ¬ Valid layout) :
    ∃ front rest, layout = front ++ '%' :: rest ∧ Valid front ∧
      ∀ entry ∈ directives, ¬ entry.1 <+: rest := by
  rw [← parse?_eq_none_iff] at h
  fun_induction parse? layout with
  | case1 => cases h
  | case2 rest hd => exact ⟨[], rest, rfl, ⟨[], .nil⟩, directive?_eq_none_iff.1 hd⟩
  | case3 rest found behind hd _ ih =>
      obtain ⟨entry, hentry, rfl, rfl⟩ := exists_of_directive? hd
      obtain ⟨front, last, rfl, ⟨items, hitems⟩, hunknown⟩ := ih (Option.map_eq_none_iff.1 h)
      refine ⟨'%' :: (entry.1 ++ front), last, ?_, ⟨_, .directive hentry hitems⟩, hunknown⟩
      rw [List.cons_append, List.append_assoc]
  | case4 c rest hc ih =>
      obtain ⟨front, last, rfl, ⟨items, hitems⟩, hunknown⟩ := ih (Option.map_eq_none_iff.1 h)
      exact ⟨c :: front, last, rfl, ⟨_, .plain hc hitems⟩, hunknown⟩

end Layout

namespace Format

open Layout (Valid directives)

/-! ## Layouts on instants -/

theorem render_spelled {layout : Text} {items : List Item} (h : Layout.Spells layout items)
    (instant : Instant) : (custom layout).render instant = Layout.render items instant := by
  rw [render, renderLayout, Layout.parse?_eq_some_iff.2 h]

theorem render_invalid {layout : Text} (h : ¬ Valid layout) (instant : Instant) :
    (custom layout).render instant = layout := by
  rw [render, renderLayout, Layout.parse?_eq_none_iff.2 h]

/-- A layout that is not valid is written as it stands, and it is not valid exactly when an unknown
directive stands behind some valid front, whatever comes behind it. The writing of two valid layouts
in a row is that of the first and that of the second, and a valid layout in front of another one is
written as it stands with it. -/
theorem layouts_all_or_nothing (instant : Instant) :
    (∀ layout, ¬ Valid layout → (custom layout).render instant = layout) ∧
      (∀ layout, ¬ Valid layout ↔ ∃ front rest, layout = front ++ '%' :: rest ∧ Valid front ∧
        ∀ entry ∈ directives, ¬ entry.1 <+: rest) ∧
      (∀ first second, Valid first → Valid second →
        (custom (first ++ second)).render instant =
          (custom first).render instant ++ (custom second).render instant) ∧
      ∀ first second, Valid first → ¬ Valid second →
        (custom (first ++ second)).render instant = first ++ second := by
  refine ⟨fun layout h => render_invalid h instant, fun layout => ⟨Layout.exists_unknown, ?_⟩,
    fun first second hfirst hsecond => ?_, fun first second hfirst hsecond => ?_⟩
  · rintro ⟨front, rest, rfl, hfront, hunknown⟩
    exact Layout.not_valid_of_unknown hfront hunknown
  · obtain ⟨items, hitems⟩ := hfirst
    obtain ⟨more, hmore⟩ := hsecond
    rw [render_spelled (hitems.append hmore), Layout.render_append, render_spelled hitems,
      render_spelled hmore]
  · obtain ⟨items, hitems⟩ := hfirst
    apply render_invalid
    rw [← Layout.parse?_eq_none_iff, hitems.parse?_append, Layout.parse?_eq_none_iff.2 hsecond,
      Option.map_none]

theorem layouts_all_or_nothing_at_noon :
    let noon : Instant := { seconds := 43200 }
    (custom ("%H:".toList ++ "%M".toList)).render noon = "12:".toList ++ "00".toList ∧
      (custom ("%H:".toList ++ "%Q".toList)).render noon = "%H:%Q".toList := by
  intro noon
  obtain ⟨-, -, hboth, hfirst⟩ := layouts_all_or_nothing noon
  have hhour : Valid "%H:".toList :=
    ⟨[.number .hour .zeros, .literal ':'], Layout.parse?_eq_some_iff.1 (by decide +kernel)⟩
  have hminute : Valid "%M".toList :=
    ⟨[.number .minute .zeros], Layout.parse?_eq_some_iff.1 (by decide +kernel)⟩
  have hunknown : ¬ Valid "%Q".toList := Layout.parse?_eq_none_iff.1 (by decide +kernel)
  have htwelve : (custom "%H:".toList).render noon = "12:".toList := by decide +kernel
  have hsharp : (custom "%M".toList).render noon = "00".toList := by decide +kernel
  refine ⟨?_, hfirst _ _ hhour hunknown⟩
  rw [hboth _ _ hhour hminute, htwelve, hsharp]

end Format

end Logbook.Time
