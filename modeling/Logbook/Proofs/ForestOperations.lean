import Logbook.Proofs.ForestShape

/-!
# Operations on forests

What each operation does to the levels, the lists of children and the living, and that all of them
keep the shape. An operation leaves these alone, has one more logger come up, or sets a level.
-/

namespace Logbook

namespace Forest

variable {α : Type}

/-! ## What operations do to loggers -/

/-- The loggers are the same but for their settings, and nobody else lives. -/
structure Still (before after : Forest α) : Prop where
  length : after.instances.length = before.instances.length
  level? : ∀ index, after.level? index = before.level? index
  isFollower : ∀ index, after.isFollower index = before.isFollower index
  children : ∀ index, after.children index = before.children index
  living : ∀ index ∈ after.living, index ∈ before.living

/-- One more logger stands behind the others, at the level of its parent if it has one, whose
children it joins. Nobody else comes to live. -/
structure Sprouts (before after : Forest α) (parent? : Option Nat) (level : Level) : Prop where
  length : after.instances.length = before.instances.length + 1
  level? : ∀ index < before.instances.length, after.level? index = before.level? index
  level?_new : after.level? before.instances.length = some level
  level?_parent : ∀ parent, parent? = some parent → before.level? parent = some level
  isFollower : ∀ index < before.instances.length, after.isFollower index = before.isFollower index
  isFollower_new : after.isFollower before.instances.length = true
  children : ∀ index, after.children index =
    before.children index ++ if parent? = some index then [before.instances.length] else []
  living : ∀ index ∈ after.living,
    index = before.instances.length ∨ index ∈ before.living

theorem lt_of_level? {forest : Forest α} {index : Nat} {level : Level}
    (h : forest.level? index = some level) : index < forest.instances.length := by
  obtain ⟨logger, hlogger, -⟩ := Option.map_eq_some_iff.1 h
  exact (List.getElem?_eq_some_iff.1 hlogger).1

theorem isFollower_eq (forest : Forest α) (index : Nat) :
    forest.isFollower index = ((forest.instance? index).map Instance.follows).getD false := by
  unfold isFollower
  split <;> simp [*]

theorem children_eq (forest : Forest α) (index : Nat) :
    forest.children index = ((forest.instance? index).map Instance.children).getD [] := by
  unfold children
  split <;> simp [*]

/-- Handles and records begun change nothing but who lives. -/
theorem still_of_instances {before after : Forest α} (h : after.instances = before.instances)
    (hliving : ∀ index ∈ after.living, index ∈ before.living) : Still before after where
  length := by rw [h]
  level? _ := by rw [Forest.level?, instance?, h, Forest.level?, instance?]
  isFollower _ := by rw [isFollower_eq, isFollower_eq, instance?, instance?, h]
  children _ := by rw [children_eq, children_eq, instance?, instance?, h]
  living := hliving

theorem still_refl (forest : Forest α) : Still forest forest :=
  still_of_instances rfl fun _ => id

theorem still_share {forest : Forest α} {handle source : String} {index : Nat}
    (h : forest.find? source = some index) : Still forest (forest.share handle index) := by
  refine still_of_instances rfl fun other hother => ?_
  rcases List.mem_append.1 hother with hhandle | hbusy
  · rcases Table.mem_values_insert hhandle with rfl | hold
    · exact mem_living_of_find? h
    · exact List.mem_append_left _ hold
  · exact List.mem_append_right _ hbusy

theorem still_drop (forest : Forest α) (handle : String) : Still forest (forest.drop handle) := by
  refine still_of_instances rfl fun other hother => ?_
  rcases List.mem_append.1 hother with hhandle | hbusy
  · exact List.mem_append_left _ (Table.mem_values_erase hhandle)
  · exact List.mem_append_right _ hbusy

theorem still_enter {forest : Forest α} {index : Nat} (h : index ∈ forest.living) :
    Still forest (forest.enter index) := by
  refine still_of_instances rfl fun other hother => ?_
  rcases List.mem_append.1 hother with hhandle | hbusy
  · exact List.mem_append_left _ hhandle
  · rcases List.mem_cons.1 hbusy with rfl | hbusy
    · exact h
    · exact List.mem_append_right _ hbusy

theorem still_leave (forest : Forest α) : Still forest forest.leave := by
  refine still_of_instances rfl fun other hother => ?_
  rcases List.mem_append.1 hother with hhandle | hbusy
  · exact List.mem_append_left _ hhandle
  · exact List.mem_append_right _ (List.mem_of_mem_tail hbusy)

/-- What a change of one logger keeps of it, it keeps of all. -/
theorem map_instance?_modify {β : Type} {view : Instance α → β} {change : Instance α → Instance α}
    (h : ∀ logger, view (change logger) = view logger) (forest : Forest α) (index other : Nat) :
    ((forest.modify index change).instance? other).map view =
      (forest.instance? other).map view := by
  unfold modify instance?
  rw [List.getElem?_modify]
  cases forest.instances[other]? with
  | none => rfl
  | some logger =>
      by_cases hi : index = other
      · simp [hi, h]
      · simp [hi]

theorem still_modifySettings (forest : Forest α) (index : Nat) (change : α → α) :
    Still forest (forest.modifySettings index change) where
  length := by simp [modifySettings, modify]
  level? other := map_instance?_modify (by intro logger; rfl) forest index other
  isFollower other := by
    rw [isFollower_eq, isFollower_eq, modifySettings,
      map_instance?_modify (by intro logger; rfl)]
  children other := by
    rw [children_eq, children_eq, modifySettings,
      map_instance?_modify (by intro logger; rfl)]
  living _ := id

theorem instance?_plant (forest : Forest α) (handle : String) (level : Level) (settings : α)
    (index : Nat) :
    (forest.plant handle level settings).instance? index =
      if index = forest.instances.length then some { level, settings }
      else forest.instance? index := by
  unfold plant instance?
  split
  · rename_i h
    rw [h, List.getElem?_concat_length]
  · rename_i h
    rcases Nat.lt_or_ge index forest.instances.length with hlt | hge
    · rw [List.getElem?_append_left hlt]
    · rw [List.getElem?_eq_none hge, List.getElem?_eq_none (by simp; omega)]

theorem living_plant {forest : Forest α} {handle : String} {level : Level} {settings : α}
    {index : Nat} (h : index ∈ (forest.plant handle level settings).living) :
    index = forest.instances.length ∨ index ∈ forest.living := by
  rcases List.mem_append.1 h with hhandle | hbusy
  · exact (Table.mem_values_insert hhandle).imp id (List.mem_append_left _)
  · exact .inr (List.mem_append_right _ hbusy)

theorem sprouts_plant (forest : Forest α) (handle : String) (level : Level) (settings : α) :
    Sprouts forest (forest.plant handle level settings) none level where
  length := by simp [plant]
  level? index h := by
    unfold Forest.level?
    rw [instance?_plant, if_neg (Nat.ne_of_lt h)]
  level?_new := by
    unfold Forest.level?
    rw [instance?_plant, if_pos rfl]
    rfl
  level?_parent _ h := by cases h
  isFollower index h := by
    rw [isFollower_eq, isFollower_eq, instance?_plant, if_neg (Nat.ne_of_lt h)]
  isFollower_new := by
    rw [isFollower_eq, instance?_plant, if_pos rfl]
    rfl
  children index := by
    rw [children_eq, children_eq, instance?_plant]
    split
    · rename_i h
      simp [h, instance?]
    · simp
  living _ := living_plant

/-- A child is planted into a forest in which it has joined the children of its parent. -/
theorem sprouts_branch {forest : Forest α} {parent : Nat} {level : Level}
    (hlevel : forest.level? parent = some level) (handle : String) (settings : α) :
    Sprouts forest (forest.branch handle parent settings) (some parent) level := by
  let joined := forest.modify parent fun logger =>
    { logger with children := logger.children ++ [forest.instances.length] }
  have hbranch : forest.branch handle parent settings = joined.plant handle level settings := by
    unfold branch
    rw [hlevel]
  have hlength : joined.instances.length = forest.instances.length := by
    simp [joined, modify]
  have sprouts := sprouts_plant joined handle level settings
  rw [hbranch]
  constructor
  · rw [sprouts.length, hlength]
  · intro index h
    rw [sprouts.level? index (hlength ▸ h)]
    exact map_instance?_modify (by intro logger; rfl) forest parent index
  · exact hlength ▸ sprouts.level?_new
  · rintro _ ⟨rfl⟩
    exact hlevel
  · intro index h
    rw [sprouts.isFollower index (hlength ▸ h), isFollower_eq, isFollower_eq,
      map_instance?_modify (by intro logger; rfl)]
  · exact hlength ▸ sprouts.isFollower_new
  · intro index
    rw [sprouts.children]
    simp only [reduceCtorEq, if_false, List.append_nil, Option.some.injEq]
    rw [children_eq, children_eq]
    unfold joined modify instance?
    rw [List.getElem?_modify]
    by_cases hi : parent = index
    · subst hi
      obtain ⟨logger, hlogger, -⟩ := Option.map_eq_some_iff.1 hlevel
      rw [instance?] at hlogger
      simp [hlogger]
    · simp [hi]
  · intro index h
    rw [← hlength]
    exact sprouts.living index h

/-! ## Setting a level -/

theorem length_setLevel (forest : Forest α) (origin : Nat) (level : Level) :
    (forest.setLevel origin level).instances.length = forest.instances.length := by
  simp [setLevel]

theorem instance?_setLevel (forest : Forest α) (origin : Nat) (level : Level) (index : Nat) :
    (forest.setLevel origin level).instance? index =
      (forest.instance? index).map fun logger =>
        if index ∈ forest.reach origin then
          { forest.settle level logger with follows := logger.follows && index ≠ origin }
        else logger := by
  unfold setLevel instance?
  rw [List.getElem?_mapIdx]

theorem level?_setLevel {forest : Forest α} {origin : Nat} (level : Level) {index : Nat}
    (hindex : index < forest.instances.length) :
    (forest.setLevel origin level).level? index =
      if index ∈ forest.reach origin then some level else forest.level? index := by
  unfold level?
  rw [instance?_setLevel, instance?, List.getElem?_eq_getElem hindex]
  by_cases h : index ∈ forest.reach origin <;> simp [h, settle]

theorem isFollower_setLevel {forest : Forest α} {origin : Nat} (level : Level) (index : Nat)
    (horigin : origin < forest.instances.length) :
    (forest.setLevel origin level).isFollower index =
      (forest.isFollower index && decide (index ≠ origin)) := by
  rw [isFollower_eq, isFollower_eq, instance?_setLevel]
  cases forest.instance? index with
  | none => simp
  | some logger =>
      by_cases h : index ∈ forest.reach origin
      · simp [h]
      · have hne : index ≠ origin := by
          rintro rfl
          exact h (self_mem_reach horigin)
        simp [h, hne]

theorem children_setLevel (forest : Forest α) (origin : Nat) (level : Level) (index : Nat) :
    (forest.setLevel origin level).children index =
      if index ∈ forest.reach origin then forest.liveChildren index
      else forest.children index := by
  unfold liveChildren
  rw [children_eq, children_eq, instance?_setLevel]
  cases forest.instance? index with
  | none => simp
  | some logger => by_cases h : index ∈ forest.reach origin <;> simp [h, settle]

/-- Setting a level drops no living child from a list and adds nobody. -/
theorem mem_children_setLevel {forest : Forest α} {origin : Nat} {level : Level}
    {index child : Nat} :
    child ∈ (forest.setLevel origin level).children index ↔
      child ∈ forest.children index ∧
        (index ∈ forest.reach origin → child ∈ forest.living) := by
  rw [children_setLevel]
  by_cases h : index ∈ forest.reach origin
  · simp [h, liveChildren, isLive_iff]
  · simp [h]

/-! ## What keeps the shape -/

theorem Still.shaped {before after : Forest α} (still : Still before after)
    {parents : List (Option Nat)} (shaped : before.Shaped parents) : after.Shaped parents where
  length := by rw [still.length, shaped.length]
  earlier := shaped.earlier
  listed parent child h := shaped.listed parent child (still.children parent ▸ h)
  once parent := still.children parent ▸ shaped.once parent
  kept child hlive parent h :=
    still.children parent ▸ shaped.kept child (still.living child hlive) parent h
  made index hlive := still.length ▸ shaped.made index (still.living index hlive)

/-- Only the last of the loggers can have the parent that was added. -/
theorem getElem?_concat_parent {parents : List (Option Nat)} {parent? : Option Nat}
    {child parent : Nat} (h : (parents ++ [parent?])[child]? = some (some parent)) :
    parents[child]? = some (some parent) ∨ child = parents.length ∧ parent? = some parent := by
  by_cases hlt : child < parents.length
  · rw [List.getElem?_append_left hlt] at h
    exact .inl h
  · have hbound := (List.getElem?_eq_some_iff.1 h).1
    rw [List.length_append, List.length_singleton] at hbound
    obtain rfl : child = parents.length := by omega
    rw [List.getElem?_concat_length] at h
    exact .inr ⟨rfl, Option.some.inj h⟩

namespace Shaped

variable {forest : Forest α} {parents : List (Option Nat)} {child parent : Nat}

theorem lt_of_parent (shaped : forest.Shaped parents)
    (h : parents[child]? = some (some parent)) : child < forest.instances.length := by
  rw [← shaped.length]
  exact (List.getElem?_eq_some_iff.1 h).1

theorem lt_of_listed (shaped : forest.Shaped parents) (h : child ∈ forest.children parent) :
    child < forest.instances.length := shaped.lt_of_parent (shaped.listed parent child h)

end Shaped

namespace Sprouts

variable {before after : Forest α} {parent? : Option Nat} {level : Level}
  {parents : List (Option Nat)} {child parent : Nat}

theorem mem_children_iff (sprouts : Sprouts before after parent? level) :
    child ∈ after.children parent ↔
      child ∈ before.children parent ∨ parent? = some parent ∧ child = before.instances.length := by
  rw [sprouts.children, List.mem_append]
  split <;> simp [*]

theorem earlier (sprouts : Sprouts before after parent? level) (shaped : before.Shaped parents)
    (h : (parents ++ [parent?])[child]? = some (some parent)) : parent < child := by
  rcases getElem?_concat_parent h with h | ⟨rfl, hparent⟩
  · exact shaped.earlier child parent h
  · rw [shaped.length]
    exact lt_of_level? (sprouts.level?_parent parent hparent)

theorem listed (sprouts : Sprouts before after parent? level) (shaped : before.Shaped parents)
    (h : child ∈ after.children parent) :
    (parents ++ [parent?])[child]? = some (some parent) := by
  rcases sprouts.mem_children_iff.1 h with h | ⟨rfl, rfl⟩
  · rw [List.getElem?_append_left (shaped.length ▸ shaped.lt_of_listed h)]
    exact shaped.listed parent child h
  · rw [← shaped.length, List.getElem?_concat_length]

theorem once (sprouts : Sprouts before after parent? level) (shaped : before.Shaped parents)
    (parent : Nat) : (after.children parent).Nodup := by
  rw [sprouts.children]
  split
  · refine List.nodup_append.2 ⟨shaped.once parent, by simp, ?_⟩
    intro child hchild other hother
    rw [List.mem_singleton.1 hother]
    exact Nat.ne_of_lt (shaped.lt_of_listed hchild)
  · rw [List.append_nil]
    exact shaped.once parent

theorem kept (sprouts : Sprouts before after parent? level) (shaped : before.Shaped parents)
    (hlive : child ∈ after.living) (h : (parents ++ [parent?])[child]? = some (some parent)) :
    child ∈ after.children parent := by
  rw [sprouts.mem_children_iff]
  rcases getElem?_concat_parent h with h | ⟨rfl, hparent⟩
  · have hne : child ≠ before.instances.length := Nat.ne_of_lt (shaped.lt_of_parent h)
    have hbefore := (sprouts.living child hlive).resolve_left hne
    exact .inl (shaped.kept child hbefore parent h)
  · exact .inr ⟨hparent, shaped.length⟩

theorem made (sprouts : Sprouts before after parent? level) (shaped : before.Shaped parents)
    {index : Nat} (hlive : index ∈ after.living) : index < after.instances.length := by
  rw [sprouts.length, Nat.lt_succ_iff]
  rcases sprouts.living index hlive with rfl | hlive
  · exact Nat.le_refl _
  · exact Nat.le_of_lt (shaped.made index hlive)

theorem shaped (sprouts : Sprouts before after parent? level) (shaped : before.Shaped parents) :
    after.Shaped (parents ++ [parent?]) where
  length := by rw [List.length_append, shaped.length, sprouts.length, List.length_singleton]
  earlier _ _ := sprouts.earlier shaped
  listed _ _ := sprouts.listed shaped
  once := sprouts.once shaped
  kept _ hlive _ := sprouts.kept shaped hlive
  made _ := sprouts.made shaped

end Sprouts

theorem Shaped.setLevel {forest : Forest α} {parents : List (Option Nat)}
    (shaped : forest.Shaped parents) (origin : Nat) (level : Level) :
    (forest.setLevel origin level).Shaped parents where
  length := by rw [length_setLevel, shaped.length]
  earlier := shaped.earlier
  listed parent child h := shaped.listed parent child (mem_children_setLevel.1 h).1
  once parent := by
    rw [children_setLevel]
    split
    · exact (shaped.once parent).filter _
    · exact shaped.once parent
  kept child hlive parent h :=
    mem_children_setLevel.2 ⟨shaped.kept child hlive parent h, fun _ => hlive⟩
  made index hlive := by
    rw [length_setLevel]
    exact shaped.made index hlive

end Forest

end Logbook
