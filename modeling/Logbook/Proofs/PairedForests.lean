import Logbook.Proofs.ForestSettings

/-!
# Paired forests

Two forests with the same loggers, children and handles, whose settings are related logger by
logger; one logger may stand apart. What does not look at settings does the same to both.
-/

namespace Logbook

variable {α β : Type}

/-! ## Outlines -/

def Instance.outline (logger : Instance α) : Instance Unit :=
  { level := logger.level, follows := logger.follows, children := logger.children, settings := () }

namespace Forest

def outline (forest : Forest α) : Forest Unit :=
  { instances := forest.instances.map Instance.outline, handles := forest.handles
    busy := forest.busy }

theorem length_outline (forest : Forest α) :
    forest.outline.instances.length = forest.instances.length := List.length_map _

theorem instance?_outline (forest : Forest α) (index : Nat) :
    forest.outline.instance? index = (forest.instance? index).map Instance.outline :=
  List.getElem?_map

theorem level?_outline (forest : Forest α) (index : Nat) :
    forest.outline.level? index = forest.level? index := by
  rw [level?, instance?_outline, Option.map_map]
  rfl

theorem children_outline (forest : Forest α) (index : Nat) :
    forest.outline.children index = forest.children index := by
  rw [children_eq, children_eq, instance?_outline, Option.map_map]
  rfl

theorem isFollower_outline (forest : Forest α) (index : Nat) :
    forest.outline.isFollower index = forest.isFollower index := by
  rw [isFollower_eq, isFollower_eq, instance?_outline, Option.map_map]
  rfl

theorem followers_outline (forest : Forest α) (index : Nat) :
    forest.outline.followers index = forest.followers index := by
  have hfollower : forest.outline.isFollower = forest.isFollower :=
    funext forest.isFollower_outline
  have hlive : forest.outline.isLive = forest.isLive := rfl
  rw [followers, liveChildren, children_outline, hfollower, hlive]
  rfl

theorem visit_outline (forest : Forest α) (depth index : Nat) :
    forest.outline.visit depth index = forest.visit depth index := by
  induction depth generalizing index with
  | zero => rfl
  | succ depth ih =>
      have hvisit : forest.outline.visit depth = forest.visit depth := funext ih
      rw [visit, visit, followers_outline, hvisit]

theorem reach_outline (forest : Forest α) (index : Nat) :
    forest.outline.reach index = forest.reach index := by
  rw [reach, reach, length_outline, visit_outline]

theorem outline_plant (forest : Forest α) (handle : String) (level : Level) (settings : α) :
    (forest.plant handle level settings).outline = forest.outline.plant handle level () := by
  simp [plant, outline, Instance.outline]

theorem outline_modify {change : Instance α → Instance α} {change' : Instance Unit → Instance Unit}
    (h : ∀ logger, (change logger).outline = change' logger.outline) (forest : Forest α)
    (index : Nat) : (forest.modify index change).outline = forest.outline.modify index change' := by
  have hmap : (forest.instances.modify index change).map Instance.outline =
      (forest.instances.map Instance.outline).modify index change' := by
    apply List.ext_getElem?
    intro other
    simp only [List.getElem?_map, List.getElem?_modify]
    cases forest.instances[other]? with
    | none => rfl
    | some logger => by_cases hi : index = other <;> simp [hi, h]
  simp only [modify, outline, hmap]

theorem outline_branch (forest : Forest α) (handle : String) (parent : Nat) (settings : α) :
    (forest.branch handle parent settings).outline = forest.outline.branch handle parent () := by
  unfold branch
  rw [level?_outline]
  cases forest.level? parent with
  | none => rfl
  | some level =>
      dsimp only
      rw [outline_plant, length_outline]
      congr 1
      exact outline_modify (by intro logger; rfl) forest parent

theorem outline_modifySettings (forest : Forest α) (index : Nat) (change : α → α) :
    (forest.modifySettings index change).outline = forest.outline := by
  have hsame : (forest.modifySettings index change).outline = forest.outline.modify index id :=
    outline_modify (by intro logger; rfl) forest index
  rw [hsame, modify, List.modify_id]

theorem outline_setLevel (forest : Forest α) (index : Nat) (level : Level) :
    (forest.setLevel index level).outline = forest.outline.setLevel index level := by
  have hinstances : (forest.setLevel index level).outline.instances =
      (forest.outline.setLevel index level).instances := by
    apply List.ext_getElem?
    intro other
    change (forest.setLevel index level).outline.instance? other =
      (forest.outline.setLevel index level).instance? other
    rw [instance?_outline, instance?_setLevel, instance?_setLevel, instance?_outline, reach_outline,
      Option.map_map, Option.map_map]
    congr 1
    funext logger
    by_cases h : other ∈ forest.reach index
    · simp only [Function.comp_apply, h, if_true]
      rfl
    · simp only [Function.comp_apply, h, if_false]
  simp only [setLevel, outline] at hinstances ⊢
  rw [hinstances]

/-! ## Pairs -/

/-- Two forests have one outline, and the settings of their loggers are related, apart from those of
one logger. -/
structure Paired (apart : Option Nat) (rel : α → β → Prop) (first : Forest α) (second : Forest β) :
    Prop where
  outline : second.outline = first.outline
  settings : ∀ index, some index ≠ apart → ∀ settings, first.settings? index = some settings →
    ∃ other, second.settings? index = some other ∧ rel settings other

namespace Paired

variable {apart : Option Nat} {rel : α → β → Prop} {first : Forest α} {second : Forest β}

theorem find? (paired : Paired apart rel first second) (handle : String) :
    second.find? handle = first.find? handle :=
  congrArg (fun forest => Forest.find? forest handle) paired.outline

theorem level? (paired : Paired apart rel first second) (index : Nat) :
    second.level? index = first.level? index := by
  rw [← level?_outline, paired.outline, level?_outline]

theorem length (paired : Paired apart rel first second) :
    second.instances.length = first.instances.length := by
  rw [← length_outline, paired.outline, length_outline]

theorem isSome_settings? (paired : Paired apart rel first second) (index : Nat) :
    (second.settings? index).isSome = (first.settings? index).isSome := by
  rw [Bool.eq_iff_iff, settings?_isSome_iff, settings?_isSome_iff, paired.length]

theorem settings?_eq_none (paired : Paired apart rel first second) {index : Nat}
    (h : first.settings? index = none) : second.settings? index = none := by
  have hsome := paired.isSome_settings? index
  rw [h] at hsome
  exact Option.isNone_iff_eq_none.1 (Option.isSome_eq_false_iff.1 hsome)

theorem mono {rel' : α → β → Prop} (paired : Paired apart rel first second)
    (h : ∀ settings other, rel settings other → rel' settings other) :
    Paired apart rel' first second where
  outline := paired.outline
  settings index hindex settings hsettings := by
    obtain ⟨other, hother, hrel⟩ := paired.settings index hindex settings hsettings
    exact ⟨other, hother, h settings other hrel⟩

theorem same (paired : Paired apart rel first second) {first' : Forest α} {second' : Forest β}
    (houtline : second'.outline = first'.outline)
    (hfirst : ∀ index, first'.settings? index = first.settings? index)
    (hsecond : ∀ index, second'.settings? index = second.settings? index) :
    Paired apart rel first' second' where
  outline := houtline
  settings index hindex settings hsettings := by
    rw [hfirst] at hsettings
    rw [hsecond]
    exact paired.settings index hindex settings hsettings

theorem share (paired : Paired apart rel first second) (handle : String) (index : Nat) :
    Paired apart rel (first.share handle index) (second.share handle index) :=
  paired.same (congrArg (fun forest => Forest.share forest handle index) paired.outline)
    (settings?_of_instances rfl) (settings?_of_instances rfl)

theorem drop (paired : Paired apart rel first second) (handle : String) :
    Paired apart rel (first.drop handle) (second.drop handle) :=
  paired.same (congrArg (fun forest => Forest.drop forest handle) paired.outline)
    (settings?_of_instances rfl) (settings?_of_instances rfl)

theorem enter (paired : Paired apart rel first second) (index : Nat) :
    Paired apart rel (first.enter index) (second.enter index) :=
  paired.same (congrArg (fun forest => Forest.enter forest index) paired.outline)
    (settings?_of_instances rfl) (settings?_of_instances rfl)

theorem leave (paired : Paired apart rel first second) :
    Paired apart rel first.leave second.leave :=
  paired.same (congrArg Forest.leave paired.outline)
    (settings?_of_instances rfl) (settings?_of_instances rfl)

theorem setLevel (paired : Paired apart rel first second) (index : Nat) (level : Level) :
    Paired apart rel (first.setLevel index level) (second.setLevel index level) := by
  refine paired.same ?_ (first.settings?_setLevel index level)
    (second.settings?_setLevel index level)
  rw [outline_setLevel, outline_setLevel, paired.outline]

theorem modifySettings (paired : Paired apart rel first second) (index : Nat) {change : α → α}
    {change' : β → β}
    (h : ∀ settings other, rel settings other → rel (change settings) (change' other)) :
    Paired apart rel (first.modifySettings index change) (second.modifySettings index change') where
  outline := by rw [outline_modifySettings, outline_modifySettings, paired.outline]
  settings place hplace settings hsettings := by
    rw [settings?_modifySettings] at hsettings
    obtain ⟨old, hold, rfl⟩ := Option.map_eq_some_iff.1 hsettings
    obtain ⟨other, hother, hrel⟩ := paired.settings place hplace old hold
    rw [settings?_modifySettings, hother]
    refine ⟨_, rfl, ?_⟩
    by_cases hi : index = place
    · simpa only [hi, if_true] using h old other hrel
    · simpa only [hi, if_false] using hrel

theorem grow (paired : Paired apart rel first second) {first' : Forest α} {second' : Forest β}
    {settings : α} {other : β} (hrel : rel settings other)
    (houtline : second'.outline = first'.outline)
    (hfirst : ∀ index, first'.settings? index =
      if index = first.instances.length then some settings else first.settings? index)
    (hsecond : ∀ index, second'.settings? index =
      if index = second.instances.length then some other else second.settings? index) :
    Paired apart rel first' second' where
  outline := houtline
  settings index hindex found hfound := by
    rw [hfirst] at hfound
    rw [hsecond, paired.length]
    by_cases hnew : index = first.instances.length
    · rw [if_pos hnew] at hfound ⊢
      cases hfound
      exact ⟨other, rfl, hrel⟩
    · rw [if_neg hnew] at hfound ⊢
      exact paired.settings index hindex found hfound

theorem plant (paired : Paired apart rel first second) (handle : String) (level : Level)
    {settings : α} {other : β} (hrel : rel settings other) :
    Paired apart rel (first.plant handle level settings) (second.plant handle level other) := by
  refine paired.grow hrel ?_ (first.settings?_plant handle level settings)
    (second.settings?_plant handle level other)
  rw [outline_plant, outline_plant, paired.outline]

theorem branch (paired : Paired apart rel first second) (handle : String) {parent : Nat}
    {old settings : α} {old' other : β} (hold : first.settings? parent = some old)
    (hold' : second.settings? parent = some old') (hrel : rel settings other) :
    Paired apart rel (first.branch handle parent settings)
      (second.branch handle parent other) := by
  refine paired.grow hrel ?_ (settings?_branch hold handle settings)
    (settings?_branch hold' handle other)
  rw [outline_branch, outline_branch, paired.outline]

end Paired

end Forest

end Logbook
