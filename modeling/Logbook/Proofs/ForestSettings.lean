import Logbook.Proofs.ForestHistory

/-!
# Settings in forests

The settings of loggers after each operation on a forest. Settings come in with a new logger and
change one logger at a time; levels, handles and records begun leave them.
-/

namespace Logbook.Forest

variable {α : Type}

theorem settings?_isSome_iff {forest : Forest α} {index : Nat} :
    (forest.settings? index).isSome = true ↔ index < forest.instances.length := by
  simp [settings?, instance?]

theorem settings?_of_instances {forest other : Forest α} (h : other.instances = forest.instances)
    (index : Nat) : other.settings? index = forest.settings? index := by
  rw [settings?, settings?, instance?, instance?, h]

theorem settings?_plant (forest : Forest α) (handle : String) (level : Level) (settings : α)
    (index : Nat) :
    (forest.plant handle level settings).settings? index =
      if index = forest.instances.length then some settings else forest.settings? index := by
  rw [Forest.settings?, instance?_plant]
  split <;> rfl

theorem settings?_modify {change : Instance α → Instance α}
    (h : ∀ logger, (change logger).settings = logger.settings) (forest : Forest α)
    (index other : Nat) : (forest.modify index change).settings? other = forest.settings? other :=
  map_instance?_modify h forest index other

theorem settings?_branch {forest : Forest α} {parent : Nat} {old : α}
    (h : forest.settings? parent = some old) (handle : String) (settings : α) (index : Nat) :
    (forest.branch handle parent settings).settings? index =
      if index = forest.instances.length then some settings else forest.settings? index := by
  obtain ⟨logger, hlogger, -⟩ := Option.map_eq_some_iff.1 h
  have hlevel : forest.level? parent = some logger.level := by
    rw [level?, hlogger]
    rfl
  let joined := forest.modify parent fun logger =>
    { logger with children := logger.children ++ [forest.instances.length] }
  have hlength : joined.instances.length = forest.instances.length := by
    simp [joined, modify]
  have hjoined : joined.settings? index = forest.settings? index :=
    settings?_modify (by intro logger; rfl) forest parent index
  have hbranch : forest.branch handle parent settings =
      joined.plant handle logger.level settings := by
    simp only [branch, hlevel]
    rfl
  rw [hbranch, settings?_plant, hlength, hjoined]

theorem settings?_modifySettings (forest : Forest α) (index : Nat) (change : α → α)
    (other : Nat) :
    (forest.modifySettings index change).settings? other =
      (forest.settings? other).map fun settings =>
        if index = other then change settings else settings := by
  simp only [settings?, instance?, modifySettings, modify, List.getElem?_modify]
  by_cases h : index = other <;> simp [h, Function.comp_def]

theorem settings?_setLevel (forest : Forest α) (origin : Nat) (level : Level) (index : Nat) :
    (forest.setLevel origin level).settings? index = forest.settings? index := by
  rw [settings?, instance?_setLevel, settings?, Option.map_map]
  congr 1
  funext logger
  simp only [Function.comp_apply]
  split <;> rfl

end Logbook.Forest
