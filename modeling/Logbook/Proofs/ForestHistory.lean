import Logbook.Proofs.ForestOperations

/-!
# Histories of forests

A forest changes by moves, each through a handle that is looked up at that moment. A chronicle is a
forest with what its moves were about: below which logger each one was made, and which levels were
set on whom. What a move can do to a chronicle is said once, in `Chronicle.move_cases`.
-/

namespace Logbook

namespace Forest

variable {α : Type}

inductive Move (α : Type) where
  | plant (handle : String) (level : Level) (settings : α)
  | branch (handle parent : String) (settings : α)
  | share (handle source : String)
  | drop (handle : String)
  | setLevel (handle : String) (level : Level)
  | modifySettings (handle : String) (change : α → α)
  /-- A record of the logger is begun. -/
  | enter (handle : String)
  /-- The innermost record is made. -/
  | leave

def through (forest : Forest α) (handle : String) (act : Nat → Forest α) : Forest α :=
  match forest.find? handle with
  | none => forest
  | some index => act index

def move (forest : Forest α) : Move α → Forest α
  | .plant handle level settings => forest.plant handle level settings
  | .branch handle parent settings =>
      forest.through parent fun index => forest.branch handle index settings
  | .share handle source => forest.through source fun index => forest.share handle index
  | .drop handle => forest.drop handle
  | .setLevel handle level => forest.through handle fun index => forest.setLevel index level
  | .modifySettings handle change =>
      forest.through handle fun index => forest.modifySettings index change
  | .enter handle => forest.through handle forest.enter
  | .leave => forest.leave

theorem still_through {forest : Forest α} {handle : String} {act : Nat → Forest α}
    (h : ∀ index, forest.find? handle = some index → Still forest (act index)) :
    Still forest (forest.through handle act) := by
  unfold through
  split
  · exact still_refl forest
  · rename_i index hfind
    exact h index hfind

end Forest

/-- A forest with the parents of its loggers, in the order of the loggers, and the levels that were
set, the last one first. -/
structure Chronicle (α : Type) where
  forest : Forest α := {}
  parents : List (Option Nat) := []
  calls : List (Nat × Level) := []

namespace Chronicle

variable {α : Type}

def parent? (chronicle : Chronicle α) (index : Nat) : Option Nat :=
  (chronicle.parents[index]?).join

/-- The level that was last set on a logger itself. -/
def lastCall? (chronicle : Chronicle α) (index : Nat) : Option Level :=
  (chronicle.calls.find? fun call => call.1 = index).map Prod.snd

def newParents (forest : Forest α) : Forest.Move α → List (Option Nat)
  | .plant _ _ _ => [none]
  | .branch _ parent _ => ((forest.find? parent).map some).toList
  | _ => []

def newCalls (forest : Forest α) : Forest.Move α → List (Nat × Level)
  | .setLevel handle level => ((forest.find? handle).map (·, level)).toList
  | _ => []

def move (chronicle : Chronicle α) (step : Forest.Move α) : Chronicle α where
  forest := chronicle.forest.move step
  parents := chronicle.parents ++ newParents chronicle.forest step
  calls := newCalls chronicle.forest step ++ chronicle.calls

def after (chronicle : Chronicle α) (moves : List (Forest.Move α)) : Chronicle α :=
  moves.foldl move chronicle

def run (moves : List (Forest.Move α)) : Chronicle α := after {} moves

theorem forest_after (chronicle : Chronicle α) (moves : List (Forest.Move α)) :
    (chronicle.after moves).forest = moves.foldl Forest.move chronicle.forest := by
  induction moves generalizing chronicle with
  | nil => rfl
  | cons step rest ih => exact ih (chronicle.move step)

/-- A move leaves all levels, has one more logger come up, or sets the level of a living logger. -/
theorem move_cases {chronicle : Chronicle α} (shaped : chronicle.forest.Shaped chronicle.parents)
    (step : Forest.Move α) :
    (chronicle.forest.Still (chronicle.move step).forest ∧
        (chronicle.move step).parents = chronicle.parents ∧
        (chronicle.move step).calls = chronicle.calls) ∨
      (∃ parent? level, chronicle.forest.Sprouts (chronicle.move step).forest parent? level ∧
        (∀ parent, parent? = some parent → parent ∈ chronicle.forest.living) ∧
        (chronicle.move step).parents = chronicle.parents ++ [parent?] ∧
        (chronicle.move step).calls = chronicle.calls) ∨
      (∃ index level, index ∈ chronicle.forest.living ∧
        chronicle.move step =
          { chronicle with
            forest := chronicle.forest.setLevel index level
            calls := (index, level) :: chronicle.calls }) := by
  obtain ⟨forest, parents, calls⟩ := chronicle
  cases step with
  | plant handle level settings =>
      refine .inr (.inl ⟨none, level, forest.sprouts_plant handle level settings, ?_, rfl, rfl⟩)
      intro parent h
      cases h
  | branch handle parent settings =>
      cases hfind : forest.find? parent with
      | none =>
          refine .inl ⟨Forest.still_through ?_, by simp [move, newParents, hfind], rfl⟩
          simp [hfind]
      | some index =>
          have hlive := Forest.mem_living_of_find? hfind
          obtain ⟨level, hlevel⟩ : ∃ level, forest.level? index = some level := by
            simp [Forest.level?, Forest.instance?, shaped.made index hlive]
          refine .inr (.inl ⟨some index, level, ?_, ?_, ?_, rfl⟩)
          · simpa [move, Forest.move, Forest.through, hfind] using
              Forest.sprouts_branch hlevel handle settings
          · rintro _ ⟨rfl⟩
            exact hlive
          · simp [move, newParents, hfind]
  | share handle source =>
      refine .inl ⟨Forest.still_through fun index hfind => ?_, List.append_nil _, rfl⟩
      exact Forest.still_share hfind
  | drop handle => exact .inl ⟨forest.still_drop handle, List.append_nil _, rfl⟩
  | setLevel handle level =>
      cases hfind : forest.find? handle with
      | none =>
          refine .inl ⟨Forest.still_through ?_, List.append_nil _, by simp [move, newCalls, hfind]⟩
          simp [hfind]
      | some index =>
          refine .inr (.inr ⟨index, level, Forest.mem_living_of_find? hfind, ?_⟩)
          simp [move, Forest.move, Forest.through, newParents, newCalls, hfind]
  | modifySettings handle change =>
      refine .inl ⟨Forest.still_through fun index _ => ?_, List.append_nil _, rfl⟩
      exact forest.still_modifySettings index change
  | enter handle =>
      refine .inl ⟨Forest.still_through fun index hfind => ?_, List.append_nil _, rfl⟩
      exact Forest.still_enter (Forest.mem_living_of_find? hfind)
  | leave => exact .inl ⟨forest.still_leave, List.append_nil _, rfl⟩

theorem shaped_move {chronicle : Chronicle α} (shaped : chronicle.forest.Shaped chronicle.parents)
    (step : Forest.Move α) :
    (chronicle.move step).forest.Shaped (chronicle.move step).parents := by
  obtain ⟨still, hparents, -⟩ | ⟨parent?, level, sprouts, -, hparents, -⟩ |
    ⟨index, level, -, heq⟩ := move_cases shaped step
  · rw [hparents]
    exact still.shaped shaped
  · rw [hparents]
    exact sprouts.shaped shaped
  · rw [heq]
    exact shaped.setLevel index level

end Chronicle

end Logbook
