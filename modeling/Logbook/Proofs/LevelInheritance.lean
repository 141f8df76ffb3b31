import Logbook.Proofs.LoggerMoves

/-!
# Inheritance of levels

Where a logger has its level from, after any moves: from the last level that was set on it, else
from its living parent, else from the parent that it had when that died.
-/

namespace Logbook

namespace Chronicle

variable {α : Type}

/-- A level that was set is kept, exactly the other loggers follow, and a living logger that follows
is at the level of its living parent. -/
structure Inherits (chronicle : Chronicle α) : Prop where
  shaped : chronicle.forest.Shaped chronicle.parents
  called : ∀ index level, chronicle.lastCall? index = some level →
    chronicle.forest.level? index = some level
  follows : ∀ index < chronicle.forest.instances.length,
    chronicle.forest.isFollower index = true ↔ chronicle.lastCall? index = none
  levels : ∀ child ∈ chronicle.forest.living, ∀ parent ∈ chronicle.forest.living,
    chronicle.parents[child]? = some (some parent) → chronicle.lastCall? child = none →
      chronicle.forest.level? child = chronicle.forest.level? parent

theorem inherits_empty : Inherits ({} : Chronicle α) where
  shaped := Forest.shaped_empty
  called _ _ h := by cases h
  follows _ h := by cases h
  levels _ h := by cases h

theorem lastCall?_congr {chronicle other : Chronicle α} (h : other.calls = chronicle.calls)
    (index : Nat) : other.lastCall? index = chronicle.lastCall? index := by
  unfold lastCall?
  rw [h]

theorem Inherits.still {chronicle after : Chronicle α} (inherits : chronicle.Inherits)
    (still : chronicle.forest.Still after.forest) (hparents : after.parents = chronicle.parents)
    (hcalls : after.calls = chronicle.calls) : after.Inherits where
  shaped := hparents ▸ still.shaped inherits.shaped
  called index level h := by
    rw [still.level?]
    exact inherits.called index level (lastCall?_congr hcalls index ▸ h)
  follows index h := by
    rw [still.isFollower, lastCall?_congr hcalls]
    exact inherits.follows index (still.length ▸ h)
  levels child hchild parent hparent h hcall := by
    rw [still.level?, still.level?]
    exact inherits.levels child (still.living child hchild) parent (still.living parent hparent)
      (hparents ▸ h) (lastCall?_congr hcalls child ▸ hcall)

theorem Inherits.lastCall?_length {chronicle : Chronicle α} (inherits : chronicle.Inherits) :
    chronicle.lastCall? chronicle.forest.instances.length = none := by
  cases h : chronicle.lastCall? chronicle.forest.instances.length with
  | none => rfl
  | some level => exact absurd (Forest.lt_of_level? (inherits.called _ level h)) (Nat.lt_irrefl _)

theorem Inherits.sprouts {chronicle after : Chronicle α} (inherits : chronicle.Inherits)
    {parent? : Option Nat} {level : Level}
    (sprouts : chronicle.forest.Sprouts after.forest parent? level)
    (hparents : after.parents = chronicle.parents ++ [parent?])
    (hcalls : after.calls = chronicle.calls) : after.Inherits := by
  have shaped := inherits.shaped
  constructor
  · exact hparents ▸ sprouts.shaped shaped
  · intro index level h
    rw [lastCall?_congr hcalls] at h
    have hlevel := inherits.called index level h
    rw [sprouts.level? index (Forest.lt_of_level? hlevel), hlevel]
  · intro index h
    rw [lastCall?_congr hcalls]
    rw [sprouts.length] at h
    rcases Nat.lt_succ_iff_lt_or_eq.1 h with hlt | rfl
    · rw [sprouts.isFollower index hlt]
      exact inherits.follows index hlt
    · simp [sprouts.isFollower_new, inherits.lastCall?_length]
  · intro child hchild parent hparent h hcall
    rw [lastCall?_congr hcalls] at hcall
    rw [hparents] at h
    rcases Forest.getElem?_concat_parent h with h | ⟨rfl, hnew⟩
    · have hlt := shaped.lt_of_parent h
      have hltParent := Nat.lt_trans (shaped.earlier child parent h) hlt
      have hchild := (sprouts.living child hchild).resolve_left (Nat.ne_of_lt hlt)
      have hparent := (sprouts.living parent hparent).resolve_left (Nat.ne_of_lt hltParent)
      rw [sprouts.level? child hlt, sprouts.level? parent hltParent]
      exact inherits.levels child hchild parent hparent h hcall
    · have hlevel := sprouts.level?_parent parent hnew
      rw [shaped.length, sprouts.level?_new, sprouts.level? parent (Forest.lt_of_level? hlevel),
        hlevel]

theorem lastCall?_setLevel (chronicle : Chronicle α) (forest : Forest α) (origin : Nat)
    (level : Level) (index : Nat) :
    lastCall? { chronicle with forest, calls := (origin, level) :: chronicle.calls } index =
      if origin = index then some level else chronicle.lastCall? index := by
  unfold lastCall?
  by_cases h : origin = index <;> simp [h]

/-- A living logger that follows is reached, unless the level is its own, exactly when its parent
is. -/
theorem Inherits.reaches_iff {chronicle : Chronicle α} (inherits : chronicle.Inherits)
    {origin child parent : Nat} (hchild : child ∈ chronicle.forest.living)
    (hparent : chronicle.parents[child]? = some (some parent))
    (hcall : chronicle.lastCall? child = none) (hne : child ≠ origin) :
    chronicle.forest.Reaches origin child ↔ chronicle.forest.Reaches origin parent := by
  constructor
  · intro h
    obtain ⟨other, hother, hfollower⟩ := h.inv hne
    have hlisted := inherits.shaped.listed other child (Forest.mem_followers_iff.1 hfollower).1
    rw [hparent] at hlisted
    cases hlisted
    exact hother
  · intro h
    have hlisted := inherits.shaped.kept child hchild parent hparent
    have hfollows := (inherits.follows child (inherits.shaped.made child hchild)).2 hcall
    exact h.follower (Forest.mem_followers_iff.2 ⟨hlisted, hchild, hfollows⟩)

theorem Inherits.setLevel {chronicle : Chronicle α} (inherits : chronicle.Inherits) {origin : Nat}
    (horigin : origin ∈ chronicle.forest.living) (level : Level) :
    Inherits { chronicle with
      forest := chronicle.forest.setLevel origin level
      calls := (origin, level) :: chronicle.calls } := by
  have shaped := inherits.shaped
  have hmade := shaped.made origin horigin
  constructor
  · exact shaped.setLevel origin level
  · intro index found h
    rw [lastCall?_setLevel] at h
    split at h
    · rename_i heq
      cases h
      subst heq
      rw [Forest.level?_setLevel level hmade, if_pos (Forest.self_mem_reach hmade)]
    · rename_i hne
      have hlevel := inherits.called index found h
      have hindex := Forest.lt_of_level? hlevel
      -- who has a level of its own follows nobody
      have hout : index ∉ chronicle.forest.reach origin := by
        intro hreach
        obtain ⟨parent, -, hf⟩ := ((shaped.mem_reach_iff hmade).1 hreach).inv (Ne.symm hne)
        have hnone := (inherits.follows index hindex).1 (Forest.mem_followers_iff.1 hf).2.2
        rw [h] at hnone
        cases hnone
      rw [Forest.level?_setLevel level hindex, if_neg hout, hlevel]
  · intro index h
    rw [Forest.length_setLevel] at h
    rw [Forest.isFollower_setLevel level index hmade, lastCall?_setLevel]
    by_cases hi : origin = index
    · simp [hi]
    · simp [hi, Ne.symm hi, inherits.follows index h]
  · intro child hchild parent hparent h hcall
    rw [lastCall?_setLevel] at hcall
    split at hcall
    · cases hcall
    rename_i hne
    have hreach := inherits.reaches_iff hchild h hcall (Ne.symm hne)
    rw [← shaped.mem_reach_iff hmade, ← shaped.mem_reach_iff hmade] at hreach
    rw [Forest.level?_setLevel level (shaped.made child hchild),
      Forest.level?_setLevel level (shaped.made parent hparent)]
    simp only [hreach, inherits.levels child hchild parent hparent h hcall]

theorem Inherits.move {chronicle : Chronicle α} (inherits : chronicle.Inherits)
    (step : Forest.Move α) : (chronicle.move step).Inherits := by
  obtain ⟨still, hparents, hcalls⟩ | ⟨parent?, level, sprouts, -, hparents, hcalls⟩ |
    ⟨index, level, hlive, heq⟩ := move_cases inherits.shaped step
  · exact inherits.still still hparents hcalls
  · exact inherits.sprouts sprouts hparents hcalls
  · exact heq ▸ inherits.setLevel hlive level

theorem Inherits.after {chronicle : Chronicle α} (inherits : chronicle.Inherits)
    (moves : List (Forest.Move α)) : (chronicle.after moves).Inherits := by
  induction moves generalizing chronicle with
  | nil => exact inherits
  | cons step rest ih => exact ih (inherits.move step)

theorem inherits_run (moves : List (Forest.Move α)) : (run moves).Inherits :=
  inherits_empty.after moves

/-! ## After the death of a parent -/

theorem lastCall?_of_move {chronicle : Chronicle α} {step : Forest.Move α} {index : Nat}
    (h : (chronicle.move step).lastCall? index = none) : chronicle.lastCall? index = none := by
  simp only [lastCall?, move, Option.map_eq_none_iff, List.find?_append,
    Option.or_eq_none_iff] at h ⊢
  exact h.2

theorem lastCall?_of_after {chronicle : Chronicle α} {moves : List (Forest.Move α)} {index : Nat}
    (h : (chronicle.after moves).lastCall? index = none) : chronicle.lastCall? index = none := by
  induction moves generalizing chronicle with
  | nil => exact h
  | cons step rest ih => exact lastCall?_of_move (ih h)

structure Orphaned (chronicle : Chronicle α) (index parent : Nat) : Prop where
  below : chronicle.parents[index]? = some (some parent)
  dead : parent ∉ chronicle.forest.living

/-- The dead stay dead, and a level comes to a logger only on a call of its own or from a living
parent. -/
theorem Orphaned.move {chronicle : Chronicle α} {index parent : Nat}
    (orphaned : chronicle.Orphaned index parent) (inherits : chronicle.Inherits)
    (step : Forest.Move α) (hcall : (chronicle.move step).lastCall? index = none) :
    (chronicle.move step).Orphaned index parent ∧
      (chronicle.move step).forest.level? index = chronicle.forest.level? index := by
  have shaped := inherits.shaped
  have hindex : index < chronicle.forest.instances.length :=
    shaped.length ▸ (List.getElem?_eq_some_iff.1 orphaned.below).1
  have hparent := Nat.lt_trans (shaped.earlier index parent orphaned.below) hindex
  obtain ⟨still, hparents, -⟩ | ⟨parent?, level, sprouts, -, hparents, -⟩ |
    ⟨origin, level, horigin, heq⟩ := move_cases shaped step
  · refine ⟨⟨hparents ▸ orphaned.below, fun hlive => ?_⟩, still.level? index⟩
    exact orphaned.dead (still.living parent hlive)
  · refine ⟨⟨?_, fun hlive => ?_⟩, sprouts.level? index hindex⟩
    · rw [hparents, List.getElem?_append_left (shaped.length ▸ hindex)]
      exact orphaned.below
    · rcases sprouts.living parent hlive with rfl | hlive
      · exact Nat.lt_irrefl _ hparent
      · exact orphaned.dead hlive
  · rw [heq] at hcall ⊢
    refine ⟨⟨orphaned.below, orphaned.dead⟩, ?_⟩
    have hne : index ≠ origin := by
      rintro rfl
      simp [lastCall?] at hcall
    have hout : index ∉ chronicle.forest.reach origin := by
      intro hreach
      have hmade := shaped.made origin horigin
      obtain ⟨other, hother, hf⟩ := ((shaped.mem_reach_iff hmade).1 hreach).inv hne
      have hlisted := shaped.listed other index (Forest.mem_followers_iff.1 hf).1
      rw [orphaned.below] at hlisted
      cases hlisted
      exact orphaned.dead (hother.living horigin)
    exact (Forest.level?_setLevel level hindex).trans (if_neg hout)

theorem Orphaned.after {chronicle : Chronicle α} {index parent : Nat}
    (orphaned : chronicle.Orphaned index parent) (inherits : chronicle.Inherits)
    (moves : List (Forest.Move α)) (hcall : (chronicle.after moves).lastCall? index = none) :
    (chronicle.after moves).forest.level? index = chronicle.forest.level? index := by
  induction moves generalizing chronicle with
  | nil => rfl
  | cons step rest ih =>
      obtain ⟨horphaned, hlevel⟩ := orphaned.move inherits step (lastCall?_of_after hcall)
      exact (ih horphaned (inherits.move step) hcall).trans hlevel

/-- A move by which a logger dies leaves the levels of all loggers. -/
theorem Inherits.level?_of_death {chronicle : Chronicle α} (inherits : chronicle.Inherits)
    {step : Forest.Move α} {dying : Nat} (hbefore : dying ∈ chronicle.forest.living)
    (hafter : dying ∉ (chronicle.move step).forest.living) {index : Nat}
    (hindex : index < chronicle.forest.instances.length) :
    (chronicle.move step).forest.level? index = chronicle.forest.level? index := by
  obtain ⟨still, -⟩ | ⟨parent?, level, sprouts, -⟩ | ⟨origin, level, -, heq⟩ :=
    move_cases inherits.shaped step
  · exact still.level? index
  · exact sprouts.level? index hindex
  · rw [heq] at hafter
    exact absurd hbefore hafter

theorem parent?_eq_some_iff {chronicle : Chronicle α} {child parent : Nat} :
    chronicle.parent? child = some parent ↔ chronicle.parents[child]? = some (some parent) :=
  Option.join_eq_some_iff

theorem parents_of_parent? {chronicle : Chronicle α} {child parent : Nat}
    (h : chronicle.parent? child = some parent) :
    chronicle.parents[child]? = some (some parent) := parent?_eq_some_iff.1 h

end Chronicle

namespace Session

/-- The loggers of a run are what the moves of its chronicle make of them. After any moves, a
living logger on which no level was set is at the level of its living parent, a logger on which
levels were set is at the last of these, and a logger on which none was set keeps its level when its
parent dies and ever after. -/
theorem levels_inherited {σ : Type} (own : σ) :
    (∀ commands : List (Command σ),
      (execAll commands (fresh own)).loggers = (chronicle own commands).forest) ∧
    ∀ moves : List (Forest.Move Settings),
      let now := Chronicle.run moves
      (∀ child parent, now.parent? child = some parent → now.lastCall? child = none →
        now.forest.isLive child = true → now.forest.isLive parent = true →
          now.forest.level? child = now.forest.level? parent) ∧
      (∀ index level, now.lastCall? index = some level → now.forest.level? index = some level) ∧
      (∀ child parent, now.parent? child = some parent → now.forest.isLive parent = false →
        ∀ more, (now.after more).lastCall? child = none →
          (now.after more).forest.level? child = now.forest.level? child) ∧
      (∀ step parent, now.forest.isLive parent = true →
        (now.move step).forest.isLive parent = false →
          ∀ index < now.forest.instances.length,
            (now.move step).forest.level? index = now.forest.level? index) := by
  refine ⟨fun commands => (forest_chronicle own commands).symm, fun moves => ?_⟩
  have inherits := Chronicle.inherits_run moves
  refine ⟨?_, inherits.called, ?_, ?_⟩
  · intro child parent hparent hcall hchild hlive
    exact inherits.levels child ((Forest.isLive_iff _ _).1 hchild) parent
      ((Forest.isLive_iff _ _).1 hlive) (Chronicle.parents_of_parent? hparent) hcall
  · intro child parent hparent hdead more hcall
    have orphaned : (Chronicle.run moves).Orphaned child parent :=
      ⟨Chronicle.parents_of_parent? hparent, fun hlive => by
        rw [← Forest.isLive_iff, hdead] at hlive
        cases hlive⟩
    exact orphaned.after inherits more hcall
  · intro step parent hlive hdead index hindex
    refine inherits.level?_of_death ((Forest.isLive_iff _ _).1 hlive) ?_ hindex
    rw [← Forest.isLive_iff, hdead]
    exact Bool.false_ne_true

def blankSettings : Settings :=
  { formatter := 0, router := 0, exit := .terminate, fallback := ⟨0, none⟩ }

/-- A parent, a child, the child's own child, and a level that is set on the parent. -/
def cascade : List (Forest.Move Settings) :=
  [.plant "root" .info blankSettings, .branch "child" "root" blankSettings,
    .branch "leaf" "child" blankSettings, .setLevel "root" .debug]

theorem levels_inherited_cascade :
    (Chronicle.run cascade).forest.level? 2 = some .debug ∧
      ((Chronicle.run cascade).move (.drop "child")).forest.level? 2 = some .debug := by
  obtain ⟨hfollows, -, -, hdeath⟩ := (levels_inherited ()).2 cascade
  have hleaf := hfollows 2 1 (by decide) (by decide) (by decide) (by decide)
  have hchild := hfollows 1 0 (by decide) (by decide) (by decide) (by decide)
  have hdrop := hdeath (.drop "child") 1 (by decide) (by decide) 2 (by decide)
  refine ⟨?_, ?_⟩
  · rw [hleaf, hchild]
    decide
  · rw [hdrop, hleaf, hchild]
    decide

end Session

end Logbook
