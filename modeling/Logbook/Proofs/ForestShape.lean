import Logbook.Logger.Forest

/-!
# The shape of forests

Which logger was made below which, as a list of parents beside the forest, and what the lists of
children have to do with it. A level goes from a logger to the living children that follow it, and
to theirs; the bounded search of a forest finds exactly these.
-/

namespace Logbook

namespace Forest

variable {α : Type}

theorem isLive_iff (forest : Forest α) (index : Nat) :
    forest.isLive index = true ↔ index ∈ forest.living := List.contains_iff_mem

theorem mem_living_of_find? {forest : Forest α} {handle : String} {index : Nat}
    (h : forest.find? handle = some index) : index ∈ forest.living :=
  List.mem_append_left _ (Table.mem_values_of_find? h)

theorem mem_followers_iff {forest : Forest α} {parent child : Nat} :
    child ∈ forest.followers parent ↔
      child ∈ forest.children parent ∧ child ∈ forest.living ∧ forest.isFollower child = true := by
  simp only [followers, liveChildren, List.mem_filter, isLive_iff, and_assoc]

/-! ## Parents -/

/-- `parents` names the logger that each one was made below. Lists of children hold nobody else's
children and nobody twice, and no living logger is missing in the list of its parent. -/
structure Shaped (forest : Forest α) (parents : List (Option Nat)) : Prop where
  length : parents.length = forest.instances.length
  earlier : ∀ child parent : Nat, parents[child]? = some (some parent) → parent < child
  listed : ∀ parent, ∀ child ∈ forest.children parent, parents[child]? = some (some parent)
  once : ∀ parent, (forest.children parent).Nodup
  kept : ∀ child ∈ forest.living, ∀ parent, parents[child]? = some (some parent) →
    child ∈ forest.children parent
  made : ∀ index ∈ forest.living, index < forest.instances.length

theorem shaped_empty : Shaped ({} : Forest α) [] := by
  constructor <;> simp [children, instance?, living, Table.values]

theorem Shaped.lt_of_mem {forest : Forest α} {parents : List (Option Nat)}
    (shaped : forest.Shaped parents) {parent child : Nat} (h : child ∈ forest.children parent) :
    parent < child := shaped.earlier child parent (shaped.listed parent child h)

/-! ## Reach -/

/-- A level set on `origin` goes to `origin` and from a logger to its followers. -/
inductive Reaches (forest : Forest α) (origin : Nat) : Nat → Prop where
  | self : Reaches forest origin origin
  | follower {parent child : Nat} : Reaches forest origin parent →
      child ∈ forest.followers parent → Reaches forest origin child

theorem Reaches.from_follower {forest : Forest α} {origin next index : Nat}
    (h : forest.Reaches next index) (hn : next ∈ forest.followers origin) :
    forest.Reaches origin index := by
  induction h with
  | self => exact .follower .self hn
  | follower _ hf ih => exact .follower ih hf

theorem reaches_of_mem_visit {forest : Forest α} {depth origin index : Nat}
    (h : index ∈ forest.visit depth origin) : forest.Reaches origin index := by
  induction depth generalizing origin with
  | zero => cases h
  | succ depth ih =>
      rcases List.mem_cons.1 h with rfl | hbelow
      · exact .self
      · obtain ⟨next, hnext, hindex⟩ := List.mem_flatMap.1 hbelow
        exact (ih hindex).from_follower hnext

/-- With as many generations as there are loggers behind the origin, followers are not missed. -/
theorem Shaped.mem_visit_follower {forest : Forest α} {parents : List (Option Nat)}
    (shaped : forest.Shaped parents) {depth origin parent child : Nat}
    (hdepth : forest.instances.length ≤ origin + depth)
    (hparent : parent ∈ forest.visit depth origin) (hchild : child ∈ forest.followers parent) :
    child ∈ forest.visit depth origin := by
  induction depth generalizing origin with
  | zero => cases hparent
  | succ depth ih =>
      rcases List.mem_cons.1 hparent with rfl | hbelow
      · obtain ⟨hlisted, hlive, -⟩ := mem_followers_iff.1 hchild
        have hlt := shaped.lt_of_mem hlisted
        have hmade := shaped.made child hlive
        obtain ⟨fuel, rfl⟩ : ∃ fuel, depth = fuel + 1 := ⟨depth - 1, by omega⟩
        exact List.mem_cons_of_mem _ (List.mem_flatMap.2 ⟨child, hchild, List.mem_cons_self⟩)
      · obtain ⟨next, hnext, hparent⟩ := List.mem_flatMap.1 hbelow
        have hlt := shaped.lt_of_mem (mem_followers_iff.1 hnext).1
        have hrest := ih (by omega) hparent
        exact List.mem_cons_of_mem _ (List.mem_flatMap.2 ⟨next, hnext, hrest⟩)

theorem self_mem_reach {forest : Forest α} {origin : Nat}
    (h : origin < forest.instances.length) : origin ∈ forest.reach origin := by
  unfold reach
  obtain ⟨depth, hdepth⟩ : ∃ depth, forest.instances.length = depth + 1 :=
    ⟨forest.instances.length - 1, by omega⟩
  rw [hdepth]
  exact List.mem_cons_self

/-- The bounded search finds what a level reaches. -/
theorem Shaped.mem_reach_iff {forest : Forest α} {parents : List (Option Nat)}
    (shaped : forest.Shaped parents) {origin index : Nat}
    (horigin : origin < forest.instances.length) :
    index ∈ forest.reach origin ↔ forest.Reaches origin index := by
  constructor
  · exact reaches_of_mem_visit
  · intro h
    induction h with
    | self => exact self_mem_reach horigin
    | follower _ hf ih => exact shaped.mem_visit_follower (by omega) ih hf

theorem Reaches.living {forest : Forest α} {origin index : Nat} (h : forest.Reaches origin index)
    (horigin : origin ∈ forest.living) : index ∈ forest.living := by
  cases h with
  | self => exact horigin
  | follower _ hf => exact (mem_followers_iff.1 hf).2.1

/-- Who is reached and is not the origin follows a parent that is reached. -/
theorem Reaches.inv {forest : Forest α} {origin index : Nat} (h : forest.Reaches origin index)
    (hne : index ≠ origin) :
    ∃ parent, forest.Reaches origin parent ∧ index ∈ forest.followers parent := by
  cases h with
  | self => exact absurd rfl hne
  | follower hparent hf => exact ⟨_, hparent, hf⟩

end Forest

end Logbook
