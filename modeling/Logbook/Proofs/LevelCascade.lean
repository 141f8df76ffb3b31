import Logbook.Proofs.FailureReports
import Logbook.Proofs.ForestSettings
import Logbook.Proofs.LevelInheritance
import Mathlib.Data.List.Sort

/-!
# Cascades of levels

What setting a level does to a forest with a history. The level goes to the loggers that are joined
to the one it is set on, by chains of living loggers none of which was ever set to a level itself.
These forget the children that have died and keep the living ones in the order of their making; all
other loggers are left alone.
-/

namespace Logbook

namespace Forest

variable {α : Type}

/-! ## The order of children -/

def Ordered (forest : Forest α) : Prop :=
  ∀ parent, (forest.children parent).Pairwise (· < ·)

theorem ordered_empty : Ordered ({} : Forest α) := fun _ => List.Pairwise.nil

theorem Still.ordered {before after : Forest α} (still : Still before after)
    (ordered : before.Ordered) : after.Ordered :=
  fun parent => still.children parent ▸ ordered parent

/-- Whoever comes up comes after all that are listed. -/
theorem Sprouts.ordered {before after : Forest α} {parent? : Option Nat} {level : Level}
    (sprouts : Sprouts before after parent? level) {parents : List (Option Nat)}
    (shaped : before.Shaped parents) (ordered : before.Ordered) : after.Ordered := by
  intro parent
  rw [sprouts.children]
  split
  · refine List.pairwise_append.2 ⟨ordered parent, List.pairwise_singleton _ _, ?_⟩
    intro child hchild other hother
    rw [List.mem_singleton.1 hother]
    exact shaped.lt_of_listed hchild
  · rw [List.append_nil]
    exact ordered parent

theorem Ordered.setLevel {forest : Forest α} (ordered : forest.Ordered) (origin : Nat)
    (level : Level) : (forest.setLevel origin level).Ordered := by
  intro parent
  rw [children_setLevel]
  split
  · exact (ordered parent).filter _
  · exact ordered parent

end Forest

namespace Chronicle

variable {α : Type}

theorem ordered_move {chronicle : Chronicle α} (shaped : chronicle.forest.Shaped chronicle.parents)
    (ordered : chronicle.forest.Ordered) (step : Forest.Move α) :
    (chronicle.move step).forest.Ordered := by
  obtain ⟨still, -⟩ | ⟨parent?, level, sprouts, -⟩ | ⟨index, level, -, heq⟩ :=
    move_cases shaped step
  · exact still.ordered ordered
  · exact sprouts.ordered shaped ordered
  · rw [heq]
    exact ordered.setLevel index level

theorem ordered_after {chronicle : Chronicle α} (shaped : chronicle.forest.Shaped chronicle.parents)
    (ordered : chronicle.forest.Ordered) (moves : List (Forest.Move α)) :
    (chronicle.after moves).forest.Ordered := by
  induction moves generalizing chronicle with
  | nil => exact ordered
  | cons step rest ih => exact ih (shaped_move shaped step) (ordered_move shaped ordered step)

/-! ## Who is made below whom -/

theorem parent?_of_before {chronicle : Chronicle α} {child parent : Nat}
    (h : chronicle.parent? child = some parent) (moves : List (Forest.Move α)) :
    (chronicle.after moves).parent? child = some parent := by
  induction moves generalizing chronicle with
  | nil => exact h
  | cons step rest ih =>
      apply ih
      have hparents := parent?_eq_some_iff.1 h
      have hlt := (List.getElem?_eq_some_iff.1 hparents).1
      rw [parent?_eq_some_iff, move, List.getElem?_append_left hlt]
      exact hparents

/-- Whatever moves are made, a listed child stays in the list as long as it lives. -/
theorem Inherits.children_kept {chronicle : Chronicle α} (inherits : chronicle.Inherits)
    {parent child : Nat} (h : child ∈ chronicle.forest.children parent)
    {moves : List (Forest.Move α)} (hlive : (chronicle.after moves).forest.isLive child = true) :
    child ∈ (chronicle.after moves).forest.children parent := by
  have hbefore := parent?_eq_some_iff.2 (inherits.shaped.listed parent child h)
  have hafter := parent?_eq_some_iff.1 (parent?_of_before hbefore moves)
  exact (inherits.after moves).shaped.kept child ((Forest.isLive_iff _ _).1 hlive) parent hafter

def liveBelow (chronicle : Chronicle α) (parent : Nat) : List Nat :=
  (List.range chronicle.forest.instances.length).filter fun child =>
    chronicle.parent? child = some parent ∧ chronicle.forest.isLive child = true

/-- The living among the listed are all the living that were made below the logger. -/
theorem liveChildren_eq {chronicle : Chronicle α}
    (shaped : chronicle.forest.Shaped chronicle.parents) (ordered : chronicle.forest.Ordered)
    (parent : Nat) : chronicle.forest.liveChildren parent = chronicle.liveBelow parent := by
  apply List.Pairwise.eq_of_mem_iff ((ordered parent).filter _) (List.pairwise_lt_range.filter _)
  intro child
  simp only [List.mem_filter, List.mem_range, Bool.decide_and, Bool.and_eq_true, decide_eq_true_eq,
    parent?_eq_some_iff, Forest.isLive_iff]
  constructor
  · intro ⟨hlisted, hlive⟩
    exact ⟨shaped.made child hlive, shaped.listed parent child hlisted, hlive⟩
  · intro ⟨_, hparent, hlive⟩
    exact ⟨shaped.kept child hlive parent hparent, hlive⟩

/-! ## Who is joined to whom -/

/-- A logger is joined to `origin` by living loggers none of which was ever set to a level itself;
what was done to `origin` does not matter. -/
inductive Joined (chronicle : Chronicle α) (origin : Nat) : Nat → Prop where
  | self : Joined chronicle origin origin
  | child {parent child : Nat} : Joined chronicle origin parent →
      chronicle.parent? child = some parent → chronicle.forest.isLive child = true →
        chronicle.lastCall? child = none → Joined chronicle origin child

/-- To be a follower is to be made below, to live, and never to have been set to a level. -/
theorem Inherits.mem_followers_iff {chronicle : Chronicle α} (inherits : chronicle.Inherits)
    {parent child : Nat} :
    child ∈ chronicle.forest.followers parent ↔
      chronicle.parent? child = some parent ∧ chronicle.forest.isLive child = true ∧
        chronicle.lastCall? child = none := by
  have shaped := inherits.shaped
  rw [Forest.mem_followers_iff, parent?_eq_some_iff, Forest.isLive_iff]
  constructor
  · intro ⟨hlisted, hlive, hfollows⟩
    have hcall := (inherits.follows child (shaped.made child hlive)).1 hfollows
    exact ⟨shaped.listed parent child hlisted, hlive, hcall⟩
  · intro ⟨hparent, hlive, hcall⟩
    have hfollows := (inherits.follows child (shaped.made child hlive)).2 hcall
    exact ⟨shaped.kept child hlive parent hparent, hlive, hfollows⟩

/-- A level reaches exactly the joined. -/
theorem Inherits.mem_reach_iff {chronicle : Chronicle α} (inherits : chronicle.Inherits)
    {origin : Nat} (horigin : origin ∈ chronicle.forest.living) {index : Nat} :
    index ∈ chronicle.forest.reach origin ↔ chronicle.Joined origin index := by
  rw [inherits.shaped.mem_reach_iff (inherits.shaped.made origin horigin)]
  constructor
  · intro h
    induction h with
    | self => exact .self
    | follower _ hf ih =>
        obtain ⟨hparent, hlive, hcall⟩ := inherits.mem_followers_iff.1 hf
        exact ih.child hparent hlive hcall
  · intro h
    induction h with
    | self => exact .self
    | child _ hparent hlive hcall ih =>
        exact ih.follower (inherits.mem_followers_iff.2 ⟨hparent, hlive, hcall⟩)

theorem Joined.living {chronicle : Chronicle α} {origin index : Nat}
    (h : chronicle.Joined origin index) (horigin : origin ∈ chronicle.forest.living) :
    index ∈ chronicle.forest.living := by
  cases h with
  | self => exact horigin
  | child _ _ hlive _ => exact (Forest.isLive_iff _ _).1 hlive

/-! ## What a level does -/

theorem Inherits.level?_of_joined {chronicle : Chronicle α} (inherits : chronicle.Inherits)
    {origin index : Nat} (horigin : origin ∈ chronicle.forest.living) (level : Level)
    (h : chronicle.Joined origin index) :
    (chronicle.forest.setLevel origin level).level? index = some level := by
  have hmade := inherits.shaped.made index (h.living horigin)
  rw [Forest.level?_setLevel level hmade, if_pos ((inherits.mem_reach_iff horigin).2 h)]

/-- The joined forget the dead among their children, and nobody else. -/
theorem Inherits.children_of_joined {chronicle : Chronicle α} (inherits : chronicle.Inherits)
    (ordered : chronicle.forest.Ordered) {origin index : Nat}
    (horigin : origin ∈ chronicle.forest.living) (level : Level)
    (h : chronicle.Joined origin index) :
    (chronicle.forest.setLevel origin level).children index = chronicle.liveBelow index := by
  rw [Forest.children_setLevel, if_pos ((inherits.mem_reach_iff horigin).2 h)]
  exact liveChildren_eq inherits.shaped ordered index

theorem Inherits.instance?_of_not_joined {chronicle : Chronicle α} (inherits : chronicle.Inherits)
    {origin index : Nat} (horigin : origin ∈ chronicle.forest.living) (level : Level)
    (h : ¬ chronicle.Joined origin index) :
    (chronicle.forest.setLevel origin level).instance? index =
      chronicle.forest.instance? index := by
  rw [← inherits.mem_reach_iff horigin] at h
  simp only [Forest.instance?_setLevel, if_neg h, Option.map_id']

end Chronicle

namespace Session

theorem exec_setLevel {σ : Type} {session : Session σ} {handle : String} {origin : Nat}
    (hfind : session.loggers.find? handle = some origin) (level : Level) :
    exec (.logger (.setLevel handle level)) session =
      (.ok .done, { session with loggers := session.loggers.setLevel origin level }) := by
  have hnone : abandoned session
      { session with loggers := session.loggers.setLevel origin level } = [] :=
    abandoned_eq_nil rfl rfl rfl
      (funext (session.loggers.settings?_setLevel origin level)) fun _ h => h
  simp only [exec, settle, runLogger, withLogger, hfind, done, release, hnone]
  rfl

/-- After any acts, a level that is set on a living logger goes to it and to the living loggers that
are joined to it, and no setting changes. Each of these then lists exactly its living children in
the order of their making, and every other logger is what it was. A handle of the logger does that
and nothing else. Whatever moves come after, no list ever loses a living child. -/
theorem level_cascades {σ : Type} (own : σ) (acts : List (Act σ)) :
    let session := (fresh own).performAll acts
    let history := Chronicle.run ((fresh own).moves acts)
    history.forest = session.loggers ∧
      (∀ (origin : Nat) (level : Level), session.loggers.isLive origin = true →
        let after := session.loggers.setLevel origin level
        (∀ handle, session.loggers.find? handle = some origin →
          exec (.logger (.setLevel handle level)) session =
            (.ok .done, { session with loggers := after })) ∧
        (∀ index, history.Joined origin index →
          after.level? index = some level ∧
            after.settings? index = session.loggers.settings? index ∧
              after.children index = history.liveBelow index) ∧
        ∀ index, ¬ history.Joined origin index →
          after.instance? index = session.loggers.instance? index) ∧
      ∀ (more : List (Forest.Move Settings)) (parent child : Nat),
        child ∈ history.forest.children parent →
          (history.after more).forest.isLive child = true →
            child ∈ (history.after more).forest.children parent := by
  intro session history
  have inherits : history.Inherits := Chronicle.inherits_run _
  have ordered : history.forest.Ordered :=
    Chronicle.ordered_after Forest.shaped_empty Forest.ordered_empty _
  have hforest : history.forest = session.loggers :=
    (Chronicle.forest_after {} _).trans (loggers_performAll (fresh own) acts).symm
  refine ⟨hforest, ?_, fun more parent child h hlive => inherits.children_kept h hlive⟩
  rw [← hforest]
  intro origin level hlive after
  have horigin := (Forest.isLive_iff _ _).1 hlive
  refine ⟨fun handle hfind => ?_, fun index hjoined => ⟨?_, ?_, ?_⟩, fun index hjoined => ?_⟩
  · rw [hforest] at hfind
    rw [exec_setLevel hfind, ← hforest]
  · exact inherits.level?_of_joined horigin level hjoined
  · exact history.forest.settings?_setLevel origin level index
  · exact inherits.children_of_joined ordered horigin level hjoined
  · exact inherits.instance?_of_not_joined horigin level hjoined

/-- A logger with three children, of which one dies and one is set to a level of its own, and a
grandchild below each of the other two. -/
def kinship : List (Act Unit) :=
  [.logger (.make "root" {}), .logger (.branch "kept" "root" none),
    .logger (.branch "lost" "root" none), .logger (.branch "apart" "root" none),
    .logger (.branch "below" "kept" none), .logger (.branch "behind" "apart" none),
    .logger (.drop "lost"), .logger (.setLevel "apart" .error)]

/-- The level of the logger goes to the grandchild below the child that follows, and not to the one
behind the child that does not. -/
theorem level_cascades_kinship :
    let session := (fresh ()).performAll kinship
    let after := (exec (.logger (.setLevel "root" .debug)) session).2.loggers
    let history := Chronicle.run ((fresh ()).moves kinship)
    after.level? 4 = some .debug ∧ after.level? 5 = some .error ∧ after.children 0 = [1, 3] ∧
      3 ∈ (history.after [.drop "kept", .setLevel "root" .trace]).forest.children 0 := by
  obtain ⟨-, hset, hkept⟩ := level_cascades () kinship
  obtain ⟨hexec, hjoined, hothers⟩ := hset 0 .debug (by decide +kernel)
  intro session after history
  have hafter : after = session.loggers.setLevel 0 .debug :=
    congrArg (fun result => result.2.loggers) (hexec "root" (by decide +kernel))
  have hapart : ¬ history.Joined 0 3 := by
    intro h
    cases h with
    | child _ _ _ hcall => exact absurd hcall (by decide +kernel)
  have hbehind : ¬ history.Joined 0 5 := by
    intro h
    cases h with
    | child hjoined hparent _ _ =>
        have hthree : history.parent? 5 = some 3 := by decide +kernel
        rw [hthree] at hparent
        cases hparent
        exact hapart hjoined
  have hchild : history.Joined 0 1 :=
    .child .self (by decide +kernel) (by decide +kernel) (by decide +kernel)
  have hbelow : history.Joined 0 4 :=
    .child hchild (by decide +kernel) (by decide +kernel) (by decide +kernel)
  rw [hafter]
  refine ⟨(hjoined 4 hbelow).1, ?_, ?_, hkept _ 0 3 (by decide +kernel) (by decide +kernel)⟩
  · rw [Forest.level?, hothers 5 hbehind]
    decide +kernel
  · rw [(hjoined 0 .self).2.2]
    decide +kernel

end Session

end Logbook
