import Logbook.Proofs.LevelCascade
import Mathlib.Logic.Relation

/-!
# Calls of a cascade

A level passed on call by call, without a bound on their depth and without a record of who was
there. A call locks its logger, stores the level there, calls the living children one after the
other, and keeps these in the list. In a forest with a history every such cascade ends, no call
waits for a lock that an outer one holds, and nobody is called twice.
-/

namespace Logbook

namespace Forest

variable {α : Type}

/-! ## Descent -/

def ChildOf (forest : Forest α) (child parent : Nat) : Prop := child ∈ forest.children parent

def Descends (forest : Forest α) : Nat → Nat → Prop := Relation.TransGen forest.ChildOf

def listed (forest : Forest α) : List Nat :=
  (List.range forest.instances.length).flatMap forest.children

section

variable {forest : Forest α} {parents : List (Option Nat)} (shaped : forest.Shaped parents)
include shaped

theorem Shaped.unique : Relator.RightUnique forest.ChildOf := by
  intro child parent other hparent hother
  have hlisted := shaped.listed parent child hparent
  rw [shaped.listed other child hother] at hlisted
  exact (Option.some.inj (Option.some.inj hlisted)).symm

theorem Shaped.nodup_listed : forest.listed.Nodup := by
  refine List.nodup_flatMap.2 ⟨fun parent _ => shaped.once parent, ?_⟩
  refine List.nodup_range.imp fun {parent other} hne child hparent hother => ?_
  exact hne (shaped.unique hparent hother)

theorem Shaped.le_of_descent {child ancestor : Nat}
    (h : Relation.ReflTransGen forest.ChildOf child ancestor) : ancestor ≤ child := by
  induction h with
  | refl => exact Nat.le_refl _
  | tail _ hstep ih => exact Nat.le_trans (Nat.le_of_lt (shaped.lt_of_mem hstep)) ih

theorem Shaped.lt_of_descends {child ancestor : Nat} (h : forest.Descends child ancestor) :
    ancestor < child := by
  obtain ⟨next, hnext, hrest⟩ := Relation.TransGen.tail'_iff.1 h
  exact Nat.lt_of_lt_of_le (shaped.lt_of_mem hrest) (shaped.le_of_descent hnext)

theorem Shaped.siblings_apart {parent first second index : Nat}
    (hfirst : first ∈ forest.children parent) (hsecond : second ∈ forest.children parent)
    (hbelow : Relation.ReflTransGen forest.ChildOf index first)
    (hother : Relation.ReflTransGen forest.ChildOf index second) : first = second := by
  -- on the way from one sibling to the other their parent comes first, which is before both
  have hway : ∀ {one other : Nat}, one ∈ forest.children parent → other ∈ forest.children parent →
      Relation.ReflTransGen forest.ChildOf one other → one = other := by
    intro one other hone hother hpath
    rcases Relation.ReflTransGen.cases_head hpath with heq | ⟨next, hnext, hrest⟩
    · exact heq
    · rw [shaped.unique hnext hone] at hrest
      exact absurd (shaped.le_of_descent hrest) (Nat.not_le.2 (shaped.lt_of_mem hother))
  rcases hbelow.total_of_right_unique shaped.unique hother with hpath | hpath
  · exact hway hfirst hsecond hpath
  · exact (hway hsecond hfirst hpath).symm

end

/-! ## Whom a level comes to -/

/-- The loggers that a level comes to below one: its living children, and below each of them that
follows, theirs. `depth` bounds the generations. -/
def called (forest : Forest α) : Nat → Nat → List Nat
  | 0, _ => []
  | depth + 1, index => (forest.liveChildren index).flatMap fun child =>
      child :: if forest.isFollower child then forest.called depth child else []

theorem mem_liveChildren_iff {forest : Forest α} {parent child : Nat} :
    child ∈ forest.liveChildren parent ↔
      child ∈ forest.children parent ∧ forest.isLive child = true := List.mem_filter

/-- A level comes to the living children of those who take it. -/
theorem mem_called_iff {forest : Forest α} {depth origin index : Nat} :
    index ∈ forest.called depth origin ↔
      ∃ parent ∈ forest.visit depth origin, index ∈ forest.liveChildren parent := by
  induction depth generalizing origin with
  | zero => simp [called, visit]
  | succ depth ih =>
      simp only [called, visit, List.mem_flatMap, List.mem_cons]
      constructor
      · rintro ⟨child, hchild, rfl | hbelow⟩
        · exact ⟨origin, .inl rfl, hchild⟩
        · split at hbelow
          · rename_i hfollows
            obtain ⟨parent, hparent, hindex⟩ := ih.1 hbelow
            exact ⟨parent, .inr ⟨child, List.mem_filter.2 ⟨hchild, hfollows⟩, hparent⟩, hindex⟩
          · cases hbelow
      · rintro ⟨parent, rfl | ⟨child, hchild, hparent⟩, hindex⟩
        · exact ⟨index, hindex, .inl rfl⟩
        · obtain ⟨hchild, hfollows⟩ := List.mem_filter.1 hchild
          refine ⟨child, hchild, .inr ?_⟩
          rw [if_pos hfollows]
          exact ih.2 ⟨parent, hparent, hindex⟩

theorem descent_of_reaches {forest : Forest α} {origin index : Nat}
    (h : forest.Reaches origin index) : Relation.ReflTransGen forest.ChildOf index origin := by
  induction h with
  | self => exact .refl
  | follower _ hf ih => exact .head (mem_followers_iff.1 hf).1 ih

theorem descends_of_mem_called {forest : Forest α} {depth origin index : Nat}
    (h : index ∈ forest.called depth origin) : forest.Descends index origin := by
  obtain ⟨parent, hparent, hindex⟩ := mem_called_iff.1 h
  exact .head' (mem_liveChildren_iff.1 hindex).1 (descent_of_reaches (reaches_of_mem_visit hparent))

theorem Shaped.nodup_called {forest : Forest α} {parents : List (Option Nat)}
    (shaped : forest.Shaped parents) (depth index : Nat) : (forest.called depth index).Nodup := by
  induction depth generalizing index with
  | zero => exact List.nodup_nil
  | succ depth ih =>
      refine List.nodup_flatMap.2 ⟨fun child _ => ?_, ?_⟩
      · split
        · refine List.nodup_cons.2 ⟨fun hself => ?_, ih child⟩
          exact Nat.lt_irrefl _ (shaped.lt_of_descends (descends_of_mem_called hself))
        · exact List.nodup_singleton child
      · have hbelow : ∀ {child other : Nat},
            (other ∈ child :: if forest.isFollower child then forest.called depth child else []) →
              Relation.ReflTransGen forest.ChildOf other child := by
          intro child other hother
          rcases List.mem_cons.1 hother with rfl | hother
          · exact .refl
          · split at hother
            · exact (descends_of_mem_called hother).to_reflTransGen
            · cases hother
        have hnodup := (shaped.once index).filter forest.isLive
        refine List.Pairwise.imp_of_mem ?_ hnodup
        intro first second hfirst hsecond hne other hone hother
        exact hne (shaped.siblings_apart (List.mem_filter.1 hfirst).1 (List.mem_filter.1 hsecond).1
          (hbelow hone) (hbelow hother))

/-! ## One call after the other -/

def adopt (forest : Forest α) (level : Level) (index : Nat) : Forest α :=
  forest.modify index fun logger => { logger with level }

def relist (forest : Forest α) (index : Nat) (children : List Nat) : Forest α :=
  forest.modify index fun logger => { logger with children }

/-- A call at a logger, with the children that it keeps so far and those that are still to come. -/
structure Frame where
  logger : Nat
  kept : List Nat := []
  rest : List Nat

/-- A level on its way. The calls that have not ended stand with the innermost first and hold the
locks of their loggers; `entered` are the loggers that were called, in the order of the calls. -/
structure Cascade (α : Type) where
  forest : Forest α
  frames : List Frame
  entered : List Nat

namespace Cascade

/-- The call at a child, which locks it and ends at once if the child does not follow. -/
def enter (cascade : Cascade α) (level : Level) (child : Nat) : Cascade α :=
  let entered := cascade.entered ++ [child]
  if cascade.forest.isFollower child then
    let frame : Frame := { logger := child, rest := cascade.forest.children child }
    { forest := cascade.forest.adopt level child, frames := frame :: cascade.frames, entered }
  else { cascade with entered }

/-- What comes next. Nothing does when all calls have ended, nor while the next child is one whose
lock an unfinished call holds. -/
def step? (level : Level) (cascade : Cascade α) : Option (Cascade α) :=
  match cascade.frames with
  | [] => none
  | ⟨logger, kept, []⟩ :: outer =>
      some { cascade with forest := cascade.forest.relist logger kept, frames := outer }
  | ⟨logger, kept, child :: rest⟩ :: outer =>
      if cascade.forest.isLive child = false then
        some { cascade with frames := ⟨logger, kept, rest⟩ :: outer }
      else if child ∈ cascade.frames.map Frame.logger then none
      else
        some (enter { cascade with frames := ⟨logger, kept ++ [child], rest⟩ :: outer } level child)

def run (level : Level) : Nat → Cascade α → Cascade α
  | 0, cascade => cascade
  | count + 1, cascade =>
      match cascade.step? level with
      | none => cascade
      | some next => run level count next

/-- The call at the logger that the level is set on, which follows nobody from then on. -/
def start (forest : Forest α) (origin : Nat) (level : Level) : Cascade α :=
  { forest := forest.modify origin fun logger => { logger with level, follows := false }
    frames := [{ logger := origin, rest := forest.children origin }]
    entered := [origin] }

def LeadsTo (level : Level) : Cascade α → Cascade α → Prop :=
  Relation.ReflTransGen fun before after => before.step? level = some after

theorem LeadsTo.trans {level : Level} {first second third : Cascade α}
    (h : LeadsTo level first second) (hnext : LeadsTo level second third) :
    LeadsTo level first third := Relation.ReflTransGen.trans h hnext

section

variable {forest : Forest α} (level : Level) {logger child : Nat} (kept rest : List Nat)
  {outer : List Frame} (entered : List Nat)

theorem leadsTo_end : LeadsTo level
    { forest, frames := ⟨logger, kept, []⟩ :: outer, entered }
    { forest := forest.relist logger kept, frames := outer, entered } :=
  Relation.ReflTransGen.single rfl

theorem leadsTo_dead (hdead : forest.isLive child = false) : LeadsTo level
    { forest, frames := ⟨logger, kept, child :: rest⟩ :: outer, entered }
    { forest, frames := ⟨logger, kept, rest⟩ :: outer, entered } :=
  Relation.ReflTransGen.single (if_pos hdead)

/-- A living child is called and kept, unless an unfinished call holds its lock. -/
theorem leadsTo_living (hlive : forest.isLive child = true) (hne : logger ≠ child)
    (hfree : ∀ frame ∈ outer, frame.logger ≠ child) : LeadsTo level
    { forest, frames := ⟨logger, kept, child :: rest⟩ :: outer, entered }
    (enter { forest, frames := ⟨logger, kept ++ [child], rest⟩ :: outer, entered } level
      child) := by
  refine Relation.ReflTransGen.single ?_
  have hunlocked : child ∉ (⟨logger, kept, child :: rest⟩ :: outer : List Frame).map
      Frame.logger := by
    intro hlocked
    rcases List.mem_cons.1 hlocked with heq | hlocked
    · exact hne heq.symm
    · obtain ⟨frame, hframe, heq⟩ := List.mem_map.1 hlocked
      exact hfree frame hframe heq
  simp only [step?, hlive, Bool.true_eq_false, if_false, if_neg hunlocked]

end

theorem run_of_step?_none {level : Level} {cascade : Cascade α}
    (h : cascade.step? level = none) (count : Nat) : run level count cascade = cascade := by
  cases count with
  | zero => rfl
  | succ count => rw [run, h]

theorem LeadsTo.run {level : Level} {before after : Cascade α} (h : LeadsTo level before after)
    (hend : after.step? level = none) :
    ∃ count, ∀ steps ≥ count, before.run level steps = after := by
  induction h using Relation.ReflTransGen.head_induction_on with
  | refl => exact ⟨0, fun steps _ => run_of_step?_none hend steps⟩
  | head hstep _ ih =>
      obtain ⟨count, hcount⟩ := ih
      refine ⟨count + 1, fun steps hsteps => ?_⟩
      obtain ⟨fewer, rfl⟩ : ∃ fewer, steps = fewer + 1 := ⟨steps - 1, by omega⟩
      rw [Cascade.run, hstep]
      exact hcount fewer (by omega)

end Cascade

/-! ## What the calls do to the loggers -/

def spread (forest : Forest α) (level : Level) (reached : List Nat) : Forest α :=
  { forest with instances := forest.instances.mapIdx fun place logger =>
      if place ∈ reached then forest.settle level logger else logger }

theorem instance?_spread (forest : Forest α) (level : Level) (reached : List Nat) (index : Nat) :
    (forest.spread level reached).instance? index = (forest.instance? index).map fun logger =>
      if index ∈ reached then forest.settle level logger else logger :=
  List.getElem?_mapIdx

theorem instance?_modify (forest : Forest α) (index : Nat) (change : Instance α → Instance α)
    (other : Nat) : (forest.modify index change).instance? other =
      (forest.instance? other).map fun logger =>
        if index = other then change logger else logger := by
  unfold modify instance?
  rw [List.getElem?_modify]
  cases forest.instances[other]? <;> split <;> rfl

theorem eq_of_instance? {forest other : Forest α} (hhandles : forest.handles = other.handles)
    (hbusy : forest.busy = other.busy)
    (h : ∀ index, forest.instance? index = other.instance? index) : forest = other := by
  obtain ⟨instances, handles, busy⟩ := forest
  obtain ⟨others, _, _⟩ := other
  cases hhandles
  cases hbusy
  have hinstances : instances = others := List.ext_getElem? h
  rw [hinstances]

theorem settle_settle (forest : Forest α) (level : Level) (logger : Instance α) :
    forest.settle level (forest.settle level logger) = forest.settle level logger := by
  simp [settle, List.filter_filter]

theorem spread_nil (forest : Forest α) (level : Level) : forest.spread level [] = forest := by
  refine eq_of_instance? rfl rfl fun index => ?_
  rw [instance?_spread]
  simp

theorem spread_spread (forest : Forest α) (level : Level) (first second : List Nat) :
    (forest.spread level first).spread level second = forest.spread level (first ++ second) := by
  refine eq_of_instance? rfl rfl fun index => ?_
  simp only [instance?_spread, Option.map_map]
  congr 1
  funext logger
  have hsettle : (forest.spread level first).settle level = forest.settle level := rfl
  by_cases hfirst : index ∈ first <;> by_cases hsecond : index ∈ second <;>
    simp [hfirst, hsecond, hsettle, settle_settle]

/-- A logger that has taken the level and has come to the end of its list has settled. -/
theorem relist_spread_adopt (forest : Forest α) (level : Level) (index : Nat)
    (reached : List Nat) :
    ((forest.adopt level index).spread level reached).relist index (forest.liveChildren index) =
      forest.spread level (index :: reached) := by
  refine eq_of_instance? rfl rfl fun other => ?_
  simp only [relist, adopt, instance?_modify, instance?_spread, Option.map_map]
  cases hother : forest.instance? other with
  | none => rfl
  | some logger =>
      have hsettle : (forest.adopt level index).settle level = forest.settle level := rfl
      by_cases hindex : index = other
      · subst hindex
        have hlist : forest.liveChildren index = logger.children.filter forest.isLive := by
          rw [liveChildren, children, hother]
        by_cases hin : index ∈ reached <;> simp [hin, hlist, settle]
      · by_cases hin : other ∈ reached <;>
          simp [hindex, Ne.symm hindex, hin]
        rfl

/-- What a cascade from `origin` on reads of the forest is what was there when it began. -/
structure Agrees (forest now : Forest α) (origin : Nat) : Prop where
  live : now.isLive = forest.isLive
  below : ∀ index, now.liveChildren index = forest.liveChildren index
  follows : ∀ index > origin, now.isFollower index = forest.isFollower index

theorem Agrees.adopt {forest now : Forest α} {origin : Nat} (agrees : forest.Agrees now origin)
    (level : Level) (index : Nat) : forest.Agrees (now.adopt level index) origin where
  live := agrees.live
  below other := by
    rw [← agrees.below, liveChildren, liveChildren, children_eq, children_eq, Forest.adopt,
      map_instance?_modify (by intro logger; rfl)]
    rfl
  follows other h := by
    rw [← agrees.follows other h, isFollower_eq, isFollower_eq, Forest.adopt,
      map_instance?_modify (by intro logger; rfl)]

theorem Agrees.spread {forest now : Forest α} {origin : Nat} (agrees : forest.Agrees now origin)
    (level : Level) (reached : List Nat) : forest.Agrees (now.spread level reached) origin where
  live := agrees.live
  below other := by
    have hlive : (now.spread level reached).isLive = now.isLive := rfl
    rw [← agrees.below, liveChildren, liveChildren, hlive, children_eq, children_eq,
      instance?_spread]
    cases now.instance? other with
    | none => rfl
    | some logger => by_cases h : other ∈ reached <;> simp [h, settle, List.filter_filter]
  follows other h := by
    rw [← agrees.follows other h, isFollower_eq, isFollower_eq, instance?_spread]
    cases now.instance? other with
    | none => rfl
    | some logger => by_cases h : other ∈ reached <;> simp [h, settle]

namespace Cascade

variable {forest : Forest α} {origin : Nat} {level : Level}

/-- The call at a logger ends with the level at all that follow below it, whatever calls of earlier
loggers wait for it. -/
def Ends (forest : Forest α) (origin : Nat) (level : Level) (depth index : Nat) : Prop :=
  ∀ (now : Forest α) (outer : List Frame) (entered : List Nat), forest.Agrees now origin →
    (∀ frame ∈ outer, frame.logger < index) →
      LeadsTo level
        { forest := now.adopt level index
          frames := { logger := index, rest := now.children index } :: outer
          entered }
        { forest := now.spread level (forest.visit depth index)
          frames := outer
          entered := entered ++ forest.called depth index }

/-- A call goes through its list, if the calls at those in the list end. -/
theorem leadsTo_list {depth index : Nat} (hindex : origin ≤ index) {rest : List Nat}
    (hcalls : ∀ child ∈ rest, child ∈ forest.living →
      index < child ∧ Ends forest origin level depth child)
    (now : Forest α) (kept : List Nat) {outer : List Frame}
    (houter : ∀ frame ∈ outer, frame.logger < index) (entered : List Nat)
    (agrees : forest.Agrees now origin) :
    LeadsTo level
      { forest := now, frames := ⟨index, kept, rest⟩ :: outer, entered }
      { forest := now.spread level
          (((rest.filter forest.isLive).filter forest.isFollower).flatMap (forest.visit depth))
        frames := ⟨index, kept ++ rest.filter forest.isLive, []⟩ :: outer
        entered := entered ++ (rest.filter forest.isLive).flatMap fun child =>
          child :: if forest.isFollower child then forest.called depth child else [] } := by
  induction rest generalizing now kept entered with
  | nil =>
      simp only [List.filter_nil, List.flatMap_nil, List.append_nil, spread_nil]
      exact .refl
  | cons child rest ih =>
      have ih := ih fun other h => hcalls other (List.mem_cons_of_mem _ h)
      cases hlive : forest.isLive child with
      | false =>
          rw [List.filter_cons_of_neg (by simp [hlive])]
          have hdead : now.isLive child = false := by rw [agrees.live, hlive]
          exact (leadsTo_dead level kept rest entered hdead).trans (ih now kept entered agrees)
      | true =>
          obtain ⟨hchild, hcall⟩ :=
            hcalls child List.mem_cons_self ((forest.isLive_iff child).1 hlive)
          -- whoever waits was made before the child
          have houter : ∀ frame ∈ outer, frame.logger < child := fun frame hframe =>
            Nat.lt_trans (houter frame hframe) hchild
          have hstep := leadsTo_living level kept rest entered (agrees.live ▸ hlive)
            (Nat.ne_of_lt hchild) fun frame hframe => Nat.ne_of_lt (houter frame hframe)
          have hfollows := agrees.follows child (Nat.lt_of_le_of_lt hindex hchild)
          rw [List.filter_cons_of_pos hlive, List.flatMap_cons, List.append_cons kept]
          cases hfollower : forest.isFollower child with
          | false =>
              rw [enter, hfollows, hfollower] at hstep
              rw [List.filter_cons_of_neg (by simp [hfollower])]
              have hrest := ih now (kept ++ [child]) (entered ++ [child]) agrees
              rw [List.append_assoc entered] at hrest
              exact hstep.trans hrest
          | true =>
              rw [enter, hfollows, hfollower] at hstep
              rw [List.filter_cons_of_pos hfollower, List.flatMap_cons]
              have hcall := hcall now (⟨index, kept ++ [child], rest⟩ :: outer) (entered ++ [child])
                agrees (List.forall_mem_cons.2 ⟨hchild, houter⟩)
              have hrest := ih _ (kept ++ [child]) (entered ++ [child] ++ forest.called depth child)
                (agrees.spread level (forest.visit depth child))
              rw [List.append_assoc entered] at hcall hrest
              rw [spread_spread, List.append_assoc entered] at hrest
              exact hstep.trans (hcall.trans hrest)

/-- Children come after their parents, so no way down is longer than the list of loggers. -/
theorem ends {parents : List (Option Nat)} (shaped : forest.Shaped parents) (level : Level)
    {depth index : Nat} (hindex : origin ≤ index) (hmade : index < forest.instances.length)
    (hdepth : forest.instances.length ≤ index + depth) :
    Ends forest origin level depth index := by
  induction depth generalizing index with
  | zero => omega
  | succ depth ih =>
      intro now outer entered agrees houter
      have hlist : (now.children index).filter forest.isLive = now.liveChildren index := by
        rw [liveChildren, agrees.live]
      have hcalls : ∀ child ∈ now.children index, child ∈ forest.living →
          index < child ∧ Ends forest origin level depth child := by
        intro child hchild hlive
        have hlisted : child ∈ forest.liveChildren index := by
          rw [← agrees.below, ← hlist]
          exact List.mem_filter.2 ⟨hchild, (forest.isLive_iff child).2 hlive⟩
        have hlt := shaped.lt_of_mem (mem_liveChildren_iff.1 hlisted).1
        exact ⟨hlt, ih (by omega) (shaped.made child hlive) (by omega)⟩
      have hway := (leadsTo_list hindex hcalls (now.adopt level index) [] houter entered
        (agrees.adopt level index)).trans (leadsTo_end level _ _)
      rw [List.nil_append, hlist, relist_spread_adopt, agrees.below] at hway
      exact hway

/-- The forest in which the origin of a level follows nobody any more. -/
def loosened (forest : Forest α) (origin : Nat) : Forest α :=
  forest.modify origin fun logger => { logger with follows := false }

theorem agrees_loosened (forest : Forest α) (origin : Nat) :
    forest.Agrees (loosened forest origin) origin where
  live := rfl
  below index := by
    rw [liveChildren, liveChildren, children_eq, children_eq, loosened,
      map_instance?_modify (by intro logger; rfl)]
    rfl
  follows index h := by
    rw [isFollower_eq, isFollower_eq, loosened, instance?_modify]
    simp [Nat.ne_of_lt h]

theorem start_eq (forest : Forest α) (origin : Nat) (level : Level) :
    start forest origin level =
      { forest := (loosened forest origin).adopt level origin
        frames := [{ logger := origin, rest := (loosened forest origin).children origin }]
        entered := [origin] } := by
  have hchildren : (loosened forest origin).children origin = forest.children origin := by
    rw [children_eq, children_eq, loosened, map_instance?_modify (by intro logger; rfl)]
  have hforest : (loosened forest origin).adopt level origin =
      forest.modify origin fun logger => { logger with level, follows := false } :=
    congrArg (fun instances => { forest with instances })
      (List.modify_modify_eq _ _ origin forest.instances)
  rw [hchildren, hforest, start]

theorem spread_loosened (hmade : origin < forest.instances.length) :
    (loosened forest origin).spread level (forest.reach origin) = forest.setLevel origin level := by
  have hsettle : (loosened forest origin).settle level = forest.settle level := rfl
  refine eq_of_instance? rfl rfl fun index => ?_
  rw [instance?_spread, hsettle, instance?_setLevel, loosened, instance?_modify, Option.map_map]
  congr 1
  funext logger
  by_cases hindex : index = origin
  · subst hindex
    simp [self_mem_reach hmade, settle]
  · by_cases hin : index ∈ forest.reach origin <;> simp [Ne.symm hindex, hindex, hin, settle]

/-- The calls of a level that is set come to an end, and leave the forest with the level set. -/
theorem leadsTo_setLevel {parents : List (Option Nat)} (shaped : forest.Shaped parents)
    (level : Level) (hmade : origin < forest.instances.length) :
    LeadsTo level (start forest origin level)
      { forest := forest.setLevel origin level
        frames := []
        entered := origin :: forest.called forest.instances.length origin } := by
  have hends := ends shaped level (Nat.le_refl origin) hmade
    (Nat.le_add_left forest.instances.length origin) (loosened forest origin) [] [origin]
    (agrees_loosened forest origin) (by simp)
  rw [← start_eq] at hends
  rw [← spread_loosened hmade]
  exact hends

/-- A logger that were a child of its own would wait for its own lock. -/
example :
    let forest := (({} : Forest Unit).plant "app" .info ()).relist 0 [0]
    ((start forest 0 .debug).run .debug 3).frames.map Frame.rest = [[0]] := by decide +kernel

end Cascade

end Forest

namespace Session

/-- After any acts no logger is listed as a child twice, and none descends from itself. The calls of
a level that is set on a living logger therefore come to an end, and leave the loggers as the
command does. Nobody is called twice: the calls go to the logger and to the living children of whom
the level reaches, all of which descend from it. -/
theorem cascades_end {σ : Type} (own : σ) :
    (∀ commands : List (Command σ),
      execAll commands (fresh own) = (fresh own).performAll (actsAll commands (fresh own))) ∧
    ∀ acts : List (Act σ),
      let session := (fresh own).performAll acts
      let forest := session.loggers
      forest.listed.Nodup ∧ (∀ index, ¬ forest.Descends index index) ∧
        ∀ (origin : Nat) (level : Level), forest.isLive origin = true →
          (∀ handle, forest.find? handle = some origin →
            exec (.logger (.setLevel handle level)) session =
              (.ok .done, { session with loggers := forest.setLevel origin level })) ∧
          ∃ (count : Nat) (entered : List Nat),
            (∀ steps ≥ count, (Forest.Cascade.start forest origin level).run level steps =
              { forest := forest.setLevel origin level, frames := [], entered }) ∧
            entered.Nodup ∧
            (∀ index, index ∈ entered ↔ index = origin ∨
              ∃ parent, forest.Reaches origin parent ∧ index ∈ forest.liveChildren parent) ∧
            ∀ index ∈ entered, index = origin ∨
              (forest.isLive index = true ∧ forest.Descends index origin) := by
  refine ⟨fun commands => (performAll_actsAll commands (fresh own)).symm, fun acts => ?_⟩
  intro session forest
  obtain ⟨parents, shaped⟩ : ∃ parents, forest.Shaped parents :=
    shaped_performAll ⟨[], Forest.shaped_empty⟩ acts
  have hnever : ∀ index, ¬ forest.Descends index index := fun index hself =>
    Nat.lt_irrefl _ (shaped.lt_of_descends hself)
  refine ⟨shaped.nodup_listed, hnever, fun origin level hlive => ?_⟩
  refine ⟨fun handle hfind => exec_setLevel hfind level, ?_⟩
  have hmade := shaped.made origin ((Forest.isLive_iff _ _).1 hlive)
  obtain ⟨count, hcount⟩ := (Forest.Cascade.leadsTo_setLevel shaped level hmade).run rfl
  refine ⟨count, _, hcount, ?_, fun index => ?_, fun index hindex => ?_⟩
  · exact List.nodup_cons.2 ⟨fun hself => hnever origin (Forest.descends_of_mem_called hself),
      shaped.nodup_called _ origin⟩
  · rw [List.mem_cons, Forest.mem_called_iff]
    simp only [← shaped.mem_reach_iff hmade, Forest.reach]
  · rcases List.mem_cons.1 hindex with rfl | hindex
    · exact .inl rfl
    · obtain ⟨parent, -, hchild⟩ := Forest.mem_called_iff.1 hindex
      exact .inr ⟨(Forest.mem_liveChildren_iff.1 hchild).2, Forest.descends_of_mem_called hindex⟩

/-- The level of the logger comes to its two living children and no further than to these and what
is below the one that follows. -/
theorem cascades_end_kinship :
    let forest := ((fresh ()).performAll kinship).loggers
    ∃ count, let reached := (Forest.Cascade.start forest 0 .debug).run .debug count
      reached.frames.length = 0 ∧ reached.entered.Nodup ∧ 3 ∈ reached.entered ∧
        2 ∉ reached.entered ∧ reached.forest.level? 4 = some .debug := by
  intro forest
  obtain ⟨-, hacts⟩ := cascades_end ()
  obtain ⟨-, -, hset⟩ := hacts kinship
  obtain ⟨-, count, entered, hrun, honce, hwhom, hbelow⟩ := hset 0 .debug (by decide +kernel)
  have hdone := hrun count (Nat.le_refl count)
  refine ⟨count, ?_⟩
  intro reached
  have hreached : reached = { forest := forest.setLevel 0 .debug, frames := [], entered } := hdone
  have hlevel : (((fresh ()).performAll kinship).loggers.setLevel 0 .debug).level? 4 =
      some .debug := by decide +kernel
  rw [hreached]
  refine ⟨rfl, honce, (hwhom 3).2 (.inr ⟨0, .self, by decide +kernel⟩), fun hlost => ?_, hlevel⟩
  rcases hbelow 2 hlost with heq | ⟨hlive, -⟩
  · exact absurd heq (by decide)
  · exact absurd hlive (by decide +kernel)

end Session

end Logbook
