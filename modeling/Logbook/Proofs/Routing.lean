import Logbook.Proofs.Frames
import Mathlib.Logic.Function.Basic

/-!
# Routing

A router holds for each level the list of endpoints that was set last for it. A write asks every
endpoint of the list of its level, in order and whatever the others answer, and comes to the first
error or to the count of the last endpoint. A level with an empty list asks nobody and is refused.
-/

namespace Logbook

variable {σ α β : Type}

namespace Router

/-! ## The lists of a router -/

/-- The routers that come about, each with the list that was set last for every level. A level for
which nothing was ever set has the empty list. -/
inductive Made : Router → (Level → List Endpoint) → Prop where
  | empty : Made empty fun _ => []
  | toAll (endpoint : Endpoint) : Made (toAll endpoint) fun _ => [endpoint]
  | set {router : Router} {lists : Level → List Endpoint} (level : Level) (list : List Endpoint) :
      Made router lists → Made (router.set level list) (Function.update lists level list)

theorem proper_toAll (endpoint : Endpoint) : (toAll endpoint).Proper := by
  have hfold : ∀ (levels : List Level) (router : Router), router.Proper →
      (levels.foldl (fun router level => router.set level [endpoint]) router).Proper := by
    intro levels
    induction levels with
    | nil => exact fun router h => h
    | cons level rest ih => exact fun router h => ih _ (h.set level [endpoint])
  exact hfold Level.all empty proper_empty

theorem endpoints_toAll (endpoint : Endpoint) (level : Level) :
    (toAll endpoint).endpoints level = [endpoint] := by
  cases level <;> rfl

theorem find?_set (router : Router) (level other : Level) (list : List Endpoint) :
    (router.set level list).routes.find? other =
      if level = other then (if list = [] then none else some list)
      else router.routes.find? other := by
  unfold set
  by_cases h : list = [] <;> simp [h]

theorem find?_set_comm (router : Router) {level other : Level} (h : level ≠ other)
    (list more : List Endpoint) (found : Level) :
    ((router.set level list).set other more).routes.find? found =
      ((router.set other more).set level list).routes.find? found := by
  simp only [find?_set]
  by_cases hl : level = found
  · subst hl
    simp [Ne.symm h]
  · simp [hl]

namespace Made

variable {router : Router} {lists : Level → List Endpoint}

theorem proper (made : router.Made lists) : router.Proper := by
  induction made with
  | empty => exact proper_empty
  | toAll endpoint => exact proper_toAll endpoint
  | set level list _ ih => exact ih.set level list

theorem endpoints (made : router.Made lists) (level : Level) :
    router.endpoints level = lists level := by
  induction made with
  | empty => rfl
  | toAll endpoint => exact endpoints_toAll endpoint level
  | set changed list _ ih =>
      rw [endpoints_set, ih, Function.update_apply]
      simp only [eq_comm]

theorem find?_eq (made : router.Made lists) (level : Level) :
    router.routes.find? level = if lists level = [] then none else some (lists level) := by
  have hproper := made.proper level
  have hlists := made.endpoints level
  unfold Router.endpoints at hlists
  cases hfind : router.routes.find? level with
  | none =>
      rw [hfind] at hlists
      simp [← hlists]
  | some list =>
      rw [hfind] at hlists hproper
      have hne : list ≠ [] := fun h => hproper (by rw [h])
      simp [← hlists, hne]

end Made

/-! ## Asking endpoints -/

/-- Endpoints are asked one after the other, each in the state that the one before it left. The
transcript holds every endpoint that was asked, with its answer. -/
inductive Asks (act : Endpoint → α → Except LogError β × α) :
    List (Endpoint × Except LogError β) → α → α → Prop where
  | done (state : α) : Asks act [] state state
  | next {endpoint : Endpoint} {answer : Except LogError β}
      {rest : List (Endpoint × Except LogError β)} {state between after : α} :
      act endpoint state = (answer, between) → Asks act rest between after →
      Asks act ((endpoint, answer) :: rest) state after

theorem exists_asks (act : Endpoint → α → Except LogError β × α) (endpoints : List Endpoint)
    (state : α) :
    ∃ transcript, Asks act transcript state (each act endpoints state).2 ∧
      transcript.map Prod.fst = endpoints ∧
      transcript.map Prod.snd = (each act endpoints state).1 := by
  induction endpoints generalizing state with
  | nil => exact ⟨[], .done state, rfl, rfl⟩
  | cons endpoint rest ih =>
      obtain ⟨transcript, hasks, hendpoints, hanswers⟩ := ih (act endpoint state).2
      refine ⟨(endpoint, (act endpoint state).1) :: transcript, .next rfl hasks, ?_, ?_⟩
      · rw [List.map_cons, hendpoints]
      · rw [List.map_cons, hanswers]
        rfl

theorem firstError?_eq_none_iff {answers : List (Except LogError β)} :
    firstError? answers = none ↔ ∀ answer ∈ answers, ∃ value, answer = .ok value := by
  induction answers with
  | nil => simp [firstError?]
  | cons answer rest ih => cases answer <;> simp [firstError?, ih]

theorem exists_of_firstError? {answers : List (Except LogError β)} {error : LogError}
    (h : firstError? answers = some error) :
    ∃ earlier later, answers = earlier ++ .error error :: later ∧
      ∀ answer ∈ earlier, ∃ value, answer = .ok value := by
  induction answers with
  | nil => cases h
  | cons answer rest ih =>
      cases answer with
      | error first =>
          cases h
          exact ⟨[], rest, rfl, List.forall_mem_nil _⟩
      | ok value =>
          obtain ⟨earlier, later, rfl, hearlier⟩ := ih h
          exact ⟨.ok value :: earlier, later, rfl, List.forall_mem_cons.2 ⟨⟨value, rfl⟩, hearlier⟩⟩

/-- What the answers to a write come to: the error of the first endpoint that failed, or the count
of the last endpoint when none failed. -/
inductive Settles : List (Except LogError Nat) → Except LogError Nat → Prop where
  | failed {earlier later : List (Except LogError Nat)} {error : LogError} :
      (∀ answer ∈ earlier, ∃ count, answer = .ok count) →
      Settles (earlier ++ .error error :: later) (.error error)
  | counted {earlier : List (Except LogError Nat)} {count : Nat} :
      (∀ answer ∈ earlier, ∃ count, answer = .ok count) →
      Settles (earlier ++ [.ok count]) (.ok count)

theorem settles_settleCounts {answers : List (Except LogError Nat)} (h : answers ≠ []) :
    Settles answers (settleCounts answers) := by
  unfold settleCounts
  cases hfirst : firstError? answers with
  | some error =>
      obtain ⟨earlier, later, rfl, hearlier⟩ := exists_of_firstError? hfirst
      exact .failed hearlier
  | none =>
      have hall := firstError?_eq_none_iff.1 hfirst
      obtain ⟨earlier, last, rfl⟩ := (List.eq_nil_or_concat answers).resolve_left h
      rw [List.concat_eq_append] at hall ⊢
      obtain ⟨count, rfl⟩ := hall last (by simp)
      simp only [List.getLast?_concat]
      exact .counted fun answer hm => hall answer (List.mem_append_left _ hm)

/-- A write asks the list of its level, and is refused without asking when the list is empty. -/
theorem Made.exists_transcript {router : Router} {lists : Level → List Endpoint}
    (made : router.Made lists) (level : Level) (send : Endpoint → α → Except LogError Nat × α)
    (state : α) :
    ∃ transcript, Asks send transcript state (router.write level send state).2 ∧
      transcript.map Prod.fst = lists level ∧
      (lists level = [] → (router.write level send state).1 = .error (.unrouted level)) ∧
      (lists level ≠ [] →
        Settles (transcript.map Prod.snd) (router.write level send state).1) := by
  unfold write
  rw [made.find?_eq]
  by_cases h : lists level = []
  · rw [if_pos h, h]
    exact ⟨[], .done state, rfl, fun _ => rfl, fun hne => absurd rfl hne⟩
  · rw [if_neg h]
    obtain ⟨transcript, hasks, hendpoints, hanswers⟩ := exists_asks send (lists level) state
    refine ⟨transcript, hasks, hendpoints, fun hempty => absurd hempty h, fun _ => ?_⟩
    rw [hanswers]
    refine settles_settleCounts fun hnil => h ?_
    rw [hnil, List.map_eq_nil_iff] at hanswers
    rw [← hendpoints, hanswers, List.map_nil]

end Router

namespace Session

/-! ## The routers of a run -/

def RoutersMade (session : Session σ) : Prop :=
  ∀ router ∈ session.routers, ∃ lists, router.Made lists

namespace RoutersMade

variable {session : Session σ}

theorem router (h : session.RoutersMade) (index : Nat) :
    ∃ lists, (session.router index).Made lists := by
  unfold Session.router
  cases hat : session.routers[index]? with
  | none => exact ⟨_, .empty⟩
  | some router => exact h router (List.mem_of_getElem? hat)

theorem append (h : session.RoutersMade) {after : Session σ} {more : List Router}
    (hafter : after.routers = session.routers ++ more)
    (hmore : ∀ router ∈ more, ∃ lists, router.Made lists) : after.RoutersMade := by
  intro router hm
  rw [hafter] at hm
  exact (List.mem_append.1 hm).elim (h router) (hmore router)

theorem runRouter (h : session.RoutersMade) (command : RouterCommand) :
    (session.runRouter command).2.RoutersMade := by
  have hsink := @withSink_cases _ RoutersMade session h
  have hwith := @withRouter_cases _ RoutersMade session h
  cases command with
  | make handle source =>
      have htoAll (endpoint : Endpoint) :
          ∀ router ∈ [Router.toAll endpoint], ∃ lists, router.Made lists :=
        List.forall_mem_singleton.2 ⟨_, .toAll endpoint⟩
      cases source with
      | nothing => exact h.append rfl (List.forall_mem_singleton.2 ⟨_, .empty⟩)
      | shared sink => exact hsink fun index _ _ _ => h.append rfl (htoAll _)
      | wrapped sink => exact hsink fun index _ _ _ => h.append rfl (htoAll _)
  | route handle level sinks =>
      refine hwith fun index _ => ?_
      split
      · exact h
      · intro router hm
        rcases List.mem_or_eq_of_mem_set hm with hm | rfl
        · exact h router hm
        · obtain ⟨lists, made⟩ := h.router index
          exact ⟨_, made.set level _⟩
  | write handle level data => exact hwith fun index _ => h
  | flush handle => exact hwith fun index _ => h
  | describe handle => exact hwith fun index _ => h

theorem perform (h : session.RoutersMade) (act : Act σ) : (session.perform act).RoutersMade := by
  cases act with
  | sink command =>
      obtain ⟨outlets, sinkHandles, heq⟩ := session.runSink_frame command
      simp only [Session.perform, release, heq]
      exact h
  | router command => exact h.runRouter command
  | format command =>
      obtain ⟨formatters, formatterHandles, desk, heq⟩ := session.runFormat_frame command
      simp only [Session.perform, release, heq]
      exact h
  | memo command =>
      obtain ⟨desk, heq⟩ := session.runMemo_frame command
      simp only [Session.perform, release, heq]
      exact h
  | logger command =>
      obtain ⟨grown, loggers, hgrown, heq⟩ | ⟨router, heq⟩ := session.runLogger_frame command
      · obtain ⟨more, htoAll, hmore⟩ := hgrown.routers
        simp only [Session.perform, release, heq]
        refine h.append hmore fun router hm => ?_
        obtain ⟨endpoint, rfl⟩ := htoAll router hm
        exact ⟨_, .toAll endpoint⟩
      · simp only [Session.perform, release, heq, flushRouter]
        exact h
  | enter handle =>
      simp only [Session.perform]
      split <;> exact h
  | make logger entry site instant message =>
      obtain ⟨outlets, formatters, desk, heq⟩ :=
        session.deliver_frame logger entry site instant message
      simp only [Session.perform, release, leave, heq]
      exact h

theorem performAll (h : session.RoutersMade) (acts : List (Act σ)) :
    (session.performAll acts).RoutersMade := by
  induction acts generalizing session with
  | nil => exact h
  | cons act rest ih => exact ih (h.perform act)

end RoutersMade

theorem routersMade_performAll (own : σ) (acts : List (Act σ)) :
    ((fresh own).performAll acts).RoutersMade := by
  have hfresh : (fresh own).RoutersMade := fun _ hm => nomatch hm
  exact hfresh.performAll acts

/-! ## Writes -/

/-- Every router of every run holds the list that was set last for each level, and so does any
router that comes about by setting lists. No level of it leads to an empty list. A write asks the
list of its level, once for each place in it, in order and with the same data, whatever the sinks do
and answer; it comes to the first error or else to the last count. It is refused without asking
anybody exactly when the list is empty. Setting a list changes its own level alone, and lists for
different levels can be set in any order. -/
theorem written_in_list_order (own : σ) :
    (∀ (acts : List (Act σ)) (index : Nat),
      ∃ lists, (((fresh own).performAll acts).router index).Made lists) ∧
    ∀ (router : Router) (lists : Level → List Endpoint), router.Made lists →
      (∀ level, router.routes.find? level ≠ some []) ∧
      (∀ (α : Type) (send : Endpoint → Bytes → α → Except LogError Nat × α) (level : Level)
          (data : Bytes) (state : α),
        let written := router.write level (fun endpoint => send endpoint data) state
        ∃ transcript,
          Router.Asks (fun endpoint => send endpoint data) transcript state written.2 ∧
            transcript.map Prod.fst = lists level ∧
            (written.1 = .error (.unrouted level) ∧ transcript = [] ↔ lists level = []) ∧
            (lists level ≠ [] → Router.Settles (transcript.map Prod.snd) written.1)) ∧
      (∀ level other list, level ≠ other →
        (router.set level list).routes.find? other = router.routes.find? other) ∧
      ∀ level other list more, level ≠ other → ∀ found,
        ((router.set level list).set other more).routes.find? found =
          ((router.set other more).set level list).routes.find? found := by
  refine ⟨fun acts index => (routersMade_performAll own acts).router index, ?_⟩
  intro router lists made
  refine ⟨made.proper, fun α send level data state => ?_, fun level other list h => ?_,
    fun level other list more h => router.find?_set_comm h list more⟩
  · obtain ⟨transcript, hasks, hendpoints, hrefused, hsettles⟩ :=
      made.exists_transcript level (fun endpoint => send endpoint data) state
    refine ⟨transcript, hasks, hendpoints, ⟨fun hnone => ?_, fun hempty => ?_⟩, hsettles⟩
    · rw [← hendpoints, hnone.2, List.map_nil]
    · exact ⟨hrefused hempty, List.map_eq_nil_iff.1 (hendpoints.trans hempty)⟩
  · rw [Router.find?_set, if_neg h]

def crossed : Router :=
  ((Router.toAll ⟨1, none⟩).set .error [⟨0, none⟩, ⟨1, none⟩, ⟨1, none⟩]).set .debug []

def crossedOutlets : Outlets :=
  { sinks := [.tally { failure := some "no".toList }, .memory {}] }

/-- The memory sink behind the broken one takes the data twice, and the write fails. -/
theorem written_in_list_order_crossed :
    let written := Outlets.writeRouter crossed .error [120] crossedOutlets
    written.1 = .error (.writer "no".toList) ∧ written.2.sink? 1 = some (.memory ⟨[120, 120]⟩) ∧
      (∃ transcript,
        Router.Asks (fun endpoint => Outlets.write endpoint.sink [120]) transcript crossedOutlets
            written.2 ∧
          transcript.map Prod.fst = [⟨0, none⟩, ⟨1, none⟩, ⟨1, none⟩] ∧
          Router.Settles (transcript.map Prod.snd) written.1) ∧
      (crossed.set .info []).routes.find? .error = crossed.routes.find? .error ∧
      ∀ found, ((crossed.set .info []).set .error []).routes.find? found =
        ((crossed.set .error []).set .info []).routes.find? found := by
  have made : crossed.Made _ := ((Router.Made.toAll ⟨1, none⟩).set .error _).set .debug _
  obtain ⟨-, hwrites, hframe, hcomm⟩ := (written_in_list_order ()).2 crossed _ made
  obtain ⟨transcript, hasks, hendpoints, -, hsettles⟩ := hwrites Outlets
    (fun endpoint data => Outlets.write endpoint.sink data) .error [120] crossedOutlets
  refine ⟨rfl, rfl, ⟨transcript, hasks, hendpoints, hsettles (List.cons_ne_nil _ _)⟩, ?_, ?_⟩
  · exact hframe .info .error [] (by decide)
  · exact hcomm .info .error [] [] (by decide)

end Session

end Logbook
