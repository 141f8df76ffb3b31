import Logbook.Proofs.Routing
import Logbook.Proofs.SparedSinks
import Mathlib.Data.List.Nodup

/-!
# Flushing

A flush looks through the routed levels in an order that nobody promises. It asks every endpoint of
the lists once, whichever the order, and goes on after failures. Whether it succeeds depends on the
order neither for sinks that have a state each nor for the sinks of a session.
-/

namespace Logbook

variable {σ α β τ : Type}

namespace Router

/-! ## Orders -/

/-- An order in which the levels of a router can be looked through: every routed level once, and no
other level. -/
structure Yields (router : Router) (order : List Level) : Prop where
  nodup : order.Nodup
  mem_iff : ∀ level, level ∈ order ↔ router.routes.find? level ≠ none

theorem Made.mem_endpointsAlong {router : Router} {lists : Level → List Endpoint}
    (made : router.Made lists) {order : List Level} (yields : router.Yields order)
    (endpoint : Endpoint) :
    endpoint ∈ router.endpointsAlong order ↔ ∃ level, endpoint ∈ lists level := by
  unfold endpointsAlong
  rw [mem_distinct, List.mem_flatMap]
  constructor
  · rintro ⟨level, -, h⟩
    exact ⟨level, made.endpoints level ▸ h⟩
  · rintro ⟨level, h⟩
    refine ⟨level, (yields.mem_iff level).2 ?_, (made.endpoints level).symm ▸ h⟩
    rw [made.find?_eq, if_neg (List.ne_nil_of_mem h)]
    exact Option.some_ne_none _

/-- Two orders lead to the same endpoints in some order. -/
theorem Made.perm_endpointsAlong {router : Router} {lists : Level → List Endpoint}
    (made : router.Made lists) {order other : List Level} (yields : router.Yields order)
    (yields' : router.Yields other) :
    (router.endpointsAlong order).Perm (router.endpointsAlong other) := by
  have horder : (router.endpointsAlong order).Nodup := nodup_distinct _
  have hother : (router.endpointsAlong other).Nodup := nodup_distinct _
  refine (List.perm_ext_iff_of_nodup horder hother).2 fun endpoint => ?_
  rw [made.mem_endpointsAlong yields, made.mem_endpointsAlong yields']

theorem flatMap_filter_routed (router : Router) (levels : List Level) :
    (levels.filter fun level => router.routes.find? level ≠ none).flatMap router.endpoints =
      levels.flatMap router.endpoints := by
  induction levels with
  | nil => rfl
  | cons level rest ih =>
      by_cases h : router.routes.find? level = none
      · simpa [h, endpoints] using ih
      · simpa [h] using ih

/-- A flush looks through the levels in one of the orders. -/
theorem exists_flush_eq (router : Router) (act : Endpoint → α → Except LogError Unit × α)
    (state : α) :
    ∃ order, router.Yields order ∧ router.flush act state = router.flushAlong order act state := by
  have hnodup : Level.all.Nodup := by decide
  refine ⟨Level.all.filter fun level => router.routes.find? level ≠ none,
    ⟨hnodup.filter _, fun level => ?_⟩, ?_⟩
  · simp [Level.mem_all]
  · simp only [flush, flushAlong, endpointsAlong, flatMap_filter_routed]

/-! ## What the answers come to -/

theorem settle_eq_ok_iff {answers : List (Except LogError Unit)} :
    settle answers = .ok () ↔ ∀ answer ∈ answers, answer = .ok () := by
  have hnone : settle answers = .ok () ↔ firstError? answers = none := by
    unfold settle
    cases firstError? answers <;> simp
  rw [hnone, firstError?_eq_none_iff]
  exact forall₂_congr fun answer _ => ⟨fun ⟨_, h⟩ => h, fun h => ⟨(), h⟩⟩

theorem mem_of_settle {answers : List (Except LogError Unit)} {error : LogError}
    (h : settle answers = .error error) : .error error ∈ answers := by
  unfold settle at h
  cases hfirst : firstError? answers with
  | none =>
      rw [hfirst] at h
      cases h
  | some first =>
      rw [hfirst] at h
      cases h
      obtain ⟨earlier, later, rfl, -⟩ := exists_of_firstError? hfirst
      exact List.mem_append_right _ List.mem_cons_self

/-- A flush asks every endpoint of the lists once, and nobody else. -/
theorem Made.exists_flush_transcript {router : Router} {lists : Level → List Endpoint}
    (made : router.Made lists) {order : List Level} (yields : router.Yields order)
    (flush : Endpoint → α → Except LogError Unit × α) (state : α) :
    let flushed := router.flushAlong order flush state
    ∃ transcript, Asks flush transcript state flushed.2 ∧ (transcript.map Prod.fst).Nodup ∧
      (∀ endpoint, endpoint ∈ transcript.map Prod.fst ↔ ∃ level, endpoint ∈ lists level) ∧
      (flushed.1 = .ok () ↔ ∀ call ∈ transcript, call.2 = .ok ()) ∧
      ∀ error, flushed.1 = .error error → ∃ endpoint, (endpoint, .error error) ∈ transcript := by
  intro flushed
  obtain ⟨transcript, hasks, hendpoints, hanswers⟩ :=
    exists_asks flush (router.endpointsAlong order) state
  have hsettled : flushed.1 = settle (transcript.map Prod.snd) := congrArg settle hanswers.symm
  refine ⟨transcript, hasks, ?_, fun endpoint => ?_, ?_, fun error herror => ?_⟩
  · rw [hendpoints]
    exact nodup_distinct _
  · rw [hendpoints, made.mem_endpointsAlong yields]
  · rw [hsettled, settle_eq_ok_iff, List.forall_mem_map]
  · rw [hsettled] at herror
    obtain ⟨call, hcall, heq⟩ := List.mem_map.1 (mem_of_settle herror)
    exact ⟨call.1, heq ▸ hcall⟩

/-! ## Sinks that have a state each -/

/-- Acts on the state of the sink that an endpoint leads to, and on no other state. -/
def actApart (act : Nat → τ → Except LogError β × τ) (endpoint : Endpoint) (states : Nat → τ) :
    Except LogError β × (Nat → τ) :=
  let (answer, after) := act endpoint.sink (states endpoint.sink)
  (answer, Function.update states endpoint.sink after)

theorem actApart_of_sink_eq (act : Nat → τ → Except LogError β × τ) {first second : Endpoint}
    (h : first.sink = second.sink) : actApart act first = actApart act second := by
  funext states
  simp only [actApart, h]

/-- Acts on different sinks can be exchanged. -/
theorem actApart_comm (act : Nat → τ → Except LogError β × τ) {first second : Endpoint}
    (h : first.sink ≠ second.sink) (states : Nat → τ) :
    (actApart act second (actApart act first states).2).1 = (actApart act second states).1 ∧
      (actApart act second (actApart act first states).2).2 =
        (actApart act first (actApart act second states).2).2 := by
  simp only [actApart, Function.update_of_ne h, Function.update_of_ne (Ne.symm h)]
  exact ⟨trivial, Function.update_comm h _ _ _⟩

/-- Endpoints can be acted on in any order: the same answers come, in some order, and the states
end up the same. -/
theorem each_actApart_perm (act : Nat → τ → Except LogError β × τ) {list more : List Endpoint}
    (h : list.Perm more) (states : Nat → τ) :
    (each (actApart act) list states).2 = (each (actApart act) more states).2 ∧
      (each (actApart act) list states).1.Perm (each (actApart act) more states).1 := by
  induction h generalizing states with
  | nil => exact ⟨rfl, .refl _⟩
  | cons endpoint _ ih =>
      obtain ⟨hstates, hanswers⟩ := ih (actApart act endpoint states).2
      exact ⟨hstates, hanswers.cons _⟩
  | swap first second rest =>
      by_cases hsink : first.sink = second.sink
      · simp only [each, actApart_of_sink_eq act hsink]
        exact ⟨trivial, .refl _⟩
      · obtain ⟨hfirst, hboth⟩ := actApart_comm act hsink states
        obtain ⟨hsecond, -⟩ := actApart_comm act (Ne.symm hsink) states
        simp only [each, hfirst, hsecond, hboth]
        exact ⟨trivial, .swap _ _ _⟩
  | trans _ _ ih ih' =>
      exact ⟨(ih states).1.trans (ih' states).1, (ih states).2.trans (ih' states).2⟩

/-- For sinks that have a state each, neither the states nor whether a flush succeeds depend on the
order. -/
theorem Made.flushAlong_actApart {router : Router} {lists : Level → List Endpoint}
    (made : router.Made lists) {order other : List Level} (yields : router.Yields order)
    (yields' : router.Yields other) (flush : Nat → τ → Except LogError Unit × τ)
    (states : Nat → τ) :
    (router.flushAlong order (actApart flush) states).2 =
        (router.flushAlong other (actApart flush) states).2 ∧
      ((router.flushAlong order (actApart flush) states).1 = .ok () ↔
        (router.flushAlong other (actApart flush) states).1 = .ok ()) := by
  obtain ⟨hstates, hanswers⟩ :=
    each_actApart_perm flush (made.perm_endpointsAlong yields yields') states
  refine ⟨hstates, ?_⟩
  simp only [flushAlong, settle_eq_ok_iff, hanswers.mem_iff]

end Router

/-! ## The sinks of a session -/

namespace Sink

theorem answer_flush (sink : Sink) (host other : Host) :
    (sink.flush host).1 = (sink.flush other).1 := by
  cases sink <;> rfl

theorem answer_flush_flush (sink : Sink) (host other : Host) :
    ((sink.flush host).2.1.flush other).1 = (sink.flush host).1 := by
  cases sink with
  | tally count =>
      simp only [flush, Tally.flush]
      cases count.flushFailure <;> rfl
  | _ => rfl

end Sink

namespace Outlets

theorem answer_flush_flush (index other : Nat) (outlets : Outlets) :
    (flush index (flush other outlets).2).1 = (flush index outlets).1 := by
  unfold flush
  cases hother : outlets.sink? other with
  | none => rfl
  | some sink =>
      dsimp only
      by_cases h : other = index
      · subst h
        have hset := sink?_set_self (List.getElem?_eq_some_iff.1 hother).1
          (sink.flush outlets.host).2.1
        simp only [sink?] at hset hother ⊢
        simp only [hset, hother]
        exact sink.answer_flush_flush _ _
      · have hset := sink?_set_of_ne outlets h (sink.flush outlets.host).2.1
        simp only [sink?] at hset ⊢
        simp only [hset]
        cases outlets.sinks[index]? with
        | none => rfl
        | some found => exact found.answer_flush _ _

/-- Every sink answers as if it were flushed alone. -/
theorem answers_each_flush (endpoints : List Endpoint) (outlets : Outlets) :
    (Router.each (fun endpoint => flush endpoint.sink) endpoints outlets).1 =
      endpoints.map fun endpoint => (flush endpoint.sink outlets).1 := by
  induction endpoints generalizing outlets with
  | nil => rfl
  | cons endpoint rest ih =>
      simp only [Router.each, List.map_cons, ih, answer_flush_flush]

end Outlets

/-- A flush of sinks of a session succeeds exactly when each of them alone can be flushed. -/
theorem Router.Made.flushAlong_outlets {router : Router} {lists : Level → List Endpoint}
    (made : router.Made lists) {order : List Level} (yields : router.Yields order)
    (outlets : Outlets) :
    (router.flushAlong order (fun endpoint => Outlets.flush endpoint.sink) outlets).1 = .ok () ↔
      ∀ level, ∀ endpoint ∈ lists level, (Outlets.flush endpoint.sink outlets).1 = .ok () := by
  simp only [Router.flushAlong, Router.settle_eq_ok_iff, Outlets.answers_each_flush,
    List.forall_mem_map, made.mem_endpointsAlong yields]
  exact ⟨fun h level endpoint hm => h endpoint ⟨level, hm⟩,
    fun h endpoint ⟨level, hm⟩ => h level endpoint hm⟩

namespace Session

/-! ## Flushes of a run -/

/-- Every router of every run is one to which lists were set, and a flush looks through its levels
in an order that has every routed level once. In each such order, every endpoint of the lists is
asked once and nobody else, whatever the sinks do and whoever fails. The flush succeeds exactly when
all that were asked did, and otherwise comes to the error of one of them. For sinks that have a
state each, another order leaves the same states and succeeds just as well; sinks of a session
succeed exactly when each of them alone does. -/
theorem flushed_once_in_any_order (own : σ) :
    (∀ (acts : List (Act σ)) (index : Nat),
      ∃ lists, (((fresh own).performAll acts).router index).Made lists) ∧
    ∀ (router : Router) (lists : Level → List Endpoint), router.Made lists →
      (∀ (α : Type) (flush : Endpoint → α → Except LogError Unit × α) (state : α),
        ∃ order, router.Yields order ∧
          router.flush flush state = router.flushAlong order flush state) ∧
      ∀ order, router.Yields order →
        (∀ (α : Type) (flush : Endpoint → α → Except LogError Unit × α) (state : α),
          let flushed := router.flushAlong order flush state
          ∃ transcript, Router.Asks flush transcript state flushed.2 ∧
            (transcript.map Prod.fst).Nodup ∧
            (∀ endpoint, endpoint ∈ transcript.map Prod.fst ↔ ∃ level, endpoint ∈ lists level) ∧
            (flushed.1 = .ok () ↔ ∀ call ∈ transcript, call.2 = .ok ()) ∧
            ∀ error, flushed.1 = .error error →
              ∃ endpoint, (endpoint, .error error) ∈ transcript) ∧
        (∀ other, router.Yields other →
          ∀ (τ : Type) (flush : Nat → τ → Except LogError Unit × τ) (states : Nat → τ),
            let flushed := router.flushAlong order (Router.actApart flush) states
            let flushed' := router.flushAlong other (Router.actApart flush) states
            flushed.2 = flushed'.2 ∧ (flushed.1 = .ok () ↔ flushed'.1 = .ok ())) ∧
        ∀ outlets : Outlets,
          (router.flushAlong order (fun endpoint => Outlets.flush endpoint.sink) outlets).1 =
              .ok () ↔
            ∀ level, ∀ endpoint ∈ lists level,
              (Outlets.flush endpoint.sink outlets).1 = .ok () := by
  refine ⟨fun acts index => (routersMade_performAll own acts).router index, ?_⟩
  intro router lists made
  refine ⟨fun α flush state => router.exists_flush_eq flush state, fun order yields => ?_⟩
  exact ⟨fun α flush state => made.exists_flush_transcript yields flush state,
    fun other yields' τ flush states => made.flushAlong_actApart yields yields' flush states,
    made.flushAlong_outlets yields⟩

/-- A router with two wrappers of one sink, and for errors also another sink, twice. -/
def wrappedTwice : Router :=
  ((Router.toAll ⟨0, some 0⟩).set .error [⟨1, none⟩, ⟨0, some 1⟩, ⟨1, none⟩]).set .fatal []

def stubbornOutlets : Outlets :=
  { sinks := [.tally {}, .tally { flushFailure := some "no".toList }] }

/-- The sink that is wrapped twice is flushed twice, the other one once, and its error is kept. -/
theorem flushed_once_in_any_order_wrapped :
    let order : List Level := [.trace, .error, .info, .warning, .debug]
    let flushed := wrappedTwice.flushAlong order (fun endpoint => Outlets.flush endpoint.sink)
      stubbornOutlets
    wrappedTwice.Yields order ∧ flushed.1 = .error (.writer "no".toList) ∧
      flushed.2.sinks =
        [.tally { flushes := 2 }, .tally { flushFailure := some "no".toList, flushes := 1 }] ∧
      ∃ transcript,
        Router.Asks (fun endpoint => Outlets.flush endpoint.sink) transcript stubbornOutlets
            flushed.2 ∧
          (transcript.map Prod.fst).Nodup ∧
          (⟨0, some 0⟩ ∈ transcript.map Prod.fst ∧ ⟨0, some 1⟩ ∈ transcript.map Prod.fst) ∧
          ∃ endpoint, (endpoint, .error (.writer "no".toList)) ∈ transcript := by
  intro order flushed
  have made : wrappedTwice.Made _ :=
    ((Router.Made.toAll ⟨0, some 0⟩).set .error _).set .fatal _
  have yields : wrappedTwice.Yields order := by
    refine ⟨by decide, fun level => ?_⟩
    cases level <;> decide
  have herror : flushed.1 = .error (.writer "no".toList) := rfl
  obtain ⟨-, hany⟩ := (flushed_once_in_any_order ()).2 wrappedTwice _ made
  obtain ⟨hasked, -, -⟩ := hany order yields
  obtain ⟨transcript, hasks, hnodup, hmem, -, hfailed⟩ := hasked Outlets
    (fun endpoint => Outlets.flush endpoint.sink) stubbornOutlets
  refine ⟨yields, herror, rfl, transcript, hasks, hnodup, ⟨?_, ?_⟩, hfailed _ herror⟩
  · exact (hmem _).2 ⟨.trace, List.mem_singleton_self _⟩
  · exact (hmem _).2 ⟨.error, List.mem_cons_of_mem _ List.mem_cons_self⟩

end Session

end Logbook
