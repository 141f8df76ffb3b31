import Logbook.Proofs.Frames

/-!
# Routes of runs

Which endpoints a router holds after a run: those that were set last for a level, else those that it
began with. Only a command that sets routes changes them.
-/

namespace Logbook.Session

variable {σ : Type}

def routed? (session : Session σ) (router : Nat) (level : Level) : Act σ → Option (List Endpoint)
  | .router (.route handle other sinks) =>
      if session.routerHandles.find? handle = some router ∧ other = level then
        session.ownEndpoints? sinks
      else none
  | _ => none

/-- The endpoints that acts set last for a level of a router. -/
def lastRouted? (router : Nat) (level : Level) : Session σ → List (Act σ) → Option (List Endpoint)
  | _, [] => none
  | session, act :: rest =>
      (lastRouted? router level (session.perform act) rest).or (session.routed? router level act)

theorem router_append {session after : Session σ} {more : List Router}
    (h : after.routers = session.routers ++ more) {router : Nat}
    (hrouter : router < session.routers.length) : after.router router = session.router router := by
  unfold Session.router
  rw [h, List.getElem?_append_left hrouter]

/-- The router at a place after another one was put at some place. -/
theorem router_set {session : Session σ} {place router : Nat}
    (hrouter : router < session.routers.length) (changed : Router) :
    ({ session with routers := session.routers.set place changed } : Session σ).router router =
      if place = router then changed else session.router router := by
  unfold Session.router
  split
  · rename_i h
    rw [h, List.getElem?_set_self hrouter]
    rfl
  · rename_i h
    rw [List.getElem?_set_ne h]

/-- Between two sessions, some endpoints or none were set for a level of a router, and no router
went away. -/
structure Routed (router : Nat) (level : Level) (set? : Option (List Endpoint))
    (before after : Session σ) : Prop where
  endpoints : (after.router router).endpoints level =
    set?.getD ((before.router router).endpoints level)
  length : before.routers.length ≤ after.routers.length

theorem Routed.same {router : Nat} {level : Level} {before after : Session σ}
    (h : after.routers = before.routers) : Routed router level none before after where
  endpoints := by
    rw [Session.router, h]
    rfl
  length := Nat.le_of_eq (congrArg List.length h.symm)

theorem Routed.grown {router : Nat} {level : Level} {before after : Session σ} {more : List Router}
    (hrouter : router < before.routers.length) (h : after.routers = before.routers ++ more) :
    Routed router level none before after where
  endpoints := by
    rw [router_append h hrouter]
    rfl
  length := by
    rw [h, List.length_append]
    exact Nat.le_add_right _ _

theorem routed_runRouter {session : Session σ} {router : Nat}
    (hrouter : router < session.routers.length) (level : Level) (command : RouterCommand) :
    Routed router level (session.routed? router level (.router command)) session
      (session.runRouter command).2 := by
  have hsink := @withSink_cases _ (Routed router level none session) session (.same rfl)
  have hwith := @withRouter_cases _ (Routed router level none session) session (.same rfl)
  cases command with
  | make handle source =>
      cases source with
      | nothing => exact .grown hrouter rfl
      | shared sink => exact hsink fun found _ _ _ => .grown hrouter rfl
      | wrapped sink => exact hsink fun found _ _ _ => .grown hrouter rfl
  | route handle other sinks =>
      simp only [runRouter, withRouter, routed?]
      cases hfind : session.routerHandles.find? handle with
      | none => exact .same rfl
      | some place =>
          dsimp only
          cases hends : session.ownEndpoints? sinks with
          | none =>
              rw [ite_self]
              exact .same rfl
          | some endpoints =>
              refine ⟨?_, by simp⟩
              rw [router_set hrouter]
              by_cases hplace : place = router
              · subst hplace
                rw [if_pos rfl, Router.endpoints_set]
                by_cases hlevel : other = level <;> simp [hlevel]
              · simp [hplace]
  | write handle other data => exact hwith fun place _ => .same rfl
  | flush handle => exact hwith fun place _ => .same rfl
  | describe handle => exact hwith fun place _ => .same rfl

theorem routed_perform {session : Session σ} {router : Nat}
    (hrouter : router < session.routers.length) (level : Level) (act : Act σ) :
    Routed router level (session.routed? router level act) session (session.perform act) := by
  cases act with
  | sink command =>
      obtain ⟨outlets, sinkHandles, h⟩ := session.runSink_frame command
      exact .same (by simp only [perform, release, h])
  | router command =>
      obtain ⟨hendpoints, hlength⟩ := routed_runRouter hrouter level command
      exact ⟨hendpoints, hlength⟩
  | format command =>
      obtain ⟨formatters, formatterHandles, desk, h⟩ := session.runFormat_frame command
      exact .same (by simp only [perform, release, h])
  | memo command =>
      obtain ⟨desk, h⟩ := session.runMemo_frame command
      exact .same (by simp only [perform, release, h])
  | logger command =>
      obtain ⟨grown, loggers, hgrown, h⟩ | ⟨other, h⟩ := session.runLogger_frame command
      · obtain ⟨more, -, hmore⟩ := hgrown.routers
        refine .grown hrouter (?_ : _ = session.routers ++ more)
        simp only [perform, release, h]
        exact hmore
      · exact .same (by simp only [perform, release, h, flushRouter])
  | enter handle =>
      simp only [perform]
      split <;> exact .same rfl
  | make logger entry site instant message =>
      obtain ⟨outlets, formatters, desk, h⟩ :=
        session.deliver_frame logger entry site instant message
      exact .same (by simp only [perform, release, leave, h])

theorem endpoints_performAll {session : Session σ} {router : Nat}
    (hrouter : router < session.routers.length) (level : Level) (acts : List (Act σ)) :
    ((session.performAll acts).router router).endpoints level =
      (lastRouted? router level session acts).getD ((session.router router).endpoints level) := by
  induction acts generalizing session with
  | nil => rfl
  | cons act rest ih =>
      have routed := routed_perform hrouter level act
      have hrest := ih (Nat.lt_of_lt_of_le hrouter routed.length)
      rw [performAll, List.foldl_cons, ← performAll, hrest, routed.endpoints, lastRouted?]
      cases lastRouted? router level (session.perform act) rest <;> rfl

end Logbook.Session
