import Logbook.Error
import Logbook.Table
import Logbook.Text.Quoted

/-!
# Routers

A router holds an ordered list of endpoints for each level. Writing tries every endpoint of the
level whatever the others answer; flushing reaches every endpoint once, however often it is
listed. How an endpoint is written or flushed is a parameter, so the laws hold for any sinks.
-/

namespace Logbook

/-- A sink as a router holds it: the sink itself, or a wrapper with an identity of its own. -/
structure Endpoint where
  sink : Nat
  wrapper : Option Nat := none
  deriving DecidableEq, Repr

structure Router where
  routes : Table Level (List Endpoint) := {}

namespace Router

def empty : Router := {}

def endpoints (router : Router) (level : Level) : List Endpoint :=
  (router.routes.find? level).getD []

/-- Replaces the endpoints of one level. An empty list takes the route away. -/
def set (router : Router) (level : Level) (endpoints : List Endpoint) : Router :=
  if endpoints = [] then ⟨router.routes.erase level⟩
  else ⟨router.routes.insert level endpoints⟩

def toAll (endpoint : Endpoint) : Router :=
  Level.all.foldl (fun router level => router.set level [endpoint]) empty

def counts (router : Router) : List Nat :=
  Level.all.map fun level => (router.endpoints level).length

theorem endpoints_set (router : Router) (level other : Level) (list : List Endpoint) :
    (router.set level list).endpoints other =
      if level = other then list else router.endpoints other := by
  unfold set endpoints
  split
  · rename_i h
    simp only [Table.find?_erase]
    split <;> simp [h]
  · simp only [Table.find?_insert]
    split <;> simp

def Proper (router : Router) : Prop := ∀ level, router.routes.find? level ≠ some []

theorem proper_empty : empty.Proper := by
  intro level h
  cases h

theorem Proper.set {router : Router} (h : router.Proper) (level : Level) (list : List Endpoint) :
    (router.set level list).Proper := by
  intro other
  unfold Router.set
  split
  · simp only [Table.find?_erase]
    split
    · simp
    · exact h other
  · rename_i hl
    simp only [Table.find?_insert]
    split
    · simpa using hl
    · exact h other

/-! ## Acting on endpoints -/

variable {σ α : Type}

/-- Acts on every endpoint in order and keeps all outcomes. -/
def each (act : Endpoint → σ → Except LogError α × σ) :
    List Endpoint → σ → List (Except LogError α) × σ
  | [], state => ([], state)
  | endpoint :: rest, state =>
      let (outcome, state) := act endpoint state
      let (outcomes, state) := each act rest state
      (outcome :: outcomes, state)

def firstError? : List (Except LogError α) → Option LogError
  | [] => none
  | .error error :: _ => some error
  | .ok _ :: rest => firstError? rest

/-- The result of a write: the first error, otherwise the count of the last endpoint. -/
def settleCounts (outcomes : List (Except LogError Nat)) : Except LogError Nat :=
  match firstError? outcomes with
  | some error => .error error
  | none =>
      match outcomes.getLast? with
      | some outcome => outcome
      | none => .ok 0

/-- The result of a flush: the first error, if there is one. -/
def settle (outcomes : List (Except LogError Unit)) : Except LogError Unit :=
  match firstError? outcomes with
  | some error => .error error
  | none => .ok ()

def write (router : Router) (level : Level) (send : Endpoint → σ → Except LogError Nat × σ)
    (state : σ) : Except LogError Nat × σ :=
  match router.routes.find? level with
  | none => (.error (.unrouted level), state)
  | some endpoints =>
      let (outcomes, state) := each send endpoints state
      (settleCounts outcomes, state)

/-- Every element once, where it stands first. -/
def distinct [DecidableEq α] : List α → List α
  | [] => []
  | a :: rest => a :: (distinct rest).filter (· ≠ a)

theorem mem_distinct [DecidableEq α] {a : α} {list : List α} : a ∈ distinct list ↔ a ∈ list := by
  induction list with
  | nil => rfl
  | cons first rest ih =>
      simp only [distinct, List.mem_cons, List.mem_filter, ih, decide_eq_true_eq]
      by_cases h : a = first <;> simp [h]

theorem nodup_distinct [DecidableEq α] (list : List α) : (distinct list).Nodup := by
  induction list with
  | nil => exact .nil
  | cons first rest ih => exact List.nodup_cons.2 ⟨by simp, ih.filter _⟩

/-- The distinct endpoints when the levels are looked through in some order. -/
def endpointsAlong (router : Router) (order : List Level) : List Endpoint :=
  distinct (order.flatMap router.endpoints)

/-- Flushes every endpoint once, with the levels in some order. -/
def flushAlong (router : Router) (order : List Level)
    (flush : Endpoint → σ → Except LogError Unit × σ) (state : σ) : Except LogError Unit × σ :=
  let (outcomes, state) := each flush (router.endpointsAlong order) state
  (settle outcomes, state)

def flush (router : Router) (flushOne : Endpoint → σ → Except LogError Unit × σ) (state : σ) :
    Except LogError Unit × σ :=
  router.flushAlong Level.all flushOne state

def describe (router : Router) (name : Endpoint → Text) : Text :=
  let route (level : Level) : Option Text :=
    (router.routes.find? level).map fun endpoints =>
      Text.quoted level.name ++ ": [".toList ++
        Text.joinWith [',', ' '] (endpoints.map fun endpoint => Text.quoted (name endpoint)) ++
        [']']
  ['\x7b'] ++ Text.joinWith [',', ' '] (Level.all.filterMap route) ++ ['\x7d']

end Router

end Logbook
