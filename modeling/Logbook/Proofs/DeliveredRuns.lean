import Logbook.Proofs.Delivery
import Logbook.Proofs.Routes

/-!
# Delivered runs

A sink that is empty before a run and takes all that it is given holds, after the run, the records
of the run one after the other: those of admitted calls, each as often as its router led to the sink
when the record was made.
-/

namespace Logbook

open Outlets (Spares Brings Alone)

variable {σ : Type} {index : Nat}

namespace Session

def brought (session : Session σ) (index : Nat) : Act σ → List Bytes
  | .make logger entry site instant message =>
      session.copies index logger ⟨entry.level, site, instant⟩ message
  | _ => []

/-- An act does not write to a sink but by making a record, nor makes a record of a logger that
falls back on it. -/
def Leaves (session : Session σ) (index : Nat) : Act σ → Prop
  | .sink command => session.LeavesSink index command
  | .router command => session.LeavesRoutes index command
  | .make logger _ _ _ _ =>
      ∀ settings ∈ session.loggers.settings? logger, settings.fallback.sink ≠ index
  | _ => True

instance (session : Session σ) (act : Act σ) : Decidable (session.Leaves index act) := by
  unfold Leaves
  split <;> infer_instance

theorem brings_perform {session : Session σ} {act : Act σ} (h : session.Leaves index act) :
    Brings index (session.brought index act) session.outlets (session.perform act).outlets := by
  cases act with
  | sink command => exact ((spares_runSink h).trans (spares_release _ _)).brings
  | router command => exact ((spares_runRouter h).trans (spares_release _ _)).brings
  | format command =>
      obtain ⟨formatters, formatterHandles, desk, heq⟩ := session.runFormat_frame command
      simp only [perform, heq]
      exact (spares_release session _).brings
  | memo command =>
      obtain ⟨desk, heq⟩ := session.runMemo_frame command
      simp only [perform, heq]
      exact (spares_release session _).brings
  | logger command =>
      exact ((session.spares_runLogger command).trans (spares_release _ _)).brings
  | enter handle =>
      simp only [perform]
      split <;> exact (Spares.refl _).brings
  | make logger entry site instant message =>
      exact (brings_deliver h entry site instant message).then_spares
        (spares_release session (session.deliver logger entry site instant message).leave)

def deliveries (index : Nat) : Session σ → List (Act σ) → List Bytes
  | _, [] => []
  | session, act :: rest =>
      session.brought index act ++ deliveries index (session.perform act) rest

/-- Each of the acts leaves the sink to the records when it is done. -/
def LeavesAll (index : Nat) : Session σ → List (Act σ) → Prop
  | _, [] => True
  | session, act :: rest =>
      session.Leaves index act ∧ LeavesAll index (session.perform act) rest

theorem brings_performAll {session : Session σ} {acts : List (Act σ)}
    (h : LeavesAll index session acts) :
    Brings index (deliveries index session acts) session.outlets
      (session.performAll acts).outlets := by
  induction acts generalizing session with
  | nil => exact (Spares.refl _).brings
  | cons act rest ih => exact (brings_perform h.1).trans (ih h.2)

instance decidableLeavesAll : (session : Session σ) → (acts : List (Act σ)) →
    Decidable (LeavesAll index session acts)
  | _, [] => inferInstanceAs (Decidable True)
  | session, act :: rest =>
      have := decidableLeavesAll (session.perform act) rest
      inferInstanceAs (Decidable (session.Leaves index act ∧ _))

/-! ## What a sink ends up with -/

/-- A run begins with an empty sink that will take what it is given, shares its medium with no
other sink and is left to the records. It ends with the octets of the records that were made, in
order, each as often as the endpoints of its router led to the sink; these endpoints were the last
ones set for the level. A call below the threshold is no act at all and leaves everything. -/
theorem delivered_in_order {session : Session σ} {commands : List (Command σ)}
    (hempty : session.outlets.held? index = some [])
    (htakes : ∀ sink ∈ session.outlets.sink? index,
      sink.Takes (deliveries index session (actsAll commands session)))
    (halone : Alone index (execAll commands session).outlets.media)
    (hleaves : LeavesAll index session (actsAll commands session)) :
    (execAll commands session).outlets.held? index =
        some (deliveries index session (actsAll commands session)).flatten ∧
      (∀ (acts : List (Act σ)) (router : Nat) (level : Level), router < session.routers.length →
        ((session.performAll acts).router router).endpoints level =
          (lastRouted? router level session acts).getD
            ((session.router router).endpoints level)) ∧
      ∀ (now : Session σ) (handle : String) (logger : Nat) (threshold level : Level),
        now.loggers.find? handle = some logger → now.loggers.level? logger = some threshold →
          threshold.allows level = false → ∀ site instant message effects,
            acts (.log handle (.leveled level) site instant message effects) now = [] ∧
              exec (.log handle (.leveled level) site instant message effects) now =
                (.ok .done, now) := by
  refine ⟨?_, ?_, ?_⟩
  · obtain ⟨sink, hsink, hheld⟩ := Option.bind_eq_some_iff.1 hempty
    have brings := brings_performAll hleaves
    rw [performAll_actsAll] at brings
    have serves := brings.serves halone [] [] ⟨sink, hsink, hheld, by
      rw [List.append_nil]
      exact htakes sink hsink⟩
    rw [serves.held?_eq, List.nil_append]
  · intro acts router level hrouter
    exact endpoints_performAll hrouter level acts
  · intro now handle logger threshold level hfind hlevel hgate site instant message effects
    have hstopped : now.admits logger (.leveled level) = false := by
      simp only [admits, hlevel, hgate]
    refine ⟨?_, exec_log_of_stopped site instant message effects hfind hstopped⟩
    simp only [acts, hfind, hstopped]
    rfl

/-- A failing sink, and a memory sink that is listed twice behind it. -/
def routedSetup : Session Unit :=
  execAll
    [.sink (.make "broken" (.tally { failure := some "no".toList })), .sink (.make "log" .memory),
      .router (.make "routes" .nothing),
      .router (.route "routes" .info ["broken", "log", "log"]),
      .logger (.make "app" { router := some "routes", template := some "%s".toList })] (fresh ())

def routedCalls : List (Command Unit) :=
  [.log "app" (.leveled .info) none ⟨0, 0, 0⟩ "one".toList [],
    .log "app" (.leveled .debug) none ⟨0, 0, 0⟩ "two".toList [],
    .router (.route "routes" .fatal ["log"]),
    .log "app" .fatal none ⟨0, 0, 0⟩ "three".toList []]

theorem delivered_in_order_routed :
    (execAll routedCalls routedSetup).outlets.held? 1 =
      some (Text.encode "one\none\nthree\n".toList) := by
  have hempty : routedSetup.outlets.held? 1 = some [] := by decide +kernel
  have htakes : ∀ sink ∈ routedSetup.outlets.sink? 1,
      sink.Takes (deliveries 1 routedSetup (actsAll routedCalls routedSetup)) := by
    intro sink hsink
    have hmemory : routedSetup.outlets.sink? 1 = some (.memory {}) := rfl
    rw [hmemory] at hsink
    cases hsink
    exact Sink.takes_memory _ _
  have halone : Alone 1 (execAll routedCalls routedSetup).outlets.media := by
    have hown : (execAll routedCalls routedSetup).outlets.media[1]? = some none := by
      decide +kernel
    intro medium hmedium
    rw [hown] at hmedium
    cases hmedium
  have hleaves : LeavesAll 1 routedSetup (actsAll routedCalls routedSetup) := by decide +kernel
  have hdeliveries : (deliveries 1 routedSetup (actsAll routedCalls routedSetup)).flatten =
      Text.encode "one\none\nthree\n".toList := by decide +kernel
  rw [(delivered_in_order hempty htakes halone hleaves).1, hdeliveries]

end Session

end Logbook
