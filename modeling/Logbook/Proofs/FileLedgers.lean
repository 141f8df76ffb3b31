import Logbook.Proofs.SinkUses
import Mathlib.Logic.Function.Basic

/-!
# Ledgers of a file

Several sinks can append to one file, each through a buffer of its own. A ledger parts the writes to
the file into those that have landed in it and those that still wait for it. A sink that comes to
its file brings all its waiting writes at once: no write is torn, and those of one sink keep their
order, however the sinks take turns.
-/

namespace Logbook

/-- A write to a file, by the sink at a place in the list. -/
structure FileWrite where
  sink : Nat
  data : Bytes
  deriving DecidableEq, Repr

namespace FileWrite

def of (sink : Nat) (writes : List FileWrite) : List FileWrite := writes.filter (·.sink = sink)

def besides (sink : Nat) (writes : List FileWrite) : List FileWrite :=
  writes.filter (·.sink ≠ sink)

def octets (writes : List FileWrite) : Bytes := writes.flatMap data

theorem of_append (sink : Nat) (first second : List FileWrite) :
    of sink (first ++ second) = of sink first ++ of sink second :=
  List.filter_append first second

theorem octets_append (first second : List FileWrite) :
    octets (first ++ second) = octets first ++ octets second :=
  List.flatMap_append

theorem of_singleton (sink : Nat) (write : FileWrite) :
    of sink [write] = if write.sink = sink then [write] else [] := by
  by_cases h : write.sink = sink <;> simp [of, h]

theorem of_of (sink other : Nat) (writes : List FileWrite) :
    of other (of sink writes) = if other = sink then of sink writes else [] := by
  unfold of
  rw [List.filter_filter]
  split
  · rename_i h
    simp [h]
  · rename_i h
    refine List.filter_eq_nil_iff.2 fun write _ => ?_
    simp only [Bool.and_eq_true, decide_eq_true_eq, not_and]
    omega

theorem of_besides (sink other : Nat) (writes : List FileWrite) :
    of other (besides sink writes) = if other = sink then [] else of other writes := by
  unfold of besides
  rw [List.filter_filter]
  split
  · rename_i h
    refine List.filter_eq_nil_iff.2 fun write _ => ?_
    simp only [Bool.and_eq_true, decide_eq_true_eq, not_and]
    omega
  · rename_i h
    refine List.filter_congr fun write _ => ?_
    by_cases hw : write.sink = other <;> simp [hw, h]

end FileWrite

open FileWrite (of besides octets)

/-! ## Ledgers -/

/-- The writes that are in the file, in the order of the file, and those that still wait, in the
order in which they were made. -/
structure Ledger where
  landed : List FileWrite := []
  waiting : List FileWrite := []

namespace Ledger

def enter (ledger : Ledger) (write : FileWrite) : Ledger :=
  { ledger with waiting := ledger.waiting ++ [write] }

/-- All that waits of one sink lands behind what is in the file. -/
def land (ledger : Ledger) (sink : Nat) : Ledger :=
  ⟨ledger.landed ++ of sink ledger.waiting, besides sink ledger.waiting⟩

/-- A ledger fits the writes so far, the octets in the file and those in the buffers. -/
structure Balanced (old : Bytes) (written : List FileWrite) (contents : Bytes)
    (pending : Nat → Bytes) (ledger : Ledger) : Prop where
  contents : contents = old ++ octets ledger.landed
  pending : ∀ sink, octets (of sink ledger.waiting) = pending sink
  parted : ∀ sink, of sink written = of sink ledger.landed ++ of sink ledger.waiting

variable {old contents : Bytes} {written : List FileWrite} {pending : Nat → Bytes}
  {ledger : Ledger}

theorem Balanced.enter (h : ledger.Balanced old written contents pending) (write : FileWrite) :
    (ledger.enter write).Balanced old (written ++ [write]) contents
      (Function.update pending write.sink (pending write.sink ++ write.data)) where
  contents := h.contents
  pending := by
    intro sink
    simp only [Ledger.enter, FileWrite.of_append, FileWrite.of_singleton, FileWrite.octets_append,
      h.pending]
    by_cases hs : sink = write.sink
    · subst hs
      simp [octets]
    · simp [Ne.symm hs, Function.update_of_ne hs, octets]
  parted := by
    intro sink
    simp [Ledger.enter, FileWrite.of_append, h.parted]

theorem Balanced.land (h : ledger.Balanced old written contents pending) (sink : Nat) :
    (ledger.land sink).Balanced old written (contents ++ pending sink)
      (Function.update pending sink []) where
  contents := by
    simp [Ledger.land, FileWrite.octets_append, h.contents, h.pending]
  pending := by
    intro other
    simp only [Ledger.land, FileWrite.of_besides]
    by_cases ho : other = sink
    · subst ho
      simp [octets]
    · rw [if_neg ho, Function.update_of_ne ho, h.pending]
  parted := by
    intro other
    simp only [Ledger.land, FileWrite.of_append, FileWrite.of_of, FileWrite.of_besides, h.parted]
    by_cases ho : other = sink <;> simp [ho]

end Ledger

/-! ## Uses and ledgers -/

namespace Use

/-- After the use nothing waits in the buffer of the sink. -/
def Settles (use : Use) (sink : Nat) : Prop := use = .flush sink ∨ use = .close sink

instance (use : Use) (sink : Nat) : Decidable (use.Settles sink) :=
  inferInstanceAs (Decidable (_ ∨ _))

/-- The write to the file that a use is, when some of the sinks lead to the file. -/
def entry? (leads : Nat → Prop) [DecidablePred leads] : Use → Option FileWrite
  | .write sink data => if leads sink then some ⟨sink, data⟩ else none
  | _ => none

def closed? : Use → Option Nat
  | .close sink => some sink
  | _ => none

theorem Settles.entry?_eq {use : Use} {sink : Nat} (h : use.Settles sink) (leads : Nat → Prop)
    [DecidablePred leads] : use.entry? leads = none := by
  rcases h with rfl | rfl <;> rfl

theorem entry?_eq_none {leads : Nat → Prop} [DecidablePred leads] {use : Use}
    (h : ∀ sink data, use = .write sink data → ¬ leads sink) : use.entry? leads = none := by
  cases use with
  | write sink data => exact if_neg (h sink data rfl)
  | _ => rfl

theorem closed?_eq_none {use : Use} (h : ∀ sink, ¬ use.Settles sink) : use.closed? = none := by
  cases use with
  | close sink => exact absurd (.inr rfl) (h sink)
  | _ => rfl

theorem Settles.sink_eq {use : Use} {sink other : Nat} (h : use.Settles sink)
    (h' : use.Settles other) : sink = other := by
  rcases h with rfl | rfl <;> rcases h' with h' | h' <;> cases h' <;> rfl

end Use

namespace Ledger

/-- A write waits or lands with what waited of its sink; a settled sink lands what waited of it. -/
inductive Turn (leads : Nat → Prop) : Use → Ledger → Ledger → Prop where
  | aside {use : Use} {ledger : Ledger} (hsettles : ∀ sink, ¬ use.Settles sink)
      (hwrites : ∀ sink data, use = .write sink data → ¬ leads sink) :
      Turn leads use ledger ledger
  | settled {use : Use} {ledger : Ledger} {sink : Nat} (h : use.Settles sink) :
      Turn leads use ledger (ledger.land sink)
  | kept {ledger : Ledger} {sink : Nat} {data : Bytes} (h : leads sink) :
      Turn leads (.write sink data) ledger (ledger.enter ⟨sink, data⟩)
  | refilled {ledger : Ledger} {sink : Nat} {data : Bytes} (h : leads sink) :
      Turn leads (.write sink data) ledger ((ledger.land sink).enter ⟨sink, data⟩)
  | through {ledger : Ledger} {sink : Nat} {data : Bytes} (h : leads sink) :
      Turn leads (.write sink data) ledger (((ledger.land sink).enter ⟨sink, data⟩).land sink)

variable {leads : Nat → Prop} {use : Use} {ledger after : Ledger}

theorem landed_land (ledger : Ledger) (sink : Nat) : ledger.landed <+: (ledger.land sink).landed :=
  List.prefix_append _ _

theorem Turn.landed (h : Turn leads use ledger after) : ledger.landed <+: after.landed := by
  cases h with
  | aside => exact List.prefix_refl _
  | settled => exact ledger.landed_land _
  | kept => exact List.prefix_refl _
  | refilled => exact ledger.landed_land _
  | @through _ sink data _ =>
      exact (ledger.landed_land sink).trans (((ledger.land sink).enter ⟨sink, data⟩).landed_land _)

theorem of_waiting_land (ledger : Ledger) (sink : Nat) :
    of sink (ledger.land sink).waiting = [] := by
  rw [land, FileWrite.of_besides, if_pos rfl]

theorem of_waiting_land_of_ne (ledger : Ledger) {sink other : Nat} (h : other ≠ sink) :
    of other (ledger.land sink).waiting = of other ledger.waiting := by
  rw [land, FileWrite.of_besides, if_neg h]

theorem of_waiting_enter_of_ne (ledger : Ledger) {write : FileWrite} {other : Nat}
    (h : other ≠ write.sink) : of other (ledger.enter write).waiting = of other ledger.waiting := by
  simp [enter, FileWrite.of_append, FileWrite.of_singleton, Ne.symm h]

/-- What waits of a sink has just been written, or it has waited before. -/
theorem Turn.of_waiting (h : Turn leads use ledger after) {sink : Nat}
    (hwaits : of sink after.waiting ≠ []) :
    (∃ data, use = .write sink data ∧ leads sink) ∨
      (of sink ledger.waiting ≠ [] ∧ ¬ use.Settles sink) := by
  -- a write leaves what waits of all other sinks
  have hwritten : ∀ {other : Nat} {data : Bytes}, leads other →
      (sink ≠ other → of sink after.waiting = of sink ledger.waiting) →
      (∃ more, Use.write other data = .write sink more ∧ leads sink) ∨
        (of sink ledger.waiting ≠ [] ∧ ¬ (Use.write other data).Settles sink) := by
    intro other data hother hsame
    by_cases hs : sink = other
    · subst hs
      exact .inl ⟨data, rfl, hother⟩
    · rw [hsame hs] at hwaits
      exact .inr ⟨hwaits, by simp [Use.Settles]⟩
  cases h with
  | aside hsettles hwrites => exact .inr ⟨hwaits, hsettles sink⟩
  | @settled _ _ other hother =>
      by_cases hs : sink = other
      · subst hs
        exact absurd (ledger.of_waiting_land sink) hwaits
      · rw [ledger.of_waiting_land_of_ne hs] at hwaits
        exact .inr ⟨hwaits, fun h => hs (h.sink_eq hother)⟩
  | kept hother => exact hwritten hother fun hs => of_waiting_enter_of_ne _ hs
  | refilled hother =>
      refine hwritten hother fun hs => ?_
      rw [of_waiting_enter_of_ne _ hs, of_waiting_land_of_ne _ hs]
  | through hother =>
      refine hwritten hother fun hs => ?_
      rw [of_waiting_land_of_ne _ hs, of_waiting_enter_of_ne _ hs, of_waiting_land_of_ne _ hs]

/-! ## One sink at a time -/

/-- The file and what waits behind it hold all writes in the order in which they were made, and what
waits is of one sink that is still open. -/
structure InOrder (leads : Nat → Prop) (closed : List Nat) (written : List FileWrite)
    (ledger : Ledger) : Prop where
  whole : written = ledger.landed ++ ledger.waiting
  single : ∀ first ∈ ledger.waiting, ∀ second ∈ ledger.waiting, first.sink = second.sink
  held : ∀ write ∈ ledger.waiting, leads write.sink ∧ write.sink ∉ closed

variable {closed : List Nat} {written : List FileWrite}

/-- All that waits is of the sink that lands, or nothing is. -/
theorem InOrder.land (h : ledger.InOrder leads closed written) (sink : Nat) :
    (ledger.land sink).InOrder leads (closed ++ [sink]) written := by
  by_cases hown : ∃ write ∈ ledger.waiting, write.sink = sink
  · obtain ⟨write, hwrite, rfl⟩ := hown
    have hall : of write.sink ledger.waiting = ledger.waiting :=
      List.filter_eq_self.2 fun other hother => by simpa using h.single other hother write hwrite
    have hnone : besides write.sink ledger.waiting = [] :=
      List.filter_eq_nil_iff.2 fun other hother => by simpa using h.single other hother write hwrite
    constructor <;> simp [Ledger.land, hall, hnone, h.whole]
  · have hne : ∀ write ∈ ledger.waiting, write.sink ≠ sink := fun write hwrite heq =>
      hown ⟨write, hwrite, heq⟩
    have hnone : of sink ledger.waiting = [] :=
      List.filter_eq_nil_iff.2 fun write hwrite => by simpa using hne write hwrite
    have hall : besides sink ledger.waiting = ledger.waiting :=
      List.filter_eq_self.2 fun write hwrite => by simpa using hne write hwrite
    simp only [Ledger.land, hnone, hall, List.append_nil]
    exact
      { h with
        held := fun write hwrite => ⟨(h.held write hwrite).1, by
          simpa using ⟨(h.held write hwrite).2, hne write hwrite⟩⟩ }

theorem InOrder.mono (h : ledger.InOrder leads closed written) {wider : Nat → Prop}
    {fewer : List Nat} (hwider : ∀ sink, leads sink → wider sink)
    (hfewer : ∀ sink ∈ fewer, sink ∈ closed) : ledger.InOrder wider fewer written :=
  { h with
    held := fun write hwrite => ⟨hwider _ (h.held write hwrite).1, fun hclosed =>
      (h.held write hwrite).2 (hfewer _ hclosed)⟩ }

/-- A sink is written while it is open and all others that lead to the file are closed. -/
def Yields (leads : Nat → Prop) (closed : List Nat) : Use → Prop
  | .write sink _ =>
      leads sink → sink ∉ closed ∧ ∀ other, leads other → other ≠ sink → other ∈ closed
  | _ => True

theorem InOrder.enter (h : ledger.InOrder leads closed written) {sink : Nat} {data : Bytes}
    (hleads : leads sink) (hyields : Yields leads closed (.write sink data)) :
    (ledger.enter ⟨sink, data⟩).InOrder leads closed (written ++ [⟨sink, data⟩]) := by
  obtain ⟨hopen, hothers⟩ := hyields hleads
  have hown : ∀ write ∈ (ledger.enter ⟨sink, data⟩).waiting, write.sink = sink := by
    intro write hwrite
    rcases List.mem_append.1 hwrite with hold | hnew
    · by_contra hne
      obtain ⟨hold, hheld⟩ := h.held write hold
      exact hheld (hothers write.sink hold hne)
    · rw [List.mem_singleton.1 hnew]
  constructor
  · simp [Ledger.enter, h.whole]
  · intro first hfirst second hsecond
    rw [hown first hfirst, hown second hsecond]
  · intro write hwrite
    rw [hown write hwrite]
    exact ⟨hleads, hopen⟩

theorem Turn.inOrder [DecidablePred leads] (h : Turn leads use ledger after)
    (inOrder : ledger.InOrder leads closed written) (hyields : Yields leads closed use) :
    after.InOrder leads (closed ++ use.closed?.toList)
      (written ++ (use.entry? leads).toList) := by
  have hland : ∀ {ledger : Ledger} {written : List FileWrite} (sink : Nat),
      ledger.InOrder leads closed written → (ledger.land sink).InOrder leads closed written :=
    fun sink h => (h.land sink).mono (fun _ => id) fun _ => List.mem_append_left _
  cases h with
  | aside hsettles hwrites =>
      rw [Use.closed?_eq_none hsettles, Use.entry?_eq_none hwrites]
      simpa using inOrder
  | @settled _ _ sink hsink =>
      rw [hsink.entry?_eq leads, Option.toList_none, List.append_nil]
      refine (inOrder.land sink).mono (fun _ => id) fun other hother => ?_
      rcases hsink with rfl | rfl
      · exact List.mem_append_left _ (by simpa [Use.closed?] using hother)
      · exact hother
  | kept hleads =>
      simpa [Use.closed?, Use.entry?, hleads] using inOrder.enter hleads hyields
  | @refilled _ sink data hleads =>
      simpa [Use.closed?, Use.entry?, hleads] using (hland sink inOrder).enter hleads hyields
  | @through _ sink data hleads =>
      simpa [Use.closed?, Use.entry?, hleads] using
        hland sink ((hland sink inOrder).enter hleads hyields)

end Ledger

end Logbook
