import Logbook.Proofs.Frames
import Logbook.Proofs.PairedForests
import Logbook.Proofs.PairedOutlets
import Logbook.Proofs.SteadyFormats

/-!
# Paired sessions

Two sessions that went the same way, but that in the second some routers and formatters were made in
between and one logger may be set otherwise. Whatever is named by handles is the same up to places:
later routers and formatters stand behind those that were made in between. The invariant says
nothing about what sinks hold, nor about the endpoints of routers.
-/

namespace Logbook

variable {σ : Type}

/-! ## Places -/

/-- From a start on, places move by a width. -/
structure Shift where
  start : Nat := 0
  width : Nat := 0

namespace Shift

variable {shift : Shift}

def moved (shift : Shift) (index : Nat) : Nat :=
  if index < shift.start then index else index + shift.width

theorem moved_injective {index other : Nat} (h : shift.moved index = shift.moved other) :
    index = other := by
  unfold moved at h
  split at h <;> split at h <;> omega

/-- A list goes on behind the start, and another one has the width more. -/
structure Fits (shift : Shift) (length length' : Nat) : Prop where
  start : shift.start ≤ length
  width : length' = length + shift.width

theorem Fits.moved_length {length length' : Nat} (fits : shift.Fits length length') :
    shift.moved length = length' := by
  rw [moved, if_neg (Nat.not_lt.2 fits.start), fits.width]

theorem Fits.succ {length length' : Nat} (fits : shift.Fits length length') :
    shift.Fits (length + 1) (length' + 1) where
  start := Nat.le_succ_of_le fits.start
  width := by
    have := fits.width
    omega

theorem Fits.moved_lt {length length' index : Nat} (fits : shift.Fits length length')
    (h : index < length) : shift.moved index < length' := by
  have := fits.width
  unfold moved
  split <;> omega

/-- A place in a list and the place that it moves to. -/
def Links (shift : Shift) (length index other : Nat) : Prop :=
  index < length ∧ other = shift.moved index

theorem Links.mono {length length' index other : Nat} (h : shift.Links length index other)
    (hle : length ≤ length') : shift.Links length' index other :=
  ⟨Nat.lt_of_lt_of_le h.1 hle, h.2⟩

theorem links_last {length length' : Nat} (fits : shift.Fits length length') :
    shift.Links (length + 1) length length' := ⟨Nat.lt_succ_self length, fits.moved_length.symm⟩

end Shift

structure Renaming where
  routers : Shift := {}
  formatters : Shift := {}

/-- The settings of a logger in two sessions; the fallbacks may differ. -/
structure Settings.Linked (names : Renaming) (routers formatters : Nat)
    (settings other : Settings) : Prop where
  formatter : names.formatters.Links formatters settings.formatter other.formatter
  router : names.routers.Links routers settings.router other.router
  prefixText : other.prefixText = settings.prefixText
  indent : other.indent = settings.indent
  exit : other.exit = settings.exit

/-! ## Formatters -/

namespace Formatter

/-- The formatters of two lists are alike at the places that belong together. -/
structure Paired (shift : Shift) (first second : List (Formatter σ)) : Prop where
  fits : shift.Fits first.length second.length
  alike : ∀ index formatter, first[index]? = some formatter →
    ∃ other, second[shift.moved index]? = some other ∧ formatter.Alike other

namespace Paired

variable {shift : Shift} {first second : List (Formatter σ)}

theorem append (paired : Paired shift first second) {formatter other : Formatter σ}
    (h : formatter.Alike other) : Paired shift (first ++ [formatter]) (second ++ [other]) where
  fits := by
    rw [List.length_append, List.length_append]
    exact paired.fits.succ
  alike index found hfound := by
    rcases Nat.lt_or_ge index first.length with hlt | hge
    · rw [List.getElem?_append_left hlt] at hfound
      obtain ⟨other, hother, halike⟩ := paired.alike index found hfound
      rw [List.getElem?_append_left (paired.fits.moved_lt hlt)]
      exact ⟨other, hother, halike⟩
    · have hlast : index = first.length := by
        have hindex := (List.getElem?_eq_some_iff.1 hfound).1
        rw [List.length_append, List.length_singleton] at hindex
        omega
      subst hlast
      rw [List.getElem?_concat_length] at hfound
      cases hfound
      rw [paired.fits.moved_length, List.getElem?_concat_length]
      exact ⟨other, rfl, h⟩

theorem set (paired : Paired shift first second) (index : Nat) {formatter other : Formatter σ}
    (h : formatter.Alike other) :
    Paired shift (first.set index formatter) (second.set (shift.moved index) other) where
  fits := by
    rw [List.length_set, List.length_set]
    exact paired.fits
  alike place found hfound := by
    by_cases hplace : index = place
    · subst hplace
      have hlt : index < first.length := by
        simpa using (List.getElem?_eq_some_iff.1 hfound).1
      rw [List.getElem?_set_self hlt] at hfound
      cases hfound
      rw [List.getElem?_set_self (paired.fits.moved_lt hlt)]
      exact ⟨other, rfl, h⟩
    · have hmoved : shift.moved index ≠ shift.moved place :=
        fun heq => hplace (Shift.moved_injective heq)
      rw [List.getElem?_set_ne hplace] at hfound
      rw [List.getElem?_set_ne hmoved]
      exact paired.alike place found hfound

theorem used (paired : Paired shift first second) {index : Nat} {formatter : Formatter σ}
    (h : first[index]? = some formatter) {move : FormatterMove σ} (idle : move.Idle) :
    Paired shift (first.set index (formatter.moved move)) second where
  fits := by
    rw [List.length_set]
    exact paired.fits
  alike place found hfound := by
    by_cases hplace : index = place
    · subst hplace
      rw [List.getElem?_set_self (List.getElem?_eq_some_iff.1 h).1] at hfound
      cases hfound
      obtain ⟨other, hother, halike⟩ := paired.alike index formatter h
      exact ⟨other, hother, halike.used idle⟩
    · rw [List.getElem?_set_ne hplace] at hfound
      exact paired.alike place found hfound

theorem used' (paired : Paired shift first second) {index : Nat} {formatter : Formatter σ}
    (h : second[index]? = some formatter) {move : FormatterMove σ} (idle : move.Idle) :
    Paired shift first (second.set index (formatter.moved move)) where
  fits := by
    rw [List.length_set]
    exact paired.fits
  alike place found hfound := by
    obtain ⟨other, hother, halike⟩ := paired.alike place found hfound
    by_cases hplace : index = shift.moved place
    · subst hplace
      rw [h] at hother
      cases hother
      rw [List.getElem?_set_self (List.getElem?_eq_some_iff.1 h).1]
      exact ⟨_, rfl, halike.used' idle⟩
    · rw [List.getElem?_set_ne hplace]
      exact ⟨other, hother, halike⟩

end Paired

end Formatter

namespace Session

/-! ## Pairs -/

/-- What two sessions need not share: the settings of one logger, and the formatters that handles
name which read them back from it. -/
structure Apart where
  logger : Option Nat := none
  handles : List String := []

def Apart.shares (apart : Apart) (handle : String) : Apart :=
  { apart with handles := apart.handles.filter (· ≠ handle) }

/-- The invariant of two runs: all that handles name is there in both sessions, at places that
belong together, and all loggers but one are set alike. -/
structure Paired (apart : Apart) (names : Renaming) (first second : Session σ) : Prop where
  outlets : first.outlets.Paired second.outlets
  sinkHandles : second.sinkHandles = first.sinkHandles
  routers : names.routers.Fits first.routers.length second.routers.length
  routerHandles : ∀ handle, second.routerHandles.find? handle =
    (first.routerHandles.find? handle).map names.routers.moved
  routersMade : ∀ handle, ∀ router ∈ first.routerHandles.find? handle,
    router < first.routers.length
  formatters : Formatter.Paired names.formatters first.formatters second.formatters
  formatterHandles : ∀ handle, handle ∉ apart.handles → second.formatterHandles.find? handle =
    (first.formatterHandles.find? handle).map fun found =>
      { found with index := names.formatters.moved found.index }
  formattersMade : ∀ handle, handle ∉ apart.handles →
    ∀ found ∈ first.formatterHandles.find? handle, found.index < first.formatters.length
  loggers : Forest.Paired apart.logger
    (Settings.Linked names first.routers.length first.formatters.length) first.loggers
    second.loggers
  honest : first.desk.memo.Honest
  honest' : second.desk.memo.Honest

namespace Paired

variable {apart : Apart} {names : Renaming} {first second : Session σ}

/-- Changes of outlets that neither add sinks nor files. -/
theorem calm (paired : Paired apart names first second) {outlets outlets' : Outlets}
    (h : first.outlets.Calm outlets) (h' : second.outlets.Calm outlets') :
    Paired apart names { first with outlets } { second with outlets := outlets' } :=
  { paired with outlets := paired.outlets.calm h h' }

/-- What is no longer held is closed on both sides. -/
theorem release (paired : Paired apart names first second) (before before' : Session σ) :
    Paired apart names (before.release first) (before'.release second) :=
  paired.calm (Outlets.calm_closeAll paired.outlets.opened _)
    (Outlets.calm_closeAll paired.outlets.opened' _)

theorem setDesk (paired : Paired apart names first second) {desk desk' : Desk σ}
    (h : desk.memo.Honest) (h' : desk'.memo.Honest) :
    Paired apart names { first with desk } { second with desk := desk' } :=
  { paired with honest := h, honest' := h' }

theorem setLoggers (paired : Paired apart names first second) {loggers loggers' : Forest Settings}
    (h : Forest.Paired apart.logger
      (Settings.Linked names first.routers.length first.formatters.length) loggers loggers') :
    Paired apart names { first with loggers } { second with loggers := loggers' } :=
  { paired with loggers := h }

theorem addSink (paired : Paired apart names first second) {sink : Sink}
    (h : ∀ place, sink.medium? = some (.file place) →
      (first.outlets.host.disk.files.find? place).isSome) :
    Paired apart names (first.addSink sink).2 (second.addSink sink).2 :=
  { paired with outlets := paired.outlets.add h }

theorem wrap (paired : Paired apart names first second) (sink sink' : Nat) :
    Paired apart names (first.wrap sink).2 (second.wrap sink').2 := { paired with }

theorem addRouter (paired : Paired apart names first second) (router router' : Router) :
    Paired apart names (first.addRouter router).2 (second.addRouter router').2 :=
  { paired with
    routers := by
      simp only [Session.addRouter, List.length_append, List.length_singleton]
      exact paired.routers.succ
    routersMade := fun handle router hrouter => by
      simp only [Session.addRouter, List.length_append, List.length_singleton]
      exact Nat.lt_succ_of_lt (paired.routersMade handle router hrouter)
    loggers := paired.loggers.mono fun settings other linked =>
      { linked with router := linked.router.mono (by simp [Session.addRouter]) } }

theorem addFormatter (paired : Paired apart names first second) {formatter other : Formatter σ}
    (h : formatter.Alike other) :
    Paired apart names (first.addFormatter formatter).2 (second.addFormatter other).2 :=
  { paired with
    formatters := paired.formatters.append h
    formattersMade := fun handle hshared found hfound => by
      simp only [Session.addFormatter, List.length_append, List.length_singleton]
      exact Nat.lt_succ_of_lt (paired.formattersMade handle hshared found hfound)
    loggers := paired.loggers.mono fun settings other linked =>
      { linked with formatter := linked.formatter.mono (by simp [Session.addFormatter]) } }

theorem links_addRouter (paired : Paired apart names first second) (router router' : Router) :
    names.routers.Links (first.addRouter router).2.routers.length (first.addRouter router).1
      (second.addRouter router').1 := by
  simp only [Session.addRouter, List.length_append, List.length_singleton]
  exact Shift.links_last paired.routers

theorem links_addFormatter (paired : Paired apart names first second)
    (formatter other : Formatter σ) :
    names.formatters.Links (first.addFormatter formatter).2.formatters.length
      (first.addFormatter formatter).1 (second.addFormatter other).1 := by
  simp only [Session.addFormatter, List.length_append, List.length_singleton]
  exact Shift.links_last paired.formatters.fits

/-! ## Handles -/

theorem nameRouter (paired : Paired apart names first second) (handle : String)
    (router router' : Router) :
    Paired apart names (first.nameRouter handle router) (second.nameRouter handle router') := by
  have hadded := paired.addRouter router router'
  obtain ⟨hlt, hplace⟩ := paired.links_addRouter router router'
  refine { hadded with routerHandles := fun other => ?_, routersMade := fun other place hmem => ?_ }
  · simp only [Session.nameRouter, Table.find?_insert, hplace]
    split
    · rfl
    · exact hadded.routerHandles other
  · simp only [Session.nameRouter, Table.find?_insert] at hmem
    split at hmem
    · cases hmem
      exact hlt
    · exact hadded.routersMade other place hmem

theorem nameFormatterAt (paired : Paired apart names first second) (handle : String)
    {index index' : Nat} (h : names.formatters.Links first.formatters.length index index')
    (borrowed : Bool) :
    Paired (apart.shares handle) names
      { first with formatterHandles := first.formatterHandles.insert handle ⟨index, borrowed⟩ }
      { second with
        formatterHandles := second.formatterHandles.insert handle ⟨index', borrowed⟩ } := by
  obtain ⟨hlt, rfl⟩ := h
  have hold : ∀ other, handle ≠ other → other ∉ (apart.shares handle).handles →
      other ∉ apart.handles := fun other hne hshared hmem =>
    hshared (List.mem_filter.2 ⟨hmem, decide_eq_true hne.symm⟩)
  refine { paired with
    formatterHandles := fun other hshared => ?_
    formattersMade := fun other hshared found hmem => ?_ }
  · simp only [Table.find?_insert]
    split
    · rfl
    · rename_i hne
      exact paired.formatterHandles other (hold other hne hshared)
  · simp only [Table.find?_insert] at hmem
    split at hmem
    · cases hmem
      exact hlt
    · rename_i hne
      exact paired.formattersMade other (hold other hne hshared) found hmem

/-- Sessions need not share what they do share. -/
theorem apart_cons (paired : Paired apart names first second) (handle : String) :
    Paired { apart with handles := handle :: apart.handles } names first second :=
  { paired with
    formatterHandles := fun other hshared =>
      paired.formatterHandles other (List.not_mem_of_not_mem_cons hshared)
    formattersMade := fun other hshared =>
      paired.formattersMade other (List.not_mem_of_not_mem_cons hshared) }

/-- A handle for whatever formatters, which the sessions need not share any more. -/
theorem nameApart (paired : Paired apart names first second) (handle : String)
    (found found' : FormatterHandle) :
    Paired { apart with handles := handle :: apart.handles } names
      { first with formatterHandles := first.formatterHandles.insert handle found }
      { second with formatterHandles := second.formatterHandles.insert handle found' } := by
  refine { paired with
    formatterHandles := fun other hshared => ?_
    formattersMade := fun other hshared found hmem => ?_ }
  · have hne := (List.ne_of_not_mem_cons hshared).symm
    simp only [Table.find?_insert, if_neg hne]
    exact paired.formatterHandles other (List.not_mem_of_not_mem_cons hshared)
  · have hne := (List.ne_of_not_mem_cons hshared).symm
    simp only [Table.find?_insert, if_neg hne] at hmem
    exact paired.formattersMade other (List.not_mem_of_not_mem_cons hshared) found hmem

theorem nameFormatter (paired : Paired apart names first second) (handle : String)
    {formatter other : Formatter σ} (h : formatter.Alike other) :
    Paired (apart.shares handle) names (first.nameFormatter handle formatter)
      (second.nameFormatter handle other) :=
  (paired.addFormatter h).nameFormatterAt handle (paired.links_addFormatter formatter other) false

theorem nameSink (paired : Paired apart names first second) (handle : String) {sink : Sink}
    (h : ∀ place, sink.medium? = some (.file place) →
      (first.outlets.host.disk.files.find? place).isSome) :
    Paired apart names (first.nameSink handle sink) (second.nameSink handle sink) :=
  { paired.addSink h with
    sinkHandles := by
      simp only [Session.nameSink, Session.addSink, paired.sinkHandles, paired.outlets.length] }

/-! ## Named things -/

theorem withSink (paired : Paired apart names first second) {handle : String}
    {act act' : Nat → Sink → Result σ}
    (h : ∀ index sink sink', first.outlets.sink? index = some sink →
      second.outlets.sink? index = some sink' →
        Paired apart names (act index sink).2 (act' index sink').2) :
    Paired apart names (first.withSink handle act).2 (second.withSink handle act').2 := by
  unfold Session.withSink
  rw [paired.sinkHandles]
  cases first.sinkHandles.find? handle with
  | none => exact paired
  | some index =>
      dsimp only
      have hlength := paired.outlets.length
      rcases Nat.lt_or_ge index first.outlets.sinks.length with hlt | hge
      · have hlt' : index < second.outlets.sinks.length := by
          rw [hlength]
          exact hlt
        have hsink : first.outlets.sink? index = some first.outlets.sinks[index] :=
          List.getElem?_eq_getElem hlt
        have hsink' : second.outlets.sink? index = some second.outlets.sinks[index] :=
          List.getElem?_eq_getElem hlt'
        rw [hsink, hsink']
        exact h index _ _ hsink hsink'
      · have hnone : first.outlets.sink? index = none := List.getElem?_eq_none hge
        have hnone' : second.outlets.sink? index = none :=
          List.getElem?_eq_none (by rw [hlength]; exact hge)
        rw [hnone, hnone']
        exact paired

theorem withRouter (paired : Paired apart names first second) {handle : String}
    {act act' : Nat → Result σ}
    (h : ∀ index, index < first.routers.length →
      Paired apart names (act index).2 (act' (names.routers.moved index)).2) :
    Paired apart names (first.withRouter handle act).2 (second.withRouter handle act').2 := by
  unfold Session.withRouter
  rw [paired.routerHandles]
  cases hfind : first.routerHandles.find? handle with
  | none => exact paired
  | some index => exact h index (paired.routersMade handle index hfind)

theorem withFormatter (paired : Paired apart names first second) {handle : String}
    (hshared : handle ∉ apart.handles) {act act' : Nat → Formatter σ → Result σ}
    (h : ∀ index formatter other, first.formatters[index]? = some formatter →
      second.formatters[names.formatters.moved index]? = some other → formatter.Alike other →
        Paired apart names (act index formatter).2
          (act' (names.formatters.moved index) other).2) :
    Paired apart names (first.withFormatter handle act).2
      (second.withFormatter handle act').2 := by
  unfold Session.withFormatter
  rw [paired.formatterHandles handle hshared]
  cases hfind : first.formatterHandles.find? handle with
  | none => exact paired
  | some found =>
      have hlt := paired.formattersMade handle hshared found hfind
      have hat : first.formatters[found.index]? = some first.formatters[found.index] :=
        List.getElem?_eq_getElem hlt
      obtain ⟨other, hother, halike⟩ := paired.formatters.alike found.index _ hat
      simp only [Option.map_some, hat, hother]
      exact h found.index _ other hat hother halike

theorem withLogger (paired : Paired apart names first second) {handle : String}
    {act act' : Nat → Result σ}
    (h : ∀ index, first.loggers.find? handle = some index →
      Paired apart names (act index).2 (act' index).2) :
    Paired apart names (first.withLogger handle act).2 (second.withLogger handle act').2 := by
  unfold Session.withLogger
  rw [paired.loggers.find?]
  cases hfind : first.loggers.find? handle with
  | none => exact paired
  | some index => exact h index hfind

end Paired

end Session

end Logbook
