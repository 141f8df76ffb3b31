import Logbook.Proofs.FileLedgers
import Logbook.Proofs.SparedSinks

/-!
# Writes to files

What a list of uses leaves in a file to which several sinks append: what was in it before and the
data of whole writes, each sink's in order. A flush or the end of a sink brings all its writes into
the file, and sinks that take turns keep the order of all writes.
-/

namespace Logbook

open FileWrite (of octets)

/-! ## Files and buffers -/

namespace FileSink

theorem pending_openAt {path : Text} {disk after : Disk} {opened : FileSink}
    (h : openAt path disk = .ok (opened, after)) : opened.pending = [] := by
  unfold openAt at h
  split at h
  · cases h
    rfl
  · cases h

end FileSink

def Sink.pendingFor (place : Place) : Sink → Bytes
  | .file opened => if opened.place = place then opened.pending else []
  | _ => []

theorem Sink.pendingFor_of_ne {sink : Sink} {place : Place}
    (h : sink.medium? ≠ some (.file place)) : sink.pendingFor place = [] := by
  cases sink with
  | file opened => exact if_neg fun heq => h (by rw [medium?, heq])
  | _ => rfl

namespace Outlets

def contents (outlets : Outlets) (place : Place) : Bytes := outlets.host.disk.contents place

def pending (outlets : Outlets) (place : Place) (index : Nat) : Bytes :=
  (outlets.sink? index).elim [] (Sink.pendingFor place)

def Leads (outlets : Outlets) (place : Place) (index : Nat) : Prop :=
  outlets.media[index]? = some (some (.file place))

instance (outlets : Outlets) (place : Place) : DecidablePred (outlets.Leads place) :=
  fun _ => inferInstanceAs (Decidable (_ = _))

theorem leads_iff {outlets : Outlets} {place : Place} {index : Nat} {sink : Sink}
    (h : outlets.sink? index = some sink) :
    outlets.Leads place index ↔ sink.medium? = some (.file place) := by
  rw [Leads, getElem?_media h, Option.some_inj]

theorem Leads.exists_opened {outlets : Outlets} {place : Place} {index : Nat}
    (h : outlets.Leads place index) :
    ∃ opened, outlets.sink? index = some (.file opened) ∧ opened.place = place := by
  unfold Leads media at h
  rw [List.getElem?_map] at h
  obtain ⟨sink, hsink, hmedium⟩ := Option.map_eq_some_iff.1 h
  cases sink with
  | file opened =>
      simp only [Sink.medium?, Option.some.injEq, Medium.file.injEq] at hmedium
      exact ⟨opened, hsink, hmedium⟩
  | _ => cases hmedium

theorem pending_of_not_leads {outlets : Outlets} {place : Place} {index : Nat}
    (h : ¬ outlets.Leads place index) : outlets.pending place index = [] := by
  unfold pending
  cases hs : outlets.sink? index with
  | none => rfl
  | some sink => exact Sink.pendingFor_of_ne fun hm => h ((leads_iff hs).2 hm)

/-! ## One use -/

section

variable {outlets : Outlets} {place : Place} {index : Nat} {sink after : Sink} {host : Host}

theorem pending_add (h : sink.pendingFor place = []) (outlets : Outlets) :
    (outlets.add sink).pending place = outlets.pending place := by
  funext other
  unfold pending sink? add
  rcases Nat.lt_trichotomy other outlets.sinks.length with hlt | rfl | hlt
  · rw [List.getElem?_append_left hlt]
  · simp [h]
  · have hadded : (outlets.sinks ++ [sink]).length ≤ other := by
      rw [List.length_append, List.length_singleton]
      omega
    rw [List.getElem?_eq_none hadded, List.getElem?_eq_none (by omega)]

theorem pending_replace (hs : outlets.sink? index = some sink) :
    ({ outlets.set index after with host } : Outlets).pending place =
      Function.update (outlets.pending place) index (after.pendingFor place) := by
  funext other
  by_cases ho : other = index
  · subst ho
    have hself := sink?_set_self (List.getElem?_eq_some_iff.1 hs).1 after
    rw [Function.update_self]
    exact congrArg (Option.elim · [] (Sink.pendingFor place)) hself
  · have hother := sink?_set_of_ne outlets (Ne.symm ho) after
    rw [Function.update_of_ne ho]
    exact congrArg (Option.elim · [] (Sink.pendingFor place)) hother

theorem pending_replace_of_ne (hs : outlets.sink? index = some sink)
    (hm : after.medium? = sink.medium?) (h : ¬ outlets.Leads place index) :
    ({ outlets.set index after with host } : Outlets).pending place = outlets.pending place := by
  have hne : after.medium? ≠ some (.file place) := fun heq => h ((leads_iff hs).2 (hm ▸ heq))
  rw [pending_replace hs, Sink.pendingFor_of_ne hne, ← pending_of_not_leads h,
    Function.update_eq_self]

/-- A use that leaves a file and all that is buffered for it. -/
def Stays (place : Place) (before after : Outlets) : Prop :=
  after.contents place = before.contents place ∧ after.pending place = before.pending place

/-- A use that brings all that is buffered by a sink to its file. -/
def Empties (place : Place) (index : Nat) (before after : Outlets) : Prop :=
  after.contents place = before.contents place ++ before.pending place index ∧
    after.pending place = Function.update (before.pending place) index []

theorem Stays.empties {before : Outlets} {other : Outlets} (h : Stays place before other)
    (hnone : before.pending place index = []) : Empties place index before other := by
  constructor
  · rw [h.1, hnone, List.append_nil]
  · rw [h.2, ← hnone, Function.update_eq_self]

theorem stays_make (plan : SinkPlan) (outlets : Outlets) :
    Stays place outlets (outlets.make plan) := by
  cases plan with
  | file path =>
      simp only [make, openFile]
      cases ho : FileSink.openAt path outlets.host.disk with
      | error error => exact ⟨rfl, rfl⟩
      | ok result =>
          obtain ⟨opened, disk⟩ := result
          have hempty : (Sink.file opened).pendingFor place = [] := by
            simp [Sink.pendingFor, FileSink.pending_openAt ho]
          exact ⟨Disk.contents_openAt ho place, pending_add hempty _⟩
  | _ => exact ⟨rfl, pending_add rfl outlets⟩

theorem stays_makeDirectory (path : Text) (outlets : Outlets) :
    Stays place outlets (outlets.use (.makeDirectory path)) := by
  refine ⟨?_, rfl⟩
  simp only [use, contents, Disk.contents, Disk.files_makeDirectories]

theorem stays_drain (outlets : Outlets) (index : Nat) :
    Stays place outlets (outlets.drain index) := by
  unfold drain
  split
  · rename_i memory hs
    have hne : ¬ outlets.Leads place index := by
      intro h
      obtain ⟨opened, hopened, -⟩ := h.exists_opened
      rw [hs] at hopened
      cases hopened
    have hsame : ({ outlets.set index (.memory memory.drain.2) with
        host := outlets.host } : Outlets).pending place = outlets.pending place :=
      pending_replace_of_ne hs rfl hne
    exact ⟨rfl, hsame⟩
  · exact ⟨rfl, rfl⟩

theorem stays_write (h : ¬ outlets.Leads place index) (data : Bytes) :
    Stays place outlets (write index data outlets).2 := by
  unfold write
  cases hs : outlets.sink? index with
  | none => exact ⟨rfl, rfl⟩
  | some sink =>
      have hne : sink.medium? ≠ some (.file place) := fun heq => h ((leads_iff hs).2 heq)
      have hstays : Stays place outlets
          { outlets.set index (sink.write data outlets.host).2.1 with
            host := (sink.write data outlets.host).2.2 } :=
        ⟨Sink.contents_write_of_ne hne data outlets.host,
          pending_replace_of_ne hs (sink.medium?_write data outlets.host) h⟩
      dsimp only
      split
      · exact hstays
      · exact hstays

theorem empties_flush (outlets : Outlets) (index : Nat) :
    Empties place index outlets (flush index outlets).2 := by
  unfold flush
  cases hs : outlets.sink? index with
  | none =>
      exact Stays.empties ⟨rfl, rfl⟩ (by simp [pending, hs])
  | some sink =>
      by_cases h : outlets.Leads place index
      · obtain ⟨opened, hopened, rfl⟩ := h.exists_opened
        rw [hs] at hopened
        cases hopened
        constructor
        · simp [Sink.flush, contents, FileSink.flush, pending, hs, Sink.pendingFor]
        · refine (pending_replace hs).trans ?_
          simp [Sink.flush, FileSink.flush, Sink.pendingFor]
      · have hne : sink.medium? ≠ some (.file place) := fun heq => h ((leads_iff hs).2 heq)
        refine Stays.empties ⟨?_, ?_⟩ (pending_of_not_leads h)
        · exact Sink.contents_flush_of_ne hne outlets.host
        · exact pending_replace_of_ne hs (sink.medium?_flush outlets.host) h

theorem empties_close (outlets : Outlets) (index : Nat) :
    Empties place index outlets (outlets.close index) := by
  unfold close
  split
  · rename_i opened hs
    have hflush : Empties place index outlets (flush index outlets).2 :=
      empties_flush outlets index
    unfold flush at hflush
    rw [hs] at hflush
    exact hflush
  · rename_i hs
    refine Stays.empties ⟨rfl, rfl⟩ (pending_of_not_leads fun h => ?_)
    obtain ⟨opened, hopened, -⟩ := h.exists_opened
    exact hs opened hopened

theorem empties_of_settles (place : Place) {use : Use} (h : use.Settles index)
    (outlets : Outlets) :
    Empties place index outlets (outlets.use use) := by
  rcases h with rfl | rfl
  · exact empties_flush outlets index
  · exact empties_close outlets index

theorem stays_of_aside {use : Use} (hsettles : ∀ index, ¬ use.Settles index)
    (hwrites : ∀ index data, use = .write index data → ¬ outlets.Leads place index) :
    Stays place outlets (outlets.use use) := by
  cases use with
  | make plan => exact stays_make plan outlets
  | makeDirectory path => exact stays_makeDirectory path outlets
  | write index data => exact stays_write (hwrites index data rfl) data
  | drain index => exact stays_drain outlets index
  | flush index => exact absurd (.inl rfl) (hsettles index)
  | close index => exact absurd (.inr rfl) (hsettles index)

theorem write_file (place : Place) {opened : FileSink}
    (hs : outlets.sink? index = some (.file opened)) (data : Bytes) :
    let after := (write index data outlets).2
    let moved := opened.write data outlets.host.disk
    after.contents place = moved.2.contents place ∧
      after.pending place =
        Function.update (outlets.pending place) index ((Sink.file moved.1).pendingFor place) := by
  let moved := opened.write data outlets.host.disk
  have hpending : ({ outlets.set index (.file moved.1) with
      host := { outlets.host with disk := moved.2 } } : Outlets).pending place =
        Function.update (outlets.pending place) index ((Sink.file moved.1).pendingFor place) :=
    pending_replace hs
  unfold write
  rw [hs]
  dsimp only
  split
  · exact ⟨rfl, hpending⟩
  · exact ⟨rfl, hpending⟩

end

/-! ## Uses and the ledger -/

variable {outlets : Outlets} {place : Place} {old : Bytes} {written : List FileWrite}
  {ledger : Ledger}

theorem exists_turn_write {index : Nat} (h : outlets.Leads place index) (data : Bytes)
    (balanced : ledger.Balanced old written (outlets.contents place) (outlets.pending place)) :
    ∃ after, Ledger.Turn (outlets.Leads place) (.write index data) ledger after ∧
      after.Balanced old (written ++ [⟨index, data⟩])
        ((write index data outlets).2.contents place)
        ((write index data outlets).2.pending place) := by
  obtain ⟨opened, hs, rfl⟩ := h.exists_opened
  obtain ⟨hcontents, hpending⟩ := write_file opened.place hs data
  have hplace := opened.place_write data outlets.host.disk
  have hwaiting : outlets.pending opened.place index = opened.pending := by
    simp [pending, hs, Sink.pendingFor]
  rw [hcontents, hpending]
  simp only [Sink.pendingFor, hplace, if_pos]
  have hkept := balanced.enter ⟨index, data⟩
  have hrefilled := (balanced.land index).enter ⟨index, data⟩
  have hthrough := hrefilled.land index
  simp only [hwaiting, Function.update_self, Function.update_idem, List.nil_append] at *
  rcases opened.write_moves data outlets.host.disk with ⟨hfile, hbuffer⟩ | ⟨hfile, hbuffer⟩ |
    ⟨hfile, hbuffer⟩
  · exact ⟨_, .kept h, by rw [hfile, hbuffer]; exact hkept⟩
  · exact ⟨_, .refilled h, by rw [hfile, hbuffer]; exact hrefilled⟩
  · exact ⟨_, .through h, by rw [hfile, hbuffer]; exact hthrough⟩

/-- What one use does is a turn of the ledger. -/
theorem exists_turn (use : Use)
    (balanced : ledger.Balanced old written (outlets.contents place) (outlets.pending place)) :
    ∃ after, Ledger.Turn (outlets.Leads place) use ledger after ∧
      after.Balanced old (written ++ (use.entry? (outlets.Leads place)).toList)
        ((outlets.use use).contents place) ((outlets.use use).pending place) := by
  by_cases hsettles : ∃ sink, use.Settles sink
  · obtain ⟨sink, hsink⟩ := hsettles
    obtain ⟨hcontents, hpending⟩ := empties_of_settles place hsink outlets
    refine ⟨_, .settled hsink, ?_⟩
    rw [hsink.entry?_eq, hcontents, hpending, Option.toList_none, List.append_nil]
    exact balanced.land sink
  · have hnone : ∀ sink, ¬ use.Settles sink := fun sink h => hsettles ⟨sink, h⟩
    by_cases hwrites : ∃ sink data, use = .write sink data ∧ outlets.Leads place sink
    · obtain ⟨sink, data, rfl, hleads⟩ := hwrites
      simp only [Use.entry?, if_pos hleads, Option.toList_some]
      exact exists_turn_write hleads data balanced
    · have haside : ∀ sink data, use = .write sink data → ¬ outlets.Leads place sink :=
        fun sink data heq hleads => hwrites ⟨sink, data, heq, hleads⟩
      obtain ⟨hcontents, hpending⟩ := stays_of_aside hnone haside
      refine ⟨_, .aside hnone haside, ?_⟩
      rw [Use.entry?_eq_none haside, hcontents, hpending, Option.toList_none, List.append_nil]
      exact balanced

/-! ## Runs -/

theorem media_add (outlets : Outlets) (sink : Sink) :
    outlets.media <+: (outlets.add sink).media := by
  simp [media, add]

theorem media_flush (index : Nat) (outlets : Outlets) :
    (flush index outlets).2.media = outlets.media := by
  unfold flush
  cases hs : outlets.sink? index with
  | none => rfl
  | some sink => exact media_set hs (sink.medium?_flush outlets.host)

theorem media_use (outlets : Outlets) (use : Use) :
    outlets.media <+: (outlets.use use).media := by
  cases use with
  | make plan =>
      cases plan with
      | file path =>
          simp only [use, make, openFile]
          split
          · exact List.prefix_refl _
          · exact media_add _ _
      | _ => exact media_add outlets _
  | makeDirectory path => exact List.prefix_refl _
  | write index data => exact prefix_of_media_eq (media_write index data outlets)
  | flush index => exact prefix_of_media_eq (media_flush index outlets)
  | drain index =>
      simp only [use, drain]
      split
      · rename_i hs
        exact prefix_of_media_eq (media_set hs rfl)
      · exact List.prefix_refl _
  | close index =>
      simp only [use, close]
      split
      · rename_i hs
        exact prefix_of_media_eq (media_set hs rfl)
      · exact List.prefix_refl _

theorem Leads.use {index : Nat} (h : outlets.Leads place index) (use : Use) :
    (outlets.use use).Leads place index := by
  obtain ⟨more, hmore⟩ := media_use outlets use
  unfold Leads at *
  rw [← hmore, List.getElem?_append_left (List.getElem?_eq_some_iff.1 h).1, h]

def writesTo (place : Place) : Outlets → List Use → List FileWrite
  | _, [] => []
  | outlets, use :: rest =>
      (use.entry? (outlets.Leads place)).toList ++ writesTo place (outlets.use use) rest

/-- The sinks of a file take turns: one that has been closed is not written again, and one is
written only when all others that have been opened are closed. -/
def InTurn (place : Place) : List Nat → Outlets → List Use → Prop
  | _, _, [] => True
  | closed, outlets, use :: rest =>
      Ledger.Yields (outlets.Leads place) closed use ∧
        InTurn place (closed ++ use.closed?.toList) (outlets.use use) rest

/-- No write to a file is the last use of its sink: a flush or the end of the sink follows. -/
def AllSettled (place : Place) : Outlets → List Use → Prop
  | _, [] => True
  | outlets, use :: rest =>
      (∀ write ∈ (use.entry? (outlets.Leads place)).toList,
        ∃ later ∈ rest, later.Settles write.sink) ∧
        AllSettled place (outlets.use use) rest

theorem Leads.lt_length {index : Nat} (h : outlets.Leads place index) :
    index < outlets.media.length := (List.getElem?_eq_some_iff.1 h).1

instance decidableYields (outlets : Outlets) (place : Place) (closed : List Nat) :
    (use : Use) → Decidable (Ledger.Yields (outlets.Leads place) closed use)
  | .write sink _ =>
      decidable_of_iff
        (outlets.Leads place sink → sink ∉ closed ∧
          ∀ other < outlets.media.length, outlets.Leads place other → other ≠ sink →
            other ∈ closed)
        ⟨fun h hsink => ⟨(h hsink).1, fun other hother =>
            (h hsink).2 other hother.lt_length hother⟩,
          fun h hsink => ⟨(h hsink).1, fun other _ => (h hsink).2 other⟩⟩
  | .make _ | .makeDirectory _ | .flush _ | .drain _ | .close _ => isTrue trivial

instance decidableInTurn (place : Place) : (closed : List Nat) → (outlets : Outlets) →
    (uses : List Use) → Decidable (InTurn place closed outlets uses)
  | _, _, [] => isTrue trivial
  | closed, outlets, use :: rest =>
      have := decidableInTurn place (closed ++ use.closed?.toList) (outlets.use use) rest
      inferInstanceAs (Decidable (_ ∧ _))

instance decidableAllSettled (place : Place) : (outlets : Outlets) → (uses : List Use) →
    Decidable (AllSettled place outlets uses)
  | _, [] => isTrue trivial
  | outlets, use :: rest =>
      have := decidableAllSettled place (outlets.use use) rest
      inferInstanceAs (Decidable (_ ∧ _))

/-- A run of uses with a ledger that fits it at every step. -/
inductive Kept (place : Place) (old : Bytes) :
    Outlets → List FileWrite → List Use → Ledger → Ledger → Prop where
  | done (outlets : Outlets) (written : List FileWrite) (ledger : Ledger) :
      Kept place old outlets written [] ledger ledger
  | turn {outlets : Outlets} {written : List FileWrite} {use : Use} {rest : List Use}
      {ledger next after : Ledger}
      (turn : Ledger.Turn (outlets.Leads place) use ledger next)
      (balanced : next.Balanced old (written ++ (use.entry? (outlets.Leads place)).toList)
        ((outlets.use use).contents place) ((outlets.use use).pending place))
      (kept : Kept place old (outlets.use use)
        (written ++ (use.entry? (outlets.Leads place)).toList) rest next after) :
      Kept place old outlets written (use :: rest) ledger after

variable {uses : List Use} {after : Ledger}

theorem exists_kept (uses : List Use)
    (balanced : ledger.Balanced old written (outlets.contents place) (outlets.pending place)) :
    ∃ after, Kept place old outlets written uses ledger after := by
  induction uses generalizing outlets written ledger with
  | nil => exact ⟨ledger, .done outlets written ledger⟩
  | cons use rest ih =>
      obtain ⟨next, hturn, hnext⟩ := exists_turn use balanced
      obtain ⟨after, hafter⟩ := ih hnext
      exact ⟨after, .turn hturn hnext hafter⟩

namespace Kept

theorem balanced (h : Kept place old outlets written uses ledger after)
    (balanced : ledger.Balanced old written (outlets.contents place) (outlets.pending place)) :
    after.Balanced old (written ++ outlets.writesTo place uses)
      ((outlets.useAll uses).contents place) ((outlets.useAll uses).pending place) := by
  induction h with
  | done outlets written ledger => simpa [writesTo, useAll] using balanced
  | turn turn hnext kept ih =>
      rw [writesTo, ← List.append_assoc]
      exact ih hnext

theorem landed (h : Kept place old outlets written uses ledger after) :
    ledger.landed <+: after.landed := by
  induction h with
  | done => exact List.prefix_refl _
  | turn turn hnext kept ih => exact turn.landed.trans ih

theorem of_settles (h : Kept place old outlets written uses ledger after)
    {earlier later : List Use} {use : Use} {sink : Nat} (heq : uses = earlier ++ use :: later)
    (hsettles : use.Settles sink) :
    of sink (written ++ outlets.writesTo place earlier) <+: of sink after.landed := by
  induction h generalizing earlier with
  | done outlets written ledger => simp at heq
  | @turn outlets written first rest ledger next after turn hnext kept ih =>
      cases earlier with
      | nil =>
          obtain ⟨rfl, rfl⟩ := List.cons.inj heq
          have hnone : of sink next.waiting = [] := by
            by_contra hwaits
            rcases turn.of_waiting hwaits with ⟨data, rfl, -⟩ | ⟨-, hnot⟩
            · rcases hsettles with h | h <;> cases h
            · exact hnot hsettles
          have hall := hnext.parted sink
          rw [hsettles.entry?_eq, hnone, Option.toList_none, List.append_nil,
            List.append_nil] at hall
          rw [writesTo, List.append_nil, hall]
          exact kept.landed.filter _
      | cons head earlier =>
          obtain ⟨rfl, rfl⟩ := List.cons.inj heq
          have hrest := ih rfl
          rwa [List.append_assoc] at hrest

/-- When sinks take turns, the file and what waits behind it are in order. -/
theorem inOrder (h : Kept place old outlets written uses ledger after) {closed : List Nat}
    (inOrder : ledger.InOrder (outlets.Leads place) closed written)
    (hturns : InTurn place closed outlets uses) :
    written ++ outlets.writesTo place uses = after.landed ++ after.waiting := by
  induction h generalizing closed with
  | done outlets written ledger => rw [writesTo, List.append_nil, inOrder.whole]
  | @turn outlets written use rest ledger next after turn hnext kept ih =>
      obtain ⟨hyields, hrest⟩ := hturns
      have hstep := turn.inOrder inOrder hyields
      have hlater := ih (hstep.mono (fun _ hleads => hleads.use use) fun _ => id) hrest
      rwa [List.append_assoc] at hlater

/-- When all that waits and all that is written is settled later, nothing waits at last. -/
theorem waiting_eq_nil (h : Kept place old outlets written uses ledger after)
    (hsettled : AllSettled place outlets uses)
    (hwaits : ∀ sink, of sink ledger.waiting ≠ [] → ∃ use ∈ uses, use.Settles sink) :
    after.waiting = [] := by
  induction h with
  | done outlets written ledger =>
      rw [List.eq_nil_iff_forall_not_mem]
      intro write hwrite
      have hne : of write.sink ledger.waiting ≠ [] :=
        List.ne_nil_of_mem (List.mem_filter.2 ⟨hwrite, by simp⟩)
      obtain ⟨use, hmem, -⟩ := hwaits write.sink hne
      cases hmem
  | @turn outlets written use rest ledger next after turn hnext kept ih =>
      obtain ⟨hentry, hrest⟩ := hsettled
      refine ih hrest fun sink hne => ?_
      rcases turn.of_waiting hne with ⟨data, rfl, hleads⟩ | ⟨hold, hnot⟩
      · exact hentry ⟨sink, data⟩ (by simp [Use.entry?, hleads])
      · obtain ⟨later, hmem, hlater⟩ := hwaits sink hold
        rcases List.mem_cons.1 hmem with rfl | hmem
        · exact absurd hlater hnot
        · exact ⟨later, hmem, hlater⟩

end Kept

/-- Sinks that append to a file lose, repeat and tear nothing. Whatever is used, the file holds what
was in it when nothing waited for it, and behind that the data of whole writes, of each sink the
first ones in their order. A flush or the end of a sink brings all its earlier writes into the file.
When the sinks of the file take turns, the file holds the first of all writes in their order, and
all of them if each is followed by a flush or the end of its sink. -/
theorem files_keep_writes {outlets : Outlets} {place : Place}
    (hquiet : ∀ sink, outlets.pending place sink = []) (uses : List Use) :
    ∃ landed : List FileWrite,
      (outlets.useAll uses).contents place = outlets.contents place ++ octets landed ∧
      (∀ sink, of sink landed <+: of sink (outlets.writesTo place uses)) ∧
      (∀ earlier use later sink, uses = earlier ++ use :: later → use.Settles sink →
        of sink (outlets.writesTo place earlier) <+: of sink landed) ∧
      (InTurn place [] outlets uses →
        landed <+: outlets.writesTo place uses ∧
          (AllSettled place outlets uses → landed = outlets.writesTo place uses)) := by
  have hstart : Ledger.Balanced (outlets.contents place) [] (outlets.contents place)
      (outlets.pending place) {} :=
    ⟨by simp [octets], fun sink => by rw [hquiet]; rfl, fun _ => rfl⟩
  have hsingle : Ledger.InOrder (outlets.Leads place) [] [] {} :=
    ⟨rfl, by simp, by simp⟩
  obtain ⟨after, hafter⟩ := exists_kept uses hstart
  have hbalanced := hafter.balanced hstart
  refine ⟨after.landed, hbalanced.contents, fun sink => ?_, fun earlier use later sink heq h => ?_,
    fun hturns => ?_⟩
  · have hparted := hbalanced.parted sink
    rw [List.nil_append] at hparted
    rw [hparted]
    exact List.prefix_append _ _
  · exact hafter.of_settles heq h
  · have horder := hafter.inOrder hsingle hturns
    rw [List.nil_append] at horder
    refine ⟨horder ▸ List.prefix_append _ _, fun hsettled => ?_⟩
    have hnone := hafter.waiting_eq_nil hsettled fun sink h => absurd rfl h
    rw [horder, hnone, List.append_nil]

def logDisk : Disk := Disk.append {} ["app.log".toList] (Text.encode "old".toList)

def logging : Session Unit := { Session.fresh () with outlets := { host := { disk := logDisk } } }

def reopening : List (Act Unit) :=
  [.sink (.make "first" (.file "app.log".toList)),
    .sink (.write "first" (Text.encode ", one".toList)), .sink (.drop "first"),
    .sink (.make "second" (.file "./app.log".toList)),
    .sink (.write "second" (Text.encode ", two".toList)), .sink (.flush "second"),
    .sink (.write "second" (Text.encode ", three".toList)), .sink (.drop "second")]

theorem files_keep_writes_reopened :
    (logging.performAll reopening).outlets.contents ["app.log".toList] =
      Text.encode "old, one, two, three".toList := by
  have hquiet : ∀ sink, logging.outlets.pending ["app.log".toList] sink = [] := fun _ => rfl
  obtain ⟨landed, hcontents, -, -, hall⟩ :=
    files_keep_writes hquiet (logging.usesAll reopening)
  have hturns : InTurn ["app.log".toList] [] logging.outlets (logging.usesAll reopening) := by
    decide +kernel
  have hsettled : AllSettled ["app.log".toList] logging.outlets (logging.usesAll reopening) := by
    decide +kernel
  have hwrites : logging.outlets.contents ["app.log".toList] ++
      octets (logging.outlets.writesTo ["app.log".toList] (logging.usesAll reopening)) =
        Text.encode "old, one, two, three".toList := by decide +kernel
  have hagrees := logging.agrees_performAll reopening
  rw [contents, hagrees.host, ← contents, hcontents, (hall hturns).2 hsettled, hwrites]

end Outlets

end Logbook
