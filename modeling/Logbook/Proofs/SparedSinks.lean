import Logbook.Proofs.Emission
import Logbook.Proofs.SinkContents

/-!
# Spared sinks

What keeps the octets of one sink while others are written, flushed and closed. It takes that no
other sink has the same medium, which has to be known at the end only, since sinks never go away.
-/

namespace Logbook

namespace Outlets

def media (outlets : Outlets) : List (Option Medium) := outlets.sinks.map Sink.medium?

/-- Nothing else is put where the sink puts its octets. -/
def Alone (index : Nat) (media : List (Option Medium)) : Prop :=
  ∀ medium, media[index]? = some (some medium) →
    ∀ other, other ≠ index → media[other]? ≠ some (some medium)

theorem Alone.of_append {index : Nat} {media more : List (Option Medium)}
    (h : Alone index (media ++ more)) : Alone index media := by
  intro medium hindex other hne hother
  apply h medium _ other hne
  · rw [List.getElem?_append_left (List.getElem?_eq_some_iff.1 hother).1, hother]
  · rw [List.getElem?_append_left (List.getElem?_eq_some_iff.1 hindex).1, hindex]

theorem prefix_of_media_eq {before after : Outlets} (h : after.media = before.media) :
    before.media <+: after.media := h ▸ List.prefix_refl _

/-- The sink holds some octets, and writes of the coming data will succeed. -/
def Serves (index : Nat) (held : Bytes) (coming : List Bytes) (outlets : Outlets) : Prop :=
  ∃ sink, outlets.sink? index = some sink ∧ sink.held? outlets.host = some held ∧
    sink.Takes coming

def held? (outlets : Outlets) (index : Nat) : Option Bytes :=
  (outlets.sink? index).bind (Sink.held? outlets.host)

theorem Serves.held?_eq {index : Nat} {held : Bytes} {coming : List Bytes} {outlets : Outlets}
    (h : outlets.Serves index held coming) : outlets.held? index = some held := by
  obtain ⟨sink, hsink, hheld, -⟩ := h
  rw [Outlets.held?, hsink]
  exact hheld

theorem getElem?_media {outlets : Outlets} {index : Nat} {sink : Sink}
    (h : outlets.sink? index = some sink) : outlets.media[index]? = some sink.medium? := by
  unfold media
  rw [List.getElem?_map]
  exact congrArg (Option.map Sink.medium?) h

/-! ## One sink replaced -/

theorem sink?_set_self {outlets : Outlets} {index : Nat} (h : index < outlets.sinks.length)
    (sink : Sink) : (outlets.set index sink).sink? index = some sink := by
  unfold sink? set
  rw [List.getElem?_set_self h]

theorem sink?_set_of_ne (outlets : Outlets) {index other : Nat} (h : index ≠ other) (sink : Sink) :
    (outlets.set index sink).sink? other = outlets.sink? other := by
  unfold sink? set
  rw [List.getElem?_set_ne h]

theorem media_set {outlets : Outlets} {index : Nat} {sink after : Sink}
    (h : outlets.sink? index = some sink) (hm : after.medium? = sink.medium?) :
    (outlets.set index after).media = outlets.media := by
  obtain ⟨hlt, hsame⟩ := List.getElem?_eq_some_iff.1 (getElem?_media h)
  unfold media set at *
  rw [List.map_set, hm, ← hsame, List.set_getElem_self]

/-! ## What spares a sink -/

/-- Between two states, sinks were added behind the others and one sink kept what it held. -/
structure Spares (index : Nat) (before after : Outlets) : Prop where
  media : before.media <+: after.media
  serves : Alone index after.media → ∀ held coming,
    before.Serves index held coming → after.Serves index held coming

namespace Spares

variable {index : Nat}

theorem refl (outlets : Outlets) : Spares index outlets outlets :=
  ⟨List.prefix_refl _, fun _ _ _ => id⟩

theorem trans {first second third : Outlets} (h : Spares index first second)
    (h' : Spares index second third) : Spares index first third := by
  refine ⟨h.media.trans h'.media, fun alone held coming serves => ?_⟩
  obtain ⟨more, hmore⟩ := h'.media
  have hsecond : Alone index second.media := by
    rw [← hmore] at alone
    exact alone.of_append
  exact h'.serves alone held coming (h.serves hsecond held coming serves)

theorem same_sinks {before after : Outlets} (hsinks : after.sinks = before.sinks)
    (hhost : ∀ medium, after.host.contents medium = before.host.contents medium) :
    Spares index before after := by
  constructor
  · exact prefix_of_media_eq (by rw [Outlets.media, Outlets.media, hsinks])
  · rintro - held coming ⟨sink, hsink, hheld, htakes⟩
    refine ⟨sink, by rw [sink?, hsinks]; exact hsink, ?_, htakes⟩
    rw [Sink.held?_congr fun medium _ => hhost medium, hheld]

theorem disk {outlets : Outlets} {disk : Disk}
    (h : ∀ place, disk.contents place = outlets.host.disk.contents place) :
    Spares index outlets { outlets with host := { outlets.host with disk } } := by
  refine .same_sinks rfl fun medium => ?_
  cases medium with
  | file place => exact h place
  | console target => cases target <;> rfl

theorem addAll (outlets : Outlets) (more : List Sink) :
    Spares index outlets { outlets with sinks := outlets.sinks ++ more } := by
  constructor
  · simp [Outlets.media]
  · rintro - held coming ⟨own, hown, hserves⟩
    refine ⟨own, ?_, hserves⟩
    unfold sink? at *
    rw [List.getElem?_append_left (List.getElem?_eq_some_iff.1 hown).1, hown]

theorem add (outlets : Outlets) (sink : Sink) : Spares index outlets (outlets.add sink) :=
  addAll outlets [sink]

theorem note {before after : Outlets} (h : Spares index before after) (event : Event) :
    Spares index before (after.note event) :=
  h.trans (same_sinks rfl fun _ => rfl)

/-- Another sink is replaced by one with its medium, and only this medium changes. -/
theorem replace {outlets : Outlets} {other : Nat} {sink after : Sink} {host : Host}
    (hother : other ≠ index) (hsink : outlets.sink? other = some sink)
    (hmedium : after.medium? = sink.medium?)
    (hhost : ∀ medium, sink.medium? ≠ some medium →
      host.contents medium = outlets.host.contents medium) :
    Spares index outlets { outlets.set other after with host } := by
  have hmedia : ({ outlets.set other after with host } : Outlets).media = outlets.media :=
    media_set hsink hmedium
  constructor
  · exact prefix_of_media_eq hmedia
  · rintro alone held coming ⟨own, hown, hheld, htakes⟩
    rw [hmedia] at alone
    refine ⟨own, (sink?_set_of_ne outlets hother after).trans hown, ?_, htakes⟩
    rw [← hheld]
    refine Sink.held?_congr fun medium hm => hhost medium fun hsame => ?_
    refine alone medium ?_ other hother ?_
    · rw [getElem?_media hown, hm]
    · rw [getElem?_media hsink, hsame]

theorem write {other : Nat} (hother : other ≠ index) (data : Bytes) (outlets : Outlets) :
    Spares index outlets (write other data outlets).2 := by
  unfold Outlets.write
  cases hs : outlets.sink? other with
  | none => exact refl outlets
  | some sink =>
      have hreplaced : Spares index outlets _ := replace hother hs
        (sink.medium?_write data outlets.host)
        fun medium hm => Sink.contents_write_of_ne hm data outlets.host
      dsimp only
      split
      · exact hreplaced
      · exact hreplaced.note _

theorem replace_self {outlets : Outlets} {sink after : Sink} {host : Host}
    (hsink : outlets.sink? index = some sink) (hmedium : after.medium? = sink.medium?)
    (hheld : after.held? host = sink.held? outlets.host)
    (htakes : ∀ coming, sink.Takes coming → after.Takes coming) :
    Spares index outlets { outlets.set index after with host } := by
  constructor
  · exact prefix_of_media_eq (media_set hsink hmedium)
  · rintro - held coming ⟨own, hown, hown', hcoming⟩
    rw [hsink] at hown
    cases hown
    refine ⟨after, sink?_set_self (List.getElem?_eq_some_iff.1 hsink).1 after, ?_, htakes _ hcoming⟩
    exact hheld.trans hown'

theorem flush (other : Nat) (outlets : Outlets) :
    Spares index outlets (flush other outlets).2 := by
  unfold Outlets.flush
  cases hs : outlets.sink? other with
  | none => exact refl outlets
  | some sink =>
      by_cases hother : other = index
      · subst hother
        exact replace_self hs (sink.medium?_flush _) (sink.held?_flush _) fun _ h => h.flush _
      · exact replace hother hs (sink.medium?_flush _) fun medium hm =>
          Sink.contents_flush_of_ne hm _

theorem close (outlets : Outlets) (other : Nat) : Spares index outlets (outlets.close other) := by
  unfold Outlets.close
  split
  · rename_i opened hs
    have hflush : Spares index outlets (Outlets.flush other outlets).2 := flush other outlets
    unfold Outlets.flush at hflush
    rw [hs] at hflush
    exact hflush
  · exact refl outlets

theorem closeAll (outlets : Outlets) (others : List Nat) :
    Spares index outlets (outlets.closeAll others) := by
  induction others generalizing outlets with
  | nil => exact refl outlets
  | cons other rest ih => exact (close outlets other).trans (ih _)

end Spares

/-! ## What brings records to a sink -/

theorem media_write (index : Nat) (data : Bytes) (outlets : Outlets) :
    (write index data outlets).2.media = outlets.media := by
  unfold write
  cases hs : outlets.sink? index with
  | none => rfl
  | some sink =>
      dsimp only
      split <;> exact media_set hs (sink.medium?_write data outlets.host)

/-- Between two states, sinks were added behind the others and one sink took some data, one after
the other and nothing else. -/
structure Brings (index : Nat) (list : List Bytes) (before after : Outlets) : Prop where
  media : before.media <+: after.media
  serves : Alone index after.media → ∀ held coming,
    before.Serves index held (list ++ coming) → after.Serves index (held ++ list.flatten) coming

variable {index : Nat}

theorem Spares.brings {before after : Outlets} (h : Spares index before after) :
    Brings index [] before after where
  media := h.media
  serves alone held coming serves := by
    rw [List.flatten_nil, List.append_nil]
    exact h.serves alone held coming serves

theorem Brings.trans {first second third : Outlets} {list more : List Bytes}
    (h : Brings index list first second) (h' : Brings index more second third) :
    Brings index (list ++ more) first third := by
  refine ⟨h.media.trans h'.media, fun alone held coming serves => ?_⟩
  obtain ⟨added, hadded⟩ := h'.media
  have hsecond : Alone index second.media := by
    rw [← hadded] at alone
    exact alone.of_append
  rw [List.append_assoc] at serves
  rw [List.flatten_append, ← List.append_assoc]
  exact h'.serves alone _ coming (h.serves hsecond held _ serves)

theorem Brings.then_spares {first second third : Outlets} {list : List Bytes}
    (h : Brings index list first second) (h' : Spares index second third) :
    Brings index list first third := by
  simpa using h.trans h'.brings

theorem Spares.then_brings {first second third : Outlets} {list : List Bytes}
    (h : Spares index first second) (h' : Brings index list second third) :
    Brings index list first third := h.brings.trans h'

theorem brings_write (data : Bytes) (outlets : Outlets) :
    Brings index [data] outlets (write index data outlets).2 := by
  constructor
  · exact prefix_of_media_eq (media_write index data outlets)
  · rintro - held coming ⟨sink, hsink, hheld, htakes⟩
    obtain ⟨⟨count, hok⟩, hrest⟩ := htakes outlets.host
    have hafter := Sink.held?_write hok
    rw [hheld, Option.map_some] at hafter
    unfold write
    rw [hsink]
    dsimp only
    refine ⟨_, ?_, ?_, hrest⟩
    · split <;> exact sink?_set_self (List.getElem?_eq_some_iff.1 hsink).1 _
    · rw [List.flatten_singleton]
      split <;> exact hafter

/-- Whatever the endpoints of a list answer, the sink takes the data once for each of them that
leads to it. -/
theorem brings_each (endpoints : List Endpoint) (data : Bytes) (outlets : Outlets) :
    Brings index (List.replicate (endpoints.countP (·.sink = index)) data) outlets
      (Router.each (fun endpoint => write endpoint.sink data) endpoints outlets).2 := by
  induction endpoints generalizing outlets with
  | nil => exact (Spares.refl outlets).brings
  | cons endpoint rest ih =>
      have hrest := ih (write endpoint.sink data outlets).2
      by_cases hsink : endpoint.sink = index
      · subst hsink
        rw [List.countP_cons_of_pos (by simp), List.replicate_succ]
        exact (brings_write data outlets).trans hrest
      · rw [List.countP_cons_of_neg (by simpa using hsink)]
        exact (Spares.write hsink data outlets).then_brings hrest

theorem brings_writeRouter (router : Router) (level : Level) (data : Bytes) (outlets : Outlets) :
    Brings index (List.replicate ((router.endpoints level).countP (·.sink = index)) data) outlets
      (writeRouter router level data outlets).2 := by
  unfold writeRouter Router.write Router.endpoints
  cases router.routes.find? level with
  | none => exact (Spares.refl outlets).brings
  | some endpoints => exact brings_each endpoints data outlets

theorem spares_writeRouter {router : Router} {level : Level}
    (h : ∀ endpoint ∈ router.endpoints level, endpoint.sink ≠ index) (data : Bytes)
    (outlets : Outlets) : Spares index outlets (writeRouter router level data outlets).2 := by
  apply Router.write_preserves (p := Spares index outlets) _ (.refl outlets)
  intro endpoint hmem later hlater
  exact hlater.trans (.write (h endpoint hmem) data later)

theorem spares_flushRouter (router : Router) (outlets : Outlets) :
    Spares index outlets (flushRouter router outlets).2 := by
  apply Router.flush_preserves (p := Spares index outlets) _ (.refl outlets)
  intro endpoint later hlater
  exact hlater.trans (.flush endpoint.sink later)

end Outlets

end Logbook
