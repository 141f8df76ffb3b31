import Logbook.Proofs.FailureReports
import Logbook.Proofs.SparedSinks

/-!
# Paired outlets

Two states of the outlets with the same kinds of sinks, in which the same files and directories are
there. Writing, flushing and closing sinks changes what files hold, and never which there are, as
the file of a sink was made when it was opened. So files can be opened in both or in none.
-/

namespace Logbook

namespace Disk

/-- The same directories and the same files are there, whatever the files hold. -/
structure Alike (disk other : Disk) : Prop where
  directories : other.directories = disk.directories
  files : ∀ place, (other.files.find? place).isSome = (disk.files.find? place).isSome

theorem Alike.refl (disk : Disk) : Alike disk disk := ⟨rfl, fun _ => rfl⟩

theorem Alike.symm {disk other : Disk} (h : Alike disk other) : Alike other disk :=
  ⟨h.directories.symm, fun place => (h.files place).symm⟩

theorem Alike.trans {first second third : Disk} (h : Alike first second) (h' : Alike second third) :
    Alike first third :=
  ⟨h'.directories.trans h.directories, fun place => (h'.files place).trans (h.files place)⟩

theorem isSome_append (disk : Disk) (place other : Place) (data : Bytes) :
    ((disk.append place data).files.find? other).isSome =
      (decide (place = other) || (disk.files.find? other).isSome) := by
  by_cases h : place = other <;> simp [append, h]

theorem alike_append {disk : Disk} {place : Place} (h : (disk.files.find? place).isSome)
    (data : Bytes) : Alike disk (disk.append place data) where
  directories := rfl
  files other := by
    rw [isSome_append]
    by_cases hplace : place = other
    · rw [← hplace, h, Bool.or_true]
    · simp [hplace]

theorem Alike.append {disk other : Disk} (h : Alike disk other) (place : Place)
    (data data' : Bytes) : Alike (disk.append place data) (other.append place data') where
  directories := h.directories
  files place' := by rw [isSome_append, isSome_append, h.files]

/-! ## Walking and making directories -/

theorem Alike.isDirectory {disk other : Disk} (h : Alike disk other) (place : Place) :
    other.isDirectory place = disk.isDirectory place := by
  unfold Disk.isDirectory
  rw [h.directories]

theorem Alike.step? {disk other : Disk} (h : Alike disk other) (place : Place) (piece : Text) :
    other.step? place piece = disk.step? place piece := by
  unfold Disk.step?
  rw [h.isDirectory]

theorem Alike.walk? {disk other : Disk} (h : Alike disk other) (place : Place)
    (pieces : List Text) : other.walk? place pieces = disk.walk? place pieces := by
  induction pieces generalizing place with
  | nil => rfl
  | cons piece rest ih =>
      have hwalk : (fun next => other.walk? next rest) = fun next => disk.walk? next rest :=
        funext ih
      unfold Disk.walk?
      rw [h.step?, hwalk]

theorem Alike.place? {disk other : Disk} (h : Alike disk other) (path : Text) :
    other.place? path = disk.place? path := by
  simp only [Disk.place?, h.walk?]

theorem Alike.makeAlong {disk other : Disk} (h : Alike disk other) (pieces : List Text)
    (place : Place) :
    (Disk.makeAlong pieces place other).1 = (Disk.makeAlong pieces place disk).1 ∧
      (Disk.makeAlong pieces place other).2.1 = (Disk.makeAlong pieces place disk).2.1 ∧
      Alike (Disk.makeAlong pieces place disk).2.2 (Disk.makeAlong pieces place other).2.2 := by
  induction pieces generalizing disk other place with
  | nil => exact ⟨rfl, rfl, h⟩
  | cons piece rest ih =>
      have hfree : (other.files.find? (place ++ [piece])).isNone =
          (disk.files.find? (place ++ [piece])).isNone := by
        rw [← Option.not_isSome, ← Option.not_isSome, h.files]
      simp only [Disk.makeAlong, h.step?, hfree]
      cases disk.step? place piece with
      | some next => exact ih h next
      | none =>
          dsimp only
          split
          · have hmade : Alike
                { disk with directories := disk.directories ++ [place ++ [piece]] }
                { other with directories := other.directories ++ [place ++ [piece]] } :=
              ⟨congrArg (· ++ [place ++ [piece]]) h.directories, h.files⟩
            exact ih hmade (place ++ [piece])
          · exact ⟨rfl, rfl, h⟩

theorem Alike.makeDirectories {disk other : Disk} (h : Alike disk other) (path : Text) :
    (other.makeDirectories path).1 = (disk.makeDirectories path).1 ∧
      Alike (disk.makeDirectories path).2 (other.makeDirectories path).2 := by
  unfold Disk.makeDirectories
  split
  · exact ⟨rfl, h⟩
  · split
    · dsimp only
      split
      · obtain ⟨hreached, hplace, hafter⟩ := h.makeAlong
          (((Text.splitOn '/' path).filter (· ≠ [])).filter (· ≠ Path.here)).dropLast []
        exact ⟨by rw [hreached, hplace, hafter.walk?], hafter⟩
      · obtain ⟨hreached, -, hafter⟩ := h.makeAlong
          (((Text.splitOn '/' path).filter (· ≠ [])).filter (· ≠ Path.here)) []
        exact ⟨hreached, hafter⟩
    · exact ⟨rfl, h⟩

/-- A path can be opened on both disks, at the same place, or on none. -/
theorem Alike.openAt {disk other : Disk} (h : Alike disk other) (path : Text) :
    (∃ cause, FileSink.openAt path disk = .error cause ∧
        FileSink.openAt path other = .error cause) ∨
      ∃ opened after after', FileSink.openAt path disk = .ok (opened, after) ∧
        FileSink.openAt path other = .ok (opened, after') ∧ Alike after after' ∧
          (after.files.find? opened.place).isSome ∧
          ∀ place, (disk.files.find? place).isSome → (after.files.find? place).isSome := by
  unfold FileSink.openAt open?
  rw [h.place?]
  cases disk.place? path with
  | none => exact .inl ⟨_, rfl, rfl⟩
  | some place =>
      dsimp only
      rw [h.isDirectory]
      by_cases hd : disk.isDirectory place = true
      · simp only [if_pos hd]
        exact .inl ⟨_, rfl, rfl⟩
      · simp only [if_neg hd]
        refine .inr ⟨_, _, _, rfl, rfl, h.append place [] [], ?_, fun other hother => ?_⟩
        · rw [isSome_append]
          simp
        · rw [isSome_append, hother, Bool.or_true]

end Disk

/-! ## Writing to files that are there -/

namespace FileSink

variable {sink : FileSink} {disk : Disk}

theorem alike_flush (h : (disk.files.find? sink.place).isSome) :
    Disk.Alike disk (sink.flush disk).2 := Disk.alike_append h sink.pending

theorem alike_write (h : (disk.files.find? sink.place).isSome) (data : Bytes) :
    Disk.Alike disk (sink.write data disk).2 := by
  have hflush := alike_flush h
  have hflushed : ((sink.flush disk).2.files.find? sink.place).isSome := by
    rw [hflush.files]
    exact h
  unfold write
  by_cases hspare : capacity - sink.pending.length < data.length
  · simp only [if_pos hspare]
    split
    · exact hflush.trans (Disk.alike_append hflushed data)
    · exact hflush
  · simp only [if_neg hspare]
    split
    · exact Disk.alike_append h data
    · exact .refl disk

end FileSink

namespace Outlets

def Opened (outlets : Outlets) : Prop :=
  ∀ place, some (.file place) ∈ outlets.media → (outlets.host.disk.files.find? place).isSome

structure Calm (before after : Outlets) : Prop where
  media : after.media = before.media
  disk : before.host.disk.Alike after.host.disk

namespace Calm

theorem refl (outlets : Outlets) : Calm outlets outlets := ⟨rfl, .refl _⟩

theorem trans {first second third : Outlets} (h : Calm first second) (h' : Calm second third) :
    Calm first third := ⟨h'.media.trans h.media, h.disk.trans h'.disk⟩

theorem opened {before after : Outlets} (h : Calm before after) (opened : before.Opened) :
    after.Opened := by
  intro place hplace
  rw [h.media] at hplace
  rw [h.disk.files]
  exact opened place hplace

end Calm

theorem Opened.isSome {outlets : Outlets} (opened : outlets.Opened) {index : Nat} {sink : FileSink}
    (h : outlets.sink? index = some (.file sink)) :
    (outlets.host.disk.files.find? sink.place).isSome :=
  opened sink.place (List.mem_of_getElem? (getElem?_media h))

theorem calm_write {outlets : Outlets} (opened : outlets.Opened) (index : Nat) (data : Bytes) :
    Calm outlets (write index data outlets).2 := by
  refine ⟨media_write index data outlets, ?_⟩
  unfold write
  cases hs : outlets.sink? index with
  | none => exact .refl _
  | some sink =>
      have hdisk : outlets.host.disk.Alike (sink.write data outlets.host).2.2.disk := by
        cases sink with
        | file found => exact FileSink.alike_write (opened.isSome hs) data
        | console target => cases target <;> exact .refl _
        | _ => exact .refl _
      dsimp only
      split <;> exact hdisk

theorem calm_flush {outlets : Outlets} (opened : outlets.Opened) (index : Nat) :
    Calm outlets (flush index outlets).2 := by
  unfold flush
  cases hs : outlets.sink? index with
  | none => exact .refl _
  | some sink =>
      have hdisk : outlets.host.disk.Alike (sink.flush outlets.host).2.2.disk := by
        cases sink with
        | file found => exact FileSink.alike_flush (opened.isSome hs)
        | _ => exact .refl _
      exact ⟨media_set hs (sink.medium?_flush _), hdisk⟩

theorem calm_close {outlets : Outlets} (opened : outlets.Opened) (index : Nat) :
    Calm outlets (outlets.close index) := by
  unfold close
  split
  · rename_i found hs
    exact ⟨media_set hs rfl, FileSink.alike_flush (opened.isSome hs)⟩
  · exact .refl _

theorem calm_closeAll {outlets : Outlets} (opened : outlets.Opened) (indices : List Nat) :
    Calm outlets (outlets.closeAll indices) := by
  induction indices generalizing outlets with
  | nil => exact .refl _
  | cons index rest ih =>
      have hclose := calm_close opened index
      exact hclose.trans (ih (hclose.opened opened))

theorem calm_writeAll {outlets : Outlets} (opened : outlets.Opened) (list : List (Nat × Bytes)) :
    Calm outlets (outlets.writeAll list) := by
  induction list generalizing outlets with
  | nil => exact .refl _
  | cons item rest ih =>
      have hwrite := calm_write opened item.1 item.2
      exact hwrite.trans (ih (hwrite.opened opened))

theorem calm_writeRouter {outlets : Outlets} (opened : outlets.Opened) (router : Router)
    (level : Level) (data : Bytes) : Calm outlets (writeRouter router level data outlets).2 := by
  rw [snd_writeRouter]
  exact calm_writeAll opened _

theorem calm_flushRouter {outlets : Outlets} (opened : outlets.Opened) (router : Router) :
    Calm outlets (flushRouter router outlets).2 := by
  apply Router.flush_preserves (p := Calm outlets) _ (.refl outlets)
  intro endpoint later hlater
  exact hlater.trans (calm_flush (hlater.opened opened) endpoint.sink)

/-! ## Pairs -/

/-- The same kinds of sinks, with their files, and the same files and directories. -/
structure Paired (first second : Outlets) : Prop where
  media : second.media = first.media
  disk : first.host.disk.Alike second.host.disk
  opened : first.Opened

namespace Paired

variable {first second : Outlets}

theorem opened' (paired : Paired first second) : second.Opened :=
  Calm.opened ⟨paired.media, paired.disk⟩ paired.opened

theorem length (paired : Paired first second) : second.sinks.length = first.sinks.length := by
  have hlength := congrArg List.length paired.media
  rwa [Outlets.media, Outlets.media, List.length_map, List.length_map] at hlength

theorem calm (paired : Paired first second) {first' second' : Outlets} (h : Calm first first')
    (h' : Calm second second') : Paired first' second' where
  media := by rw [h'.media, paired.media, h.media]
  disk := (h.disk.symm.trans paired.disk).trans h'.disk
  opened := h.opened paired.opened

theorem add (paired : Paired first second) {sink : Sink}
    (h : ∀ place, sink.medium? = some (.file place) →
      (first.host.disk.files.find? place).isSome) : Paired (first.add sink) (second.add sink) where
  media := by
    have hmedia := paired.media
    simp only [Outlets.media] at hmedia
    simp only [Outlets.media, Outlets.add, List.map_append, hmedia]
  disk := paired.disk
  opened place hplace := by
    simp only [Outlets.media, Outlets.add, List.map_append, List.map_cons, List.map_nil,
      List.mem_append, List.mem_singleton] at hplace
    rcases hplace with hold | hnew
    · exact paired.opened place hold
    · exact h place hnew.symm

end Paired

end Outlets

end Logbook
