import Logbook.Proofs.StreamWrites
import Logbook.Sink.Basic

/-!
# What sinks hold

The octets of a sink, wherever they are: in the sink, in its buffer and its file, or on a stream of
the console. A write that succeeds puts its data behind them, and a flush leaves them.
-/

namespace Logbook

/-! ## Streams and files -/

/-- A stream that took everything has all of it behind what it had. -/
theorem Device.taken_writeAll {σ : Type} {device : Device σ} {data : Bytes} {state after : σ}
    (h : device.writeAll data state = (.ok (), after)) :
    device.taken after = device.taken state ++ data := by
  obtain ⟨calls, hanswers, hoffers⟩ := Device.exists_offers device data state
  rw [h] at hanswers hoffers
  obtain ⟨-, haccepted⟩ := hoffers.settled_ok.complete data.length rfl
  rw [hanswers.taken]
  exact congrArg (device.taken state ++ ·) haccepted

namespace FileSink

/-- What is in the file of a sink, and behind it what is still in the buffer. -/
def holds (sink : FileSink) (disk : Disk) : Bytes := disk.contents sink.place ++ sink.pending

theorem holds_flush (sink : FileSink) (disk : Disk) :
    (sink.flush disk).1.holds (sink.flush disk).2 = sink.holds disk := by
  simp [holds, flush]

theorem place_write (sink : FileSink) (data : Bytes) (disk : Disk) :
    (sink.write data disk).1.place = sink.place := by
  unfold write
  dsimp only
  split <;> split <;> rfl

/-- A write goes to the buffer; what was there goes to the file before it if need be, and the data
behind that if they are too large. -/
theorem write_moves (sink : FileSink) (data : Bytes) (disk : Disk) :
    let after := sink.write data disk
    (after.2.contents sink.place = disk.contents sink.place ∧
        after.1.pending = sink.pending ++ data) ∨
      (after.2.contents sink.place = disk.contents sink.place ++ sink.pending ∧
        after.1.pending = data) ∨
      (after.2.contents sink.place = disk.contents sink.place ++ sink.pending ++ data ∧
        after.1.pending = []) := by
  unfold write
  by_cases hspare : capacity - sink.pending.length < data.length
  · by_cases hlarge : capacity ≤ data.length
    · simp [hspare, hlarge, flush]
    · simp [hspare, hlarge, flush]
  · by_cases hlarge : capacity ≤ data.length
    · -- data as large as the buffer fits only into an empty one
      have hempty : sink.pending = [] := List.length_eq_zero_iff.1 (by
        unfold capacity at hspare hlarge
        omega)
      rw [hempty, List.length_nil, Nat.sub_zero] at hspare
      simp [hspare, hlarge, hempty]
    · simp [hspare, hlarge]

theorem holds_write (sink : FileSink) (data : Bytes) (disk : Disk) :
    (sink.write data disk).1.holds (sink.write data disk).2 = sink.holds disk ++ data := by
  rcases sink.write_moves data disk with ⟨hfile, hbuffer⟩ | ⟨hfile, hbuffer⟩ | ⟨hfile, hbuffer⟩
  · simp [holds, place_write, hfile, hbuffer]
  · simp [holds, place_write, hfile, hbuffer]
  · simp [holds, place_write, hfile, hbuffer]

theorem contents_flush_of_ne (sink : FileSink) (disk : Disk) {place : Place}
    (h : sink.place ≠ place) : (sink.flush disk).2.contents place = disk.contents place :=
  disk.contents_append_of_ne _ h

theorem contents_write_of_ne (sink : FileSink) (data : Bytes) (disk : Disk) {place : Place}
    (h : sink.place ≠ place) :
    (sink.write data disk).2.contents place = disk.contents place := by
  unfold write
  dsimp only
  split <;> split <;> simp [flush, Disk.contents_append_of_ne _ _ h]

end FileSink

namespace Disk

theorem contents_append_nil (disk : Disk) (place other : Place) :
    (disk.append place []).contents other = disk.contents other := by
  by_cases h : place = other
  · rw [h, contents_append_self, List.append_nil]
  · exact disk.contents_append_of_ne [] h

theorem contents_openAt {path : Text} {disk after : Disk} {opened : FileSink}
    (h : FileSink.openAt path disk = .ok (opened, after)) (place : Place) :
    after.contents place = disk.contents place := by
  unfold FileSink.openAt open? at h
  cases hp : disk.place? path with
  | none =>
      rw [hp] at h
      cases h
  | some found =>
      by_cases hd : disk.isDirectory found
      · simp [hp, hd] at h
      · simp only [hp, if_neg hd, Except.ok.injEq, Prod.mk.injEq] at h
        rw [← h.2, contents_append_nil]

theorem files_makeAlong (pieces : List Text) (place : Place) (disk : Disk) :
    (makeAlong pieces place disk).2.2.files = disk.files := by
  induction pieces generalizing place disk with
  | nil => rfl
  | cons piece rest ih =>
      unfold makeAlong
      split
      · exact ih _ disk
      · dsimp only
        split
        · exact ih _ _
        · rfl

theorem files_makeDirectories (disk : Disk) (path : Text) :
    (disk.makeDirectories path).2.files = disk.files := by
  unfold makeDirectories
  split
  · rfl
  · split
    · dsimp only
      split
      · exact files_makeAlong _ [] disk
      · exact files_makeAlong _ [] disk
    · rfl

end Disk

/-! ## Media -/

/-- What sinks can share: a file or a stream of the console. -/
inductive Medium where
  | file (place : Place)
  | console (target : ConsoleTarget)
  deriving DecidableEq

def Host.contents (host : Host) : Medium → Bytes
  | .file place => host.disk.contents place
  | .console .stderr => host.stderr
  | .console .stdout => host.stdout

namespace Sink

def medium? : Sink → Option Medium
  | .file opened => some (.file opened.place)
  | .console target => some (.console target)
  | _ => none

/-- The octets of a sink. A plain sink has none. -/
def held? (host : Host) : Sink → Option Bytes
  | .memory store => some store.bytes
  | .tally count => some count.bytes
  | .stream _ channel => some channel.bytes
  | .file opened => some (opened.holds host.disk)
  | .console target => some (host.contents (.console target))
  | .plain => none

theorem medium?_write (sink : Sink) (data : Bytes) (host : Host) :
    (sink.write data host).2.1.medium? = sink.medium? := by
  cases sink with
  | file opened => simp [write, medium?, FileSink.place_write]
  | _ => rfl

theorem medium?_flush (sink : Sink) (host : Host) :
    (sink.flush host).2.1.medium? = sink.medium? := by
  cases sink <;> rfl

theorem contents_write_of_ne {sink : Sink} {medium : Medium} (h : sink.medium? ≠ some medium)
    (data : Bytes) (host : Host) :
    (sink.write data host).2.2.contents medium = host.contents medium := by
  cases sink with
  | file opened =>
      cases medium with
      | file place =>
          have hplace : opened.place ≠ place := fun he => h (by rw [medium?, he])
          exact opened.contents_write_of_ne data host.disk hplace
      | console target => cases target <;> rfl
  | console target =>
      cases medium with
      | file place => cases target <;> rfl
      | console other => cases target <;> cases other <;> first | rfl | exact absurd rfl h
  | _ => rfl

theorem contents_flush_of_ne {sink : Sink} {medium : Medium} (h : sink.medium? ≠ some medium)
    (host : Host) : (sink.flush host).2.2.contents medium = host.contents medium := by
  cases sink with
  | file opened =>
      cases medium with
      | file place =>
          have hplace : opened.place ≠ place := fun he => h (by rw [medium?, he])
          exact opened.contents_flush_of_ne host.disk hplace
      | console target => cases target <;> rfl
  | _ => rfl

theorem held?_congr {sink : Sink} {host other : Host}
    (h : ∀ medium, sink.medium? = some medium → other.contents medium = host.contents medium) :
    sink.held? other = sink.held? host := by
  cases sink with
  | file opened =>
      have hfile := h (.file opened.place) rfl
      simp only [Host.contents] at hfile
      simp only [held?, FileSink.holds, hfile]
  | console target => simp only [held?, h (.console target) rfl]
  | _ => rfl

theorem held?_flush (sink : Sink) (host : Host) :
    (sink.flush host).2.1.held? (sink.flush host).2.2 = sink.held? host := by
  cases sink with
  | tally count =>
      simp only [flush, Tally.flush]
      split <;> rfl
  | file opened => simp [flush, held?, FileSink.holds_flush]
  | _ => rfl

/-- A write that succeeds puts its data behind what the sink holds. -/
theorem held?_write {sink : Sink} {data : Bytes} {host : Host} {count : Nat}
    (h : (sink.write data host).1 = .ok count) :
    (sink.write data host).2.1.held? (sink.write data host).2.2 =
      (sink.held? host).map (· ++ data) := by
  cases sink with
  | memory store => rfl
  | tally count =>
      simp only [write, Tally.write] at h ⊢
      split at h
      · cases h
      · rfl
  | stream name channel =>
      simp only [write, Channel.write, Device.write] at h ⊢
      cases hw : Channel.device.writeAll data channel with
      | mk outcome after =>
          rw [hw] at h
          cases outcome with
          | error error => cases h
          | ok done => exact congrArg some (Device.taken_writeAll hw)
  | file opened => simp [write, held?, FileSink.holds_write]
  | console target => cases target <;> rfl
  | plain => rfl

/-! ## Writes that succeed -/

/-- All writes of some data, one after the other, succeed. -/
def Takes : List Bytes → Sink → Prop
  | [], _ => True
  | data :: rest, sink =>
      ∀ host, (∃ count, (sink.write data host).1 = .ok count) ∧
        Takes rest (sink.write data host).2.1

theorem takes_memory (list : List Bytes) (store : Memory) : Takes list (.memory store) := by
  induction list generalizing store with
  | nil => trivial
  | cons data rest ih => exact fun host => ⟨⟨_, rfl⟩, ih _⟩

theorem takes_file (list : List Bytes) (opened : FileSink) : Takes list (.file opened) := by
  induction list generalizing opened with
  | nil => trivial
  | cons data rest ih => exact fun host => ⟨⟨_, rfl⟩, ih _⟩

theorem Takes.tally {list : List Bytes} {count other : Tally} (h : Takes list (.tally count))
    (hf : other.failure = count.failure) : Takes list (.tally other) := by
  induction list generalizing count other with
  | nil => trivial
  | cons data rest ih =>
      intro host
      obtain ⟨hok, hrest⟩ := h host
      simp only [write, Tally.write] at hok hrest ⊢
      rw [hf]
      cases hfail : count.failure with
      | some detail =>
          rw [hfail] at hok
          obtain ⟨_, hok⟩ := hok
          cases hok
      | none =>
          rw [hfail] at hrest
          exact ⟨⟨_, rfl⟩, ih hrest rfl⟩

theorem Takes.flush {list : List Bytes} {sink : Sink} (h : Takes list sink) (host : Host) :
    Takes list (sink.flush host).2.1 := by
  cases sink with
  | tally count =>
      apply h.tally
      dsimp only
      split <;> rfl
  | file opened => exact takes_file list _
  | _ => exact h

end Sink

end Logbook
