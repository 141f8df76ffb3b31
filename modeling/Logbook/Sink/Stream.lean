import Logbook.Error

/-!
# Streams

A stream takes as many of the offered octets as it likes, asks to be called again, or fails. A
`Device` is any such behaviour: `taken` is what it has accepted so far, and `patience` bounds how
often in a row it can ask to be called again with the same octets. `Device.writeAll` offers until
everything is taken.
-/

namespace Logbook

inductive Reply where
  | accepted (count : Nat)
  | interrupted
  | failed (error : IoError)
  deriving DecidableEq, Repr

structure Device (σ : Type) where
  offer : σ → Bytes → Reply × σ
  taken : σ → Bytes
  patience : σ → Bytes → Nat
  accepted_le : ∀ {state next : σ} {data : Bytes} {count : Nat},
    offer state data = (.accepted count, next) → count ≤ data.length
  taken_accepted : ∀ {state next : σ} {data : Bytes} {count : Nat},
    offer state data = (.accepted count, next) → taken next = taken state ++ data.take count
  taken_interrupted : ∀ {state next : σ} {data : Bytes},
    offer state data = (.interrupted, next) → taken next = taken state
  patience_interrupted : ∀ {state next : σ} {data : Bytes},
    offer state data = (.interrupted, next) → patience next data < patience state data
  taken_failed : ∀ {state next : σ} {data : Bytes} {error : IoError},
    offer state data = (.failed error, next) → taken next = taken state

namespace Device

variable {σ : Type}

/-- The error of a stream that takes nothing while octets are left. -/
def stalled : IoError := ⟨.writeZero, some "failed to write whole buffer".toList⟩

/-- Offers octets until all are taken, the stream stalls or it fails. -/
def writeAll (device : Device σ) (data : Bytes) (state : σ) : Except IoError Unit × σ :=
  if data = [] then (.ok (), state)
  else
    match h : device.offer state data with
    | (.accepted count, next) =>
        if count = 0 then (.error stalled, next)
        else writeAll device (data.drop count) next
    | (.interrupted, next) =>
        have := device.patience_interrupted h
        writeAll device data next
    | (.failed error, next) => (.error error, next)
  termination_by (data.length, device.patience state data)
  decreasing_by
    · apply Prod.Lex.left
      have := device.accepted_le h
      simp
      omega
    · apply Prod.Lex.right
      assumption

/-- Writes everything or reports why not; the count is that of the data. -/
def write (device : Device σ) (data : Bytes) (state : σ) : Except LogError Nat × σ :=
  match device.writeAll data state with
  | (.ok _, after) => (.ok data.length, after)
  | (.error error, after) => (.error (.io error), after)

end Device

/-- A stream with limits: how much it takes at once and altogether, what happens at the total, and
how many of the first calls ask to be called again. -/
structure Channel where
  bytes : Bytes := []
  most : Option Nat := none
  total : Option Nat := none
  atTotal : Option IoError := none
  interruptions : Nat := 0
  flushError : Option IoError := none
  deriving DecidableEq, Repr

namespace Channel

def room (channel : Channel) (count : Nat) : Nat :=
  let count := match channel.most with
    | some most => min most count
    | none => count
  match channel.total with
  | some total => min (total - channel.bytes.length) count
  | none => count

theorem room_le (channel : Channel) (count : Nat) : channel.room count ≤ count := by
  unfold room
  split <;> split <;> dsimp only <;> omega

def isFull (channel : Channel) : Bool :=
  match channel.total with
  | some total => total ≤ channel.bytes.length
  | none => false

def offer (channel : Channel) (data : Bytes) : Reply × Channel :=
  if channel.interruptions = 0 then
    match channel.isFull, channel.atTotal with
    | true, some error => (.failed error, channel)
    | _, _ =>
        let count := channel.room data.length
        (.accepted count, { channel with bytes := channel.bytes ++ data.take count })
  else (.interrupted, { channel with interruptions := channel.interruptions - 1 })

theorem offer_cases (channel : Channel) (data : Bytes) :
    (∃ error, channel.offer data = (.failed error, channel)) ∨
    (channel.offer data = (.accepted (channel.room data.length),
      { channel with bytes := channel.bytes ++ data.take (channel.room data.length) })) ∨
    (0 < channel.interruptions ∧ channel.offer data =
      (.interrupted, { channel with interruptions := channel.interruptions - 1 })) := by
  unfold offer
  split
  · split
    · exact .inl ⟨_, rfl⟩
    · exact .inr (.inl rfl)
  · exact .inr (.inr ⟨by omega, rfl⟩)

def device : Device Channel where
  offer := offer
  taken := bytes
  patience := fun channel _ => channel.interruptions
  accepted_le := by
    intro state next data count h
    rcases offer_cases state data with ⟨_, h'⟩ | h' | ⟨_, h'⟩ <;> rw [h'] at h <;> cases h
    exact room_le state data.length
  taken_accepted := by
    intro state next data count h
    rcases offer_cases state data with ⟨_, h'⟩ | h' | ⟨_, h'⟩ <;> rw [h'] at h <;> cases h
    rfl
  taken_interrupted := by
    intro state next data h
    rcases offer_cases state data with ⟨_, h'⟩ | h' | ⟨_, h'⟩ <;> rw [h'] at h <;> cases h
    rfl
  patience_interrupted := by
    intro state next data h
    rcases offer_cases state data with ⟨_, h'⟩ | h' | ⟨hpos, h'⟩ <;> rw [h'] at h <;> cases h
    dsimp only
    omega
  taken_failed := by
    intro state next data error h
    rcases offer_cases state data with ⟨_, h'⟩ | h' | ⟨_, h'⟩ <;> rw [h'] at h <;> cases h
    rfl

def write (channel : Channel) (data : Bytes) : Except LogError Nat × Channel :=
  device.write data channel

def flush (channel : Channel) : Except LogError Unit :=
  match channel.flushError with
  | some error => .error (.io error)
  | none => .ok ()

end Channel

end Logbook
