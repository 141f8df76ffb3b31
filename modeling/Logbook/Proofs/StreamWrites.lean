import Logbook.Sink.Stream

/-!
# Writes to a stream

What a stream is offered by a sequence of writes, call by call. A write offers what the stream has
not accepted yet, until nothing is left or the stream gives up, so that no octet is lost and none
is sent twice, however short the pieces are that the stream takes and however often it asks to be
called again.
-/

namespace Logbook

/-- One call of a stream: the octets that it was offered and what it replied. -/
structure Exchange where
  offered : Bytes
  reply : Reply
  deriving DecidableEq, Repr

namespace Exchange

def accepted (call : Exchange) : Bytes :=
  match call.reply with
  | .accepted count => call.offered.take count
  | .interrupted => []
  | .failed _ => []

/-- The stream asked to be called again, or it took some of the octets and left some. -/
def GoesOn (call : Exchange) : Prop :=
  call.reply = .interrupted ∨
    ∃ count, call.reply = .accepted count ∧ 0 < count ∧ count < call.offered.length

/-- The stream took nothing, or it failed, which is an error of the write. -/
def Reports (call : Exchange) (error : LogError) : Prop :=
  (call.reply = .accepted 0 ∧
      error = .io ⟨.writeZero, some "failed to write whole buffer".toList⟩) ∨
    ∃ source, call.reply = .failed source ∧ error = .io source

variable {P : List Exchange → Exchange → List Exchange → Prop}

theorem forall_split_nil :
    ∀ earlier call later, [] = earlier ++ call :: later → P earlier call later := by
  simp

/-- What holds of every call of a list, with the calls in front of it and those behind. -/
theorem forall_split_cons {first : Exchange} {calls : List Exchange} :
    (∀ earlier call later, first :: calls = earlier ++ call :: later → P earlier call later) ↔
      P [] first calls ∧ ∀ earlier call later, calls = earlier ++ call :: later →
        P (first :: earlier) call later := by
  constructor
  · intro h
    refine ⟨h [] first calls rfl, fun earlier call later heq => ?_⟩
    exact h (first :: earlier) call later (by rw [heq, List.cons_append])
  · rintro ⟨hfirst, hrest⟩ earlier call later heq
    cases earlier with
    | nil =>
        cases heq
        exact hfirst
    | cons head rest =>
        obtain ⟨rfl, hcalls⟩ := List.cons.inj heq
        exact hrest rest call later hcalls

end Exchange

/-! ## One write -/

structure Write where
  data : Bytes
  calls : List Exchange
  result : Except LogError Nat

namespace Write

def accepted (write : Write) : Bytes := write.calls.flatMap Exchange.accepted

/-- What a caller can rely on, call by call and at the end. -/
structure Settled (write : Write) : Prop where
  /-- A call is offered all that was not accepted before, and nothing else. -/
  resumed : ∀ earlier call later, write.calls = earlier ++ call :: later →
    earlier.flatMap Exchange.accepted ++ call.offered = write.data ∧ call.offered ≠ []
  /-- The write calls again where something is left and the stream did not give up. -/
  insisted : ∀ earlier call later, write.calls = earlier ++ call :: later →
    (later ≠ [] ↔ call.GoesOn)
  complete : ∀ count, write.result = .ok count →
    count = write.data.length ∧ write.accepted = write.data
  short : ∀ error, write.result = .error error →
    ∃ left, left ≠ [] ∧ write.accepted ++ left = write.data
  reported : ∀ error, write.result = .error error ↔ ∃ call ∈ write.calls, call.Reports error

end Write

/-- The calls of a write, from the first one on, and how the stream gave up. -/
inductive Offers : Bytes → List Exchange → Except IoError Unit → Prop where
  | nothing : Offers [] [] (.ok ())
  | part {data : Bytes} {count : Nat} {calls : List Exchange} {result : Except IoError Unit} :
      data ≠ [] → 0 < count → count ≤ data.length → Offers (data.drop count) calls result →
      Offers data (⟨data, .accepted count⟩ :: calls) result
  | again {data : Bytes} {calls : List Exchange} {result : Except IoError Unit} :
      data ≠ [] → Offers data calls result → Offers data (⟨data, .interrupted⟩ :: calls) result
  | stalled {data : Bytes} : data ≠ [] →
      Offers data [⟨data, .accepted 0⟩] (.error Device.stalled)
  | failed {data : Bytes} {error : IoError} : data ≠ [] →
      Offers data [⟨data, .failed error⟩] (.error error)

namespace Offers

variable {data : Bytes} {calls : List Exchange} {result : Except IoError Unit}

/-- A write calls the stream exactly where it has something to offer. -/
theorem calls_ne_nil_iff (h : Offers data calls result) : calls ≠ [] ↔ data ≠ [] := by
  cases h with
  | nothing => simp
  | part hdata _ _ _ => simpa using hdata
  | again hdata _ => simpa using hdata
  | stalled hdata => simpa using hdata
  | failed hdata => simpa using hdata

/-- What was accepted is in front of what is left, and nothing is left where the write succeeds. -/
theorem accepted_append (h : Offers data calls result) :
    ∃ left, calls.flatMap Exchange.accepted ++ left = data ∧ (left = [] ↔ result = .ok ()) := by
  induction h with
  | nothing => exact ⟨[], rfl, by simp⟩
  | @part data count calls result _ _ _ _ ih =>
      obtain ⟨left, happend, hleft⟩ := ih
      refine ⟨left, ?_, hleft⟩
      rw [List.flatMap_cons, List.append_assoc, happend]
      exact List.take_append_drop count data
  | again _ _ ih => exact ih -- nothing was accepted
  | @stalled data hdata => exact ⟨data, rfl, by simp [hdata]⟩
  | @failed data error hdata => exact ⟨data, rfl, by simp [hdata]⟩

theorem resumed (h : Offers data calls result) :
    ∀ earlier call later, calls = earlier ++ call :: later →
      earlier.flatMap Exchange.accepted ++ call.offered = data ∧ call.offered ≠ [] := by
  induction h with
  | nothing => exact Exchange.forall_split_nil
  | @part data count _ _ hdata _ _ _ ih =>
      refine Exchange.forall_split_cons.2 ⟨⟨rfl, hdata⟩, fun earlier call later heq => ?_⟩
      obtain ⟨happend, hne⟩ := ih earlier call later heq
      refine ⟨?_, hne⟩
      rw [List.flatMap_cons, List.append_assoc, happend]
      exact List.take_append_drop count data
  | again hdata _ ih => exact Exchange.forall_split_cons.2 ⟨⟨rfl, hdata⟩, ih⟩
  | stalled hdata => exact Exchange.forall_split_cons.2 ⟨⟨rfl, hdata⟩, Exchange.forall_split_nil⟩
  | failed hdata => exact Exchange.forall_split_cons.2 ⟨⟨rfl, hdata⟩, Exchange.forall_split_nil⟩

theorem insisted (h : Offers data calls result) :
    ∀ earlier call later, calls = earlier ++ call :: later → (later ≠ [] ↔ call.GoesOn) := by
  induction h with
  | nothing => exact Exchange.forall_split_nil
  | @part data count calls _ hdata hpos hle hrest ih =>
      refine Exchange.forall_split_cons.2 ⟨?_, ih⟩
      -- the calls behind are those of a write of what the stream left
      have hleft : data.drop count ≠ [] ↔ count < data.length := by
        rw [Ne, List.drop_eq_nil_iff, Nat.not_le]
      rw [hrest.calls_ne_nil_iff, hleft]
      simp [Exchange.GoesOn, hpos]
  | again hdata hrest ih =>
      refine Exchange.forall_split_cons.2 ⟨?_, ih⟩
      rw [hrest.calls_ne_nil_iff]
      simp [Exchange.GoesOn, hdata]
  | stalled hdata =>
      exact Exchange.forall_split_cons.2 ⟨by simp [Exchange.GoesOn], Exchange.forall_split_nil⟩
  | failed hdata =>
      exact Exchange.forall_split_cons.2 ⟨by simp [Exchange.GoesOn], Exchange.forall_split_nil⟩

theorem reported (h : Offers data calls result) (error : LogError) :
    (∃ source, result = .error source ∧ error = .io source) ↔
      ∃ call ∈ calls, call.Reports error := by
  induction h with
  | nothing => simp
  | part _ hpos _ _ ih => simpa [Exchange.Reports, Nat.ne_of_gt hpos] using ih
  | again _ _ ih => simpa [Exchange.Reports] using ih
  | stalled _ => simp [Exchange.Reports, Device.stalled]
  | failed _ => simp [Exchange.Reports]

theorem settled_ok (h : Offers data calls (.ok ())) :
    (Write.mk data calls (.ok data.length)).Settled where
  resumed := h.resumed
  insisted := h.insisted
  complete := by
    rintro _ ⟨⟩
    obtain ⟨left, happend, hleft⟩ := h.accepted_append
    rw [hleft.2 rfl, List.append_nil] at happend
    exact ⟨rfl, happend⟩
  short := nofun
  reported := by simpa using h.reported

theorem settled_error {source : IoError} (h : Offers data calls (.error source)) :
    (Write.mk data calls (.error (.io source))).Settled where
  resumed := h.resumed
  insisted := h.insisted
  complete := nofun
  short := by
    rintro _ ⟨⟩
    obtain ⟨left, happend, hleft⟩ := h.accepted_append
    refine ⟨left, fun hnil => ?_, happend⟩
    cases hleft.1 hnil
  reported := by
    intro error
    rw [← h.reported error]
    simp [eq_comm]

end Offers

namespace Device

variable {σ : Type} {device : Device σ}

/-- The stream is called again and again, each time in the state that the call before left. -/
inductive Answers (device : Device σ) : List Exchange → σ → σ → Prop where
  | done (state : σ) : Answers device [] state state
  | next {data : Bytes} {reply : Reply} {calls : List Exchange} {state between after : σ} :
      device.offer state data = (reply, between) → Answers device calls between after →
      Answers device (⟨data, reply⟩ :: calls) state after

theorem taken_offer {state next : σ} {data : Bytes} {reply : Reply}
    (h : device.offer state data = (reply, next)) :
    device.taken next = device.taken state ++ (Exchange.mk data reply).accepted := by
  cases reply with
  | accepted count => exact device.taken_accepted h
  | interrupted => rw [device.taken_interrupted h, Exchange.accepted, List.append_nil]
  | failed error => rw [device.taken_failed h, Exchange.accepted, List.append_nil]

namespace Answers

theorem append {calls more : List Exchange} {state between after : σ}
    (h : device.Answers calls state between) (h' : device.Answers more between after) :
    device.Answers (calls ++ more) state after := by
  induction h with
  | done _ => exact h'
  | next hoffer _ ih => exact .next hoffer (ih h')

theorem split {earlier later : List Exchange} {state after : σ}
    (h : device.Answers (earlier ++ later) state after) :
    ∃ between, device.Answers earlier state between ∧ device.Answers later between after := by
  induction earlier generalizing state with
  | nil => exact ⟨state, .done state, h⟩
  | cons call rest ih =>
      cases h with
      | next hoffer hrest =>
          obtain ⟨between, hearlier, hlater⟩ := ih hrest
          exact ⟨between, .next hoffer hearlier, hlater⟩

theorem taken {calls : List Exchange} {state after : σ} (h : device.Answers calls state after) :
    device.taken after = device.taken state ++ calls.flatMap Exchange.accepted := by
  induction h with
  | done state => rw [List.flatMap_nil, List.append_nil]
  | next hoffer _ ih => rw [ih, taken_offer hoffer, List.flatMap_cons, List.append_assoc]

end Answers

/-- What `writeAll` offers and how it is answered. -/
theorem exists_offers (device : Device σ) (data : Bytes) (state : σ) :
    ∃ calls, device.Answers calls state (device.writeAll data state).2 ∧
      Offers data calls (device.writeAll data state).1 := by
  fun_induction Device.writeAll device data state with
  | case1 state => exact ⟨[], .done state, .nothing⟩
  | case2 data state hdata next hoffer =>
      exact ⟨_, .next hoffer (.done next), .stalled hdata⟩
  | case3 data state hdata count next hoffer hcount ih =>
      obtain ⟨calls, hanswers, hoffers⟩ := ih
      exact ⟨_, .next hoffer hanswers,
        .part hdata (Nat.pos_of_ne_zero hcount) (device.accepted_le hoffer) hoffers⟩
  | case4 data state hdata next hoffer _ ih =>
      obtain ⟨calls, hanswers, hoffers⟩ := ih
      exact ⟨_, .next hoffer hanswers, .again hdata hoffers⟩
  | case5 data state hdata error next hoffer =>
      exact ⟨_, .next hoffer (.done next), .failed hdata⟩

/-- A write is answered call by call and settled. -/
theorem exists_settled (device : Device σ) (data : Bytes) (state : σ) :
    ∃ calls, device.Answers calls state (device.write data state).2 ∧
      (Write.mk data calls (device.write data state).1).Settled := by
  obtain ⟨calls, hanswers, hoffers⟩ := exists_offers device data state
  refine ⟨calls, ?_⟩
  rw [write]
  generalize device.writeAll data state = written at hanswers hoffers
  obtain ⟨_ | _, after⟩ := written
  · exact ⟨hanswers, hoffers.settled_error⟩
  · exact ⟨hanswers, hoffers.settled_ok⟩

/-! ## A sequence of writes -/

def writeEach (device : Device σ) : List Bytes → σ → List (Except LogError Nat) × σ
  | [], state => ([], state)
  | data :: more, state =>
      match device.write data state with
      | (result, next) =>
          match writeEach device more next with
          | (results, after) => (result :: results, after)

theorem exists_settled_each (device : Device σ) (datas : List Bytes) (state : σ) :
    ∃ writes : List Write,
      writes.map Write.data = datas ∧
      writes.map Write.result = (device.writeEach datas state).1 ∧
      (∀ write ∈ writes, write.Settled) ∧
      device.Answers (writes.flatMap Write.calls) state (device.writeEach datas state).2 := by
  induction datas generalizing state with
  | nil => exact ⟨[], rfl, rfl, List.forall_mem_nil _, .done state⟩
  | cons data more ih =>
      obtain ⟨calls, hanswers, hsettled⟩ := exists_settled device data state
      obtain ⟨writes, rfl, hresults, hall, hrest⟩ := ih (device.write data state).2
      refine ⟨⟨data, calls, (device.write data state).1⟩ :: writes, rfl, ?_,
        List.forall_mem_cons.2 ⟨hsettled, hall⟩, hanswers.append hrest⟩
      rw [List.map_cons, hresults]
      rfl

theorem flatMap_accepted_of_complete {writes : List Write}
    (hsettled : ∀ write ∈ writes, write.Settled)
    (hok : ∀ write ∈ writes, ∃ count, write.result = .ok count) :
    writes.flatMap Write.accepted = (writes.map Write.data).flatten := by
  rw [List.flatMap_def]
  refine congrArg List.flatten (List.map_congr_left fun write hwrite => ?_)
  obtain ⟨count, hcount⟩ := hok write hwrite
  exact ((hsettled write hwrite).complete count hcount).2

/-- Whatever a stream does, every write of a sequence is settled: it offers what has not been
accepted yet and goes on as long as the stream does not give up, it returns the length of its data
with all of them accepted, or the error of the stream with only a part accepted. At every moment the
stream holds what was accepted so far, in order, and after writes that all succeeded it holds all
their data. -/
theorem writes_settled (device : Device σ) (datas : List Bytes) (state : σ) :
    ∃ writes : List Write,
      writes.map Write.data = datas ∧
      writes.map Write.result = (device.writeEach datas state).1 ∧
      (∀ write ∈ writes, write.Settled) ∧
      device.Answers (writes.flatMap Write.calls) state (device.writeEach datas state).2 ∧
      (∀ earlier later, writes.flatMap Write.calls = earlier ++ later →
        ∃ between, device.Answers earlier state between ∧
          device.Answers later between (device.writeEach datas state).2 ∧
          device.taken between = device.taken state ++ earlier.flatMap Exchange.accepted) ∧
      device.taken (device.writeEach datas state).2 =
        device.taken state ++ writes.flatMap Write.accepted ∧
      ((∀ result ∈ (device.writeEach datas state).1, ∃ count, result = .ok count) →
        device.taken (device.writeEach datas state).2 = device.taken state ++ datas.flatten) := by
  obtain ⟨writes, hdatas, hresults, hsettled, hanswers⟩ := exists_settled_each device datas state
  have htaken : device.taken (device.writeEach datas state).2 =
      device.taken state ++ writes.flatMap Write.accepted := by
    rw [hanswers.taken, List.flatMap_assoc]
    rfl
  refine ⟨writes, hdatas, hresults, hsettled, hanswers, fun earlier later heq => ?_, htaken,
    fun hok => ?_⟩
  · obtain ⟨between, hearlier, hlater⟩ := (heq ▸ hanswers).split
    exact ⟨between, hearlier, hlater, hearlier.taken⟩
  · have hcomplete : ∀ write ∈ writes, ∃ count, write.result = .ok count := fun write hwrite =>
      hok write.result (hresults ▸ List.mem_map_of_mem hwrite)
    rw [htaken, flatMap_accepted_of_complete hsettled hcomplete, hdatas]

/-- A stream that asks once to be called again and takes two octets at a time, five altogether: two
writes fill it, and a longer one behind the first is cut short. -/
theorem writes_settled_cut_short :
    let channel : Channel := { most := some 2, total := some 5, interruptions := 1 }
    (Channel.device.writeEach [[1, 2, 3], [4, 5]] channel).1 = [.ok 3, .ok 2] ∧
      (Channel.device.writeEach [[1, 2, 3], [4, 5]] channel).2.bytes = [1, 2, 3, 4, 5] ∧
      ∃ writes : List Write,
        writes.map Write.data = [[1, 2, 3], [4, 5, 6]] ∧
        writes.map Write.result = [.ok 3,
          .error (.io ⟨.writeZero, some "failed to write whole buffer".toList⟩)] ∧
        (∀ write ∈ writes, write.Settled) ∧
        writes.flatMap Write.accepted = [1, 2, 3, 4, 5] := by
  intro channel
  have hfull : Channel.device.writeEach [[1, 2, 3], [4, 5]] channel =
      ([.ok 3, .ok 2], { channel with bytes := [1, 2, 3, 4, 5], interruptions := 0 }) := by cbv
  have hcut : Channel.device.writeEach [[1, 2, 3], [4, 5, 6]] channel =
      ([.ok 3, .error (.io ⟨.writeZero, some "failed to write whole buffer".toList⟩)],
        { channel with bytes := [1, 2, 3, 4, 5], interruptions := 0 }) := by cbv
  refine ⟨by rw [hfull], ?_, ?_⟩
  · obtain ⟨_, -, -, -, -, -, -, hall⟩ :=
      writes_settled Channel.device [[1, 2, 3], [4, 5]] channel
    exact hall (by simp [hfull])
  · obtain ⟨writes, hdatas, hresults, hsettled, -, -, htaken, -⟩ :=
      writes_settled Channel.device [[1, 2, 3], [4, 5, 6]] channel
    rw [hcut] at hresults htaken
    exact ⟨writes, hdatas, hresults, hsettled, htaken.symm⟩

end Device

end Logbook
