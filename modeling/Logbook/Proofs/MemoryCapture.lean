import Logbook.Proofs.SinkUses
import Logbook.Proofs.SparedSinks
import Logbook.Proofs.TextOctets
import Mathlib.Data.List.DropRight

/-!
# What a memory sink captures

A memory sink can be written, drained and read through any number of handles, routers and loggers.
It holds the octets that came since it was last drained, and reads them as a whole. Whatever was
valid text when it was written comes out once, with a drain or at the end.
-/

namespace Logbook

namespace Use

def dataFor? (index : Nat) : Use → Option Bytes
  | .write sink data => if sink = index then some data else none
  | _ => none

def dataFor (index : Nat) (uses : List Use) : List Bytes := uses.filterMap (dataFor? index)

/-- The uses behind the last one that drains the sink at an index. -/
def sinceDrain (index : Nat) (uses : List Use) : List Use := uses.rtakeWhile (· ≠ .drain index)

theorem dataFor_concat (index : Nat) (uses : List Use) (use : Use) :
    dataFor index (uses ++ [use]) = dataFor index uses ++ (use.dataFor? index).toList := by
  unfold dataFor
  rw [List.filterMap_append, List.filterMap_cons]
  cases use.dataFor? index <;> rfl

theorem sinceDrain_concat_drain (index : Nat) (uses : List Use) :
    sinceDrain index (uses ++ [.drain index]) = [] :=
  List.rtakeWhile_concat_neg _ _ _ (by simp)

theorem sinceDrain_concat_of_ne {index : Nat} {use : Use} (h : use ≠ .drain index)
    (uses : List Use) :
    sinceDrain index (uses ++ [use]) = sinceDrain index uses ++ [use] :=
  List.rtakeWhile_concat_pos _ _ _ (by simpa using h)

/-- A use writes the sink at an index, drains it or does neither. -/
theorem written_or_drained (index : Nat) (use : Use) :
    (∃ data, use = .write index data) ∨ use = .drain index ∨
      (use.dataFor? index = none ∧ use ≠ .drain index) := by
  cases use with
  | write sink data =>
      by_cases h : sink = index
      · exact .inl ⟨data, by rw [h]⟩
      · exact .inr (.inr ⟨if_neg h, Use.noConfusion⟩)
  | drain sink =>
      by_cases h : sink = index
      · exact .inr (.inl (by rw [h]))
      · exact .inr (.inr ⟨rfl, fun heq => h (Use.drain.inj heq)⟩)
  | _ => exact .inr (.inr ⟨rfl, Use.noConfusion⟩)

end Use

open Use (dataFor sinceDrain)

namespace Memory

def used (index : Nat) (memory : Memory) : Use → Memory
  | .write sink data => if sink = index then memory.write data else memory
  | .drain sink => if sink = index then memory.drain.2 else memory
  | _ => memory

@[simp] theorem used_write (index : Nat) (memory : Memory) (data : Bytes) :
    memory.used index (.write index data) = memory.write data := if_pos rfl

@[simp] theorem used_drain (index : Nat) (memory : Memory) :
    memory.used index (.drain index) = {} := if_pos rfl

theorem used_of_other {index : Nat} {use : Use} (hdata : use.dataFor? index = none)
    (hdrain : use ≠ .drain index) (memory : Memory) : memory.used index use = memory := by
  cases use with
  | write sink data =>
      refine if_neg fun heq => ?_
      simp [Use.dataFor?, heq] at hdata
  | drain sink => exact if_neg fun heq => hdrain (by rw [heq])
  | _ => rfl

end Memory

namespace Outlets

variable {outlets : Outlets} {index : Nat} {memory : Memory}

/-! ## One use -/

theorem sink?_add {sink : Sink} (h : outlets.sink? index = some sink) (more : Sink) :
    (outlets.add more).sink? index = some sink := by
  unfold sink? add at *
  rw [List.getElem?_append_left (List.getElem?_eq_some_iff.1 h).1, h]

theorem sink?_make (h : outlets.sink? index = some (.memory memory)) (plan : SinkPlan) :
    (outlets.make plan).sink? index = some (.memory memory) := by
  cases plan with
  | file path =>
      simp only [make, openFile]
      split
      · exact h
      · exact sink?_add h _
  | _ => exact sink?_add h _

section

variable {other : Nat}

theorem sink?_write_of_ne (h : outlets.sink? index = some (.memory memory)) (hne : other ≠ index)
    (data : Bytes) : (outlets.write other data).2.sink? index = some (.memory memory) := by
  unfold write
  split
  · exact h
  · dsimp only
    split <;> exact (sink?_set_of_ne outlets hne _).trans h

theorem sink?_flush_of_ne (h : outlets.sink? index = some (.memory memory)) (hne : other ≠ index) :
    (outlets.flush other).2.sink? index = some (.memory memory) := by
  unfold flush
  split
  · exact h
  · exact (sink?_set_of_ne outlets hne _).trans h

theorem sink?_drain_of_ne (h : outlets.sink? index = some (.memory memory)) (hne : other ≠ index) :
    (outlets.drain other).sink? index = some (.memory memory) := by
  unfold drain
  split
  · exact (sink?_set_of_ne outlets hne _).trans h
  · exact h

theorem sink?_close_of_ne (h : outlets.sink? index = some (.memory memory)) (hne : other ≠ index) :
    (outlets.close other).sink? index = some (.memory memory) := by
  unfold close
  split
  · exact (sink?_set_of_ne outlets hne _).trans h
  · exact h

end

/-- A use leaves a memory sink where it is, and does to it what it does to its memory. -/
theorem sink?_use (h : outlets.sink? index = some (.memory memory)) (use : Use) :
    (outlets.use use).sink? index = some (.memory (memory.used index use)) := by
  have hself := fun sink => sink?_set_self (List.getElem?_eq_some_iff.1 h).1 sink
  cases use with
  | make plan => exact sink?_make h plan
  | makeDirectory path => exact h
  | write sink data =>
      by_cases hs : sink = index
      · subst hs
        simp only [use, write, h, Memory.used, if_pos]
        split <;> exact hself _
      · simp only [use, Memory.used, if_neg hs]
        exact sink?_write_of_ne h hs data
  | flush sink =>
      by_cases hs : sink = index
      · subst hs
        simp only [use, flush, h]
        exact hself _
      · exact sink?_flush_of_ne h hs
  | drain sink =>
      by_cases hs : sink = index
      · subst hs
        simp only [use, drain, h, Memory.used, if_pos]
        exact hself _
      · simp only [use, Memory.used, if_neg hs]
        exact sink?_drain_of_ne h hs
  | close sink =>
      by_cases hs : sink = index
      · subst hs
        simp only [use, close, h]
        rfl
      · exact sink?_close_of_ne h hs

def drained? (index : Nat) (outlets : Outlets) : Use → Option Text
  | .drain sink =>
      if sink = index then
        match outlets.sink? sink with
        | some (.memory memory) => some memory.drain.1
        | _ => none
      else none
  | _ => none

def drained (index : Nat) : Outlets → List Use → List Text
  | _, [] => []
  | outlets, use :: rest =>
      (outlets.drained? index use).toList ++ drained index (outlets.use use) rest

theorem drained_concat (index : Nat) (outlets : Outlets) (uses : List Use) (use : Use) :
    outlets.drained index (uses ++ [use]) =
      outlets.drained index uses ++ ((outlets.useAll uses).drained? index use).toList := by
  induction uses generalizing outlets with
  | nil => simp [drained, useAll]
  | cons first rest ih =>
      rw [List.cons_append, drained, ih, drained, List.append_assoc]
      rfl

theorem drained?_drain (h : outlets.sink? index = some (.memory memory)) :
    outlets.drained? index (.drain index) = some memory.contents := by
  simp only [drained?, h, if_pos]
  rfl

theorem drained?_of_ne {use : Use} (h : use ≠ .drain index) (outlets : Outlets) :
    outlets.drained? index use = none := by
  cases use with
  | drain sink => exact if_neg fun heq => h (by rw [heq])
  | _ => rfl

/-! ## Runs -/

theorem sink?_useAll_concat (uses : List Use) (use : Use)
    (h : (outlets.useAll uses).sink? index = some (.memory memory)) :
    (outlets.useAll (uses ++ [use])).sink? index = some (.memory (memory.used index use)) := by
  rw [useAll_append]
  exact sink?_use h use

/-- A memory sink stays one, and holds what was written since it was last drained. -/
theorem exists_memory (hnew : outlets.sink? index = some (.memory {})) (uses : List Use) :
    ∃ memory, (outlets.useAll uses).sink? index = some (.memory memory) ∧
      memory.bytes = (dataFor index (sinceDrain index uses)).flatten := by
  induction uses using List.reverseRecOn with
  | nil => exact ⟨{}, hnew, rfl⟩
  | append_singleton uses use ih =>
      obtain ⟨memory, hmemory, hbytes⟩ := ih
      refine ⟨_, sink?_useAll_concat uses use hmemory, ?_⟩
      rcases use.written_or_drained index with ⟨data, rfl⟩ | rfl | ⟨hdata, hdrain⟩
      · rw [Use.sinceDrain_concat_of_ne Use.noConfusion, Use.dataFor_concat, List.flatten_append,
          ← hbytes]
        simp [Use.dataFor?]
      · rw [Use.sinceDrain_concat_drain, Memory.used_drain]
        rfl
      · rw [Use.sinceDrain_concat_of_ne hdrain, Use.dataFor_concat, hdata,
          Memory.used_of_other hdata hdrain, hbytes, Option.toList_none, List.append_nil]

/-- As long as only texts are written, the memory holds a text, and together with what was drained
it is all that was written. -/
theorem exists_text (hnew : outlets.sink? index = some (.memory {})) {uses : List Use}
    {texts : List Text} (htexts : dataFor index uses = texts.map Text.encode) :
    ∃ text, (outlets.useAll uses).sink? index = some (.memory ⟨Text.encode text⟩) ∧
      (outlets.drained index uses).flatten ++ text = texts.flatten := by
  induction uses using List.reverseRecOn generalizing texts with
  | nil =>
      obtain rfl : texts = [] := by simpa [dataFor] using htexts.symm
      exact ⟨[], hnew, rfl⟩
  | append_singleton uses use ih =>
      rw [Use.dataFor_concat] at htexts
      obtain ⟨front, last, rfl, hfront, hlast⟩ := List.map_eq_append_iff.1 htexts.symm
      obtain ⟨text, hmemory, htext⟩ := ih hfront.symm
      have hafter := sink?_useAll_concat uses use hmemory
      rw [drained_concat, List.flatten_append, List.flatten_append, ← htext]
      rcases use.written_or_drained index with ⟨data, rfl⟩ | rfl | ⟨hdata, hdrain⟩
      · obtain ⟨more, rfl, rfl⟩ : ∃ more, last = [more] ∧ Text.encode more = data := by
          simpa [Use.dataFor?, List.map_eq_singleton_iff] using hlast
        refine ⟨text ++ more, ?_, ?_⟩
        · rw [hafter, Memory.used_write, Memory.write, Text.encode_append]
        · rw [drained?_of_ne Use.noConfusion]
          simp
      · obtain rfl : last = [] := by simpa [Use.dataFor?] using hlast
        refine ⟨[], ?_, ?_⟩
        · rw [hafter, Memory.used_drain]
          rfl
        · rw [drained?_drain hmemory, Memory.contents, Text.decode_encode]
          simp
      · obtain rfl : last = [] := by simpa [hdata] using hlast
        refine ⟨text, ?_, ?_⟩
        · rw [hafter, Memory.used_of_other hdata hdrain]
        · rw [drained?_of_ne hdrain]
          simp

/-- What a memory sink captures, whatever is used in between and through whatever leads to it: the
data written since it was last drained, one after the other. It is empty exactly when these are, and
reads them as a whole, so that a character whose octets are all there is read wherever they were
split. When all data written are texts, the texts that were drained and the contents together are
those texts. -/
theorem memory_captures {outlets : Outlets} {index : Nat}
    (hnew : outlets.sink? index = some (.memory {})) (uses : List Use) :
    ∃ memory : Memory, (outlets.useAll uses).sink? index = some (.memory memory) ∧
      memory.bytes = (dataFor index (sinceDrain index uses)).flatten ∧
      (memory.isEmpty = true ↔ (dataFor index (sinceDrain index uses)).flatten = []) ∧
      memory.contents = Text.decode (dataFor index (sinceDrain index uses)).flatten ∧
      (∀ front c rest,
        (dataFor index (sinceDrain index uses)).flatten = front ++ Text.encodeChar c ++ rest →
          memory.contents = Text.decode front ++ c :: Text.decode rest) ∧
      ∀ texts : List Text, dataFor index uses = texts.map Text.encode →
        (outlets.drained index uses).flatten ++ memory.contents = texts.flatten := by
  obtain ⟨memory, hmemory, hbytes⟩ := exists_memory hnew uses
  have hcontents : memory.contents =
      Text.decode (dataFor index (sinceDrain index uses)).flatten := by
    rw [Memory.contents, hbytes]
  refine ⟨memory, hmemory, hbytes, ?_, hcontents, fun front c rest hheld => ?_,
    fun texts htexts => ?_⟩
  · rw [Memory.isEmpty, decide_eq_true_iff, hbytes]
  · rw [hcontents, hheld, Text.decode_append_encodeChar]
  · obtain ⟨text, htext, hall⟩ := exists_text hnew htexts
    obtain rfl : memory = ⟨Text.encode text⟩ := by
      rw [hmemory] at htext
      cases htext
      rfl
    rw [Memory.contents, Text.decode_encode, hall]

end Outlets

namespace Session

def capturing : Session Unit :=
  { fresh () with
    outlets := { sinks := [.memory {}] }
    sinkHandles := .insert {} "log" 0
    routers := [.toAll ⟨0, none⟩]
    routerHandles := .insert {} "routes" 0 }

/-- A character in two parts, through two handles. -/
def splitting : List (Act Unit) :=
  [.sink (.write "log" (Text.encode "due: ".toList)), .sink (.drain "log"),
    .sink (.write "log" [0xE2, 0x82]), .router (.write "routes" .info [0xAC])]

def draining : List (Act Unit) :=
  [.sink (.write "log" (Text.encode "due: ".toList)), .sink (.drain "log"),
    .router (.write "routes" .info (Text.encode "5 €".toList))]

theorem memory_captures_shared :
    (∃ memory, (capturing.performAll splitting).outlets.sink? 0 = some (.memory memory) ∧
      memory.contents = ['€']) ∧
    ∃ memory, (capturing.performAll draining).outlets.sink? 0 = some (.memory memory) ∧
      "due: ".toList ++ memory.contents = "due: 5 €".toList := by
  have hnew : capturing.outlets.sink? 0 = some (.memory {}) := rfl
  have hsame : ∀ acts, (capturing.performAll acts).outlets.sink? 0 =
      (capturing.outlets.useAll (capturing.usesAll acts)).sink? 0 := by
    intro acts
    rw [Outlets.sink?, (capturing.agrees_performAll acts).sinks]
    rfl
  constructor
  · obtain ⟨memory, hmemory, -, -, -, hsplit, -⟩ :=
      Outlets.memory_captures hnew (capturing.usesAll splitting)
    have hheld : (dataFor 0 (sinceDrain 0 (capturing.usesAll splitting))).flatten =
        [] ++ Text.encodeChar '€' ++ [] := by decide +kernel
    exact ⟨memory, (hsame splitting).trans hmemory, hsplit [] '€' [] hheld⟩
  · obtain ⟨memory, hmemory, -, -, -, -, htexts⟩ :=
      Outlets.memory_captures hnew (capturing.usesAll draining)
    have hwritten : dataFor 0 (capturing.usesAll draining) =
        ["due: ".toList, "5 €".toList].map Text.encode := by decide +kernel
    have hdrained : capturing.outlets.drained 0 (capturing.usesAll draining) =
        ["due: ".toList] := by decide +kernel
    have hall := htexts _ hwritten
    rw [hdrained, List.flatten_singleton] at hall
    exact ⟨memory, (hsame draining).trans hmemory, hall⟩

end Session

end Logbook
