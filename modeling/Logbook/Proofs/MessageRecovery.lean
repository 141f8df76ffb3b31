import Logbook.Proofs.BodyPlace
import Logbook.Proofs.TextOctets

/-!
# Messages come back from their records

Where the rendered text shows a message token, a record tells its message: what stands around the
message is known, and behind each of its line feeds as many characters are taken away as spaces were
put there. Whatever a message holds, spaces, line feeds or tokens, no other one has the same record.
-/

namespace Logbook

variable {σ : Type}

def unshiftLines (width : Nat) : Text → Text
  | [] => []
  | c :: rest =>
      if c = '\n' then c :: unshiftLines width (rest.drop width) else c :: unshiftLines width rest
  termination_by text => text.length
  decreasing_by all_goals simp; try omega

/-- The message of a record that was made around a rendered text. -/
def recoverMessage (width : Nat) (rendered record : Text) : Text :=
  match Text.cut? Builtin.messageToken rendered with
  | none => []
  | some (before, after) =>
      let behind := record.drop before.length
      unshiftLines width (behind.take (behind.length - (after.length + 1)))

theorem shiftLines_cons (width : Nat) (c : Char) (rest : Text) :
    shiftLines width (c :: rest) =
      if c = '\n' then c :: (spaces width ++ shiftLines width rest)
      else c :: shiftLines width rest := by
  unfold shiftLines
  rw [List.flatMap_cons]
  split
  · rename_i hc
    rw [hc]
    rfl
  · rfl

/-- The spaces that were put behind a line feed are those that are taken away, also where the
message goes on with spaces. -/
theorem unshiftLines_shiftLines (width : Nat) (message : Text) :
    unshiftLines width (shiftLines width message) = message := by
  induction message with
  | nil => rw [shiftLines, List.flatMap_nil, unshiftLines]
  | cons c rest ih =>
      rw [shiftLines_cons]
      split
      · rename_i hc
        have hdrop : (spaces width ++ shiftLines width rest).drop width =
            shiftLines width rest := by
          rw [List.drop_append_of_le_length (by simp), List.drop_eq_nil_of_le (by simp),
            List.nil_append]
        rw [unshiftLines, if_pos hc, hdrop, ih]
      · rename_i hc
        rw [unshiftLines, if_neg hc, ih]

/-- Around a text that shows a token, every message comes back under the width of its lines. -/
theorem recoverMessage_assemble {rendered : Text}
    (h : Text.Contains Builtin.messageToken rendered) (indent : Indent) (message : Text) :
    recoverMessage (indent.width rendered) rendered (assemble indent rendered message) =
      message := by
  obtain ⟨⟨before, after⟩, hcut⟩ := Option.isSome_iff_exists.1 h
  have hrecord : assemble indent rendered message =
      before ++ (shiftLines (indent.width rendered) message ++ (after ++ ['\n'])) := by
    rw [assemble, Text.replaceFirst_of_cut? _ hcut]
    simp only [List.append_assoc]
  have hlength : (shiftLines (indent.width rendered) message ++ (after ++ ['\n'])).length -
      (after.length + 1) = (shiftLines (indent.width rendered) message).length := by
    simp only [List.length_append, List.length_singleton]
    omega
  simp only [recoverMessage, hcut, hrecord, List.drop_left, hlength, List.take_left,
    unshiftLines_shiftLines]

namespace Session

/-- In every state of a session, where the text that a formatter renders for a record shows a
message token: making the record of a message hands over octets from which the message comes back,
given the rendered text and the width by which its lines were shifted. So different messages have
different records, under every indentation. -/
theorem messages_recoverable {session : Session σ} {logger : Nat} {settings : Settings}
    (hsettings : session.loggers.settings? logger = some settings) (entry : Entry)
    (site : Option CallSite) (instant : Time.Instant) :
    let rendered := (session.render settings.formatter ⟨entry.level, site, instant⟩
      settings.prefixText).1
    Builtin.messageToken <:+: rendered →
      ∃ record : Text → Bytes,
        (∀ message, (session.perform (.make logger entry site instant message)).handed =
          session.handed ++ [(logger, settings.router, entry.level, record message)]) ∧
        (∀ message, recoverMessage (settings.indent.width rendered) rendered
          (Text.decode (record message)) = message) ∧
        ∀ message other, message ≠ other → record message ≠ record other := by
  intro rendered hshown
  have hcontains := (Text.contains_iff_infix Builtin.messageToken rendered).2 hshown
  have hback : ∀ message, recoverMessage (settings.indent.width rendered) rendered
      (Text.decode (Text.encode (assemble settings.indent rendered message))) = message := by
    intro message
    rw [Text.decode_encode, recoverMessage_assemble hcontains]
  refine ⟨fun message => Text.encode (assemble settings.indent rendered message),
    fun message => makes_record hsettings entry site instant message, hback, ?_⟩
  intro message other hne hsame
  dsimp only at hsame
  have hrecovered := hback message
  rw [hsame, hback other] at hrecovered
  exact hne hrecovered.symm

def shifting : List (Act Unit) :=
  [.logger (.make "app" { template := some "$\x7blevel\x7d %s|%s".toList, shiftIndent := some 2 })]

def shiftingSettings : Settings :=
  { formatter := 0, router := 0, indent := .shift 2, exit := .terminate, fallback := ⟨1, none⟩ }

/-- A message with spaces behind a line feed, a token and a line feed at its end. -/
theorem messages_recoverable_shifted :
    let message := "a\n  %s\n".toList
    let record := "INFO a\n    %s\n  |%s\n".toList
    (((fresh ()).performAll shifting).perform
        (.make 0 (.leveled .info) none ⟨0, 0, 0⟩ message)).handed =
      [(0, 0, .info, Text.encode record)] ∧
      recoverMessage 2 "INFO %s|%s".toList record = message := by
  intro message record
  have hset : ((fresh ()).performAll shifting).loggers.settings? 0 = some shiftingSettings := by
    decide +kernel
  have hrendered : (((fresh ()).performAll shifting).render 0 ⟨.info, none, ⟨0, 0, 0⟩⟩ []).1 =
      "INFO %s|%s".toList := by decide +kernel
  have hhanded : (((fresh ()).performAll shifting).perform
      (.make 0 (.leveled .info) none ⟨0, 0, 0⟩ message)).handed =
        [(0, 0, .info, Text.encode record)] := by decide +kernel
  have hshown : Builtin.messageToken <:+: "INFO %s|%s".toList := by
    rw [← Text.contains_iff_infix]
    decide
  obtain ⟨records, hmade, hback, -⟩ :=
    messages_recoverable hset (.leveled .info) none ⟨0, 0, 0⟩ (hrendered ▸ hshown)
  have hnone : ((fresh ()).performAll shifting).handed = [] := rfl
  have hrecord : records message = Text.encode record := by
    have hsame := (hmade message).symm.trans hhanded
    rw [hnone] at hsame
    simpa [Entry.level, shiftingSettings] using hsame
  have hrecovered := hback message
  rw [hrecord, Text.decode_encode] at hrecovered
  exact ⟨hhanded, hrendered ▸ hrecovered⟩

end Session

end Logbook
