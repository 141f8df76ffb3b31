import Logbook.Proofs.CompiledFormats
import Logbook.Proofs.TextSearch

/-!
# The place of the message

A message stands where the rendered text shows its first message token. That is the first message
token in the literal text of the template exactly when nothing that is rendered before it, neither
the prefix nor the output of a placeholder, shows one.
-/

namespace Logbook

variable {σ : Type}

namespace Segment

/-! ## The first message token of the literal text -/

/-- The segments before and behind the first message token of the literal text. -/
def cutBody? : List (Segment σ) → Option (List (Segment σ) × List (Segment σ))
  | [] => none
  | .literal text :: rest =>
      match Text.cut? Builtin.messageToken text with
      | some (before, after) => some ([.literal before], .literal after :: rest)
      | none => (cutBody? rest).map fun parts => (.literal text :: parts.1, parts.2)
  | segment :: rest => (cutBody? rest).map fun parts => (segment :: parts.1, parts.2)

/-- A segment that is no literal text with a message token. -/
def Free (segment : Segment σ) : Prop :=
  ∀ text, segment = .literal text → ¬ Text.Contains Builtin.messageToken text

theorem cutBody?_of_cut? {text before after : Text}
    (h : Text.cut? Builtin.messageToken text = some (before, after)) (rest : List (Segment σ)) :
    cutBody? (.literal text :: rest) = some ([.literal before], .literal after :: rest) := by
  simp only [cutBody?, h]

theorem cutBody?_of_free {segment : Segment σ} (hfree : segment.Free) (rest : List (Segment σ)) :
    cutBody? (segment :: rest) =
      (cutBody? rest).map fun parts => (segment :: parts.1, parts.2) := by
  cases segment with
  | literal text =>
      have hnone : Text.cut? Builtin.messageToken text = none :=
        Option.not_isSome_iff_eq_none.1 (hfree text rfl)
      simp only [cutBody?, hnone]
  | replacement token placeholder => rfl
  | prefixMark => rfl

theorem free_or_cut? (segment : Segment σ) : segment.Free ∨
    ∃ text before after, segment = .literal text ∧
      Text.cut? Builtin.messageToken text = some (before, after) := by
  cases segment with
  | literal text =>
      cases hcut : Text.cut? Builtin.messageToken text with
      | none =>
          refine .inl ?_
          rintro _ ⟨⟩
          simp [Text.Contains, hcut]
      | some parts => exact .inr ⟨text, parts.1, parts.2, rfl, hcut⟩
  | replacement token placeholder => exact .inl nofun
  | prefixMark => exact .inl nofun

theorem exists_cutBody? {segments : List (Segment σ)} {segment : Segment σ}
    (hm : segment ∈ segments) (h : ¬ segment.Free) :
    ∃ lead rest, cutBody? segments = some (lead, rest) := by
  induction segments with
  | nil => cases hm
  | cons first others ih =>
      obtain hfree | ⟨text, before, after, rfl, hcut⟩ := first.free_or_cut?
      · have hlater : segment ∈ others := by
          refine (List.mem_cons.1 hm).resolve_left ?_
          rintro rfl
          exact h hfree
        obtain ⟨lead, rest, hcut⟩ := ih hlater
        exact ⟨first :: lead, rest, by rw [cutBody?_of_free hfree, hcut]; rfl⟩
      · exact ⟨_, _, cutBody?_of_cut? hcut others⟩

/-- Between what leads to it and the rest, segments have a message token in their literal text, and
none in what leads to it. -/
structure CutAt (segments lead rest : List (Segment σ)) : Prop where
  source_eq : segments.flatMap source =
    lead.flatMap source ++ Builtin.messageToken ++ rest.flatMap source
  free : ∀ segment ∈ lead, segment.Free
  renderAll_eq : ∀ context prefixText desk,
    let before := renderAll context prefixText lead desk
    let after := renderAll context prefixText rest before.2
    renderAll context prefixText segments desk =
      (before.1 ++ Builtin.messageToken ++ after.1, after.2)

theorem cutAt_of_cut? {text before after : Text}
    (h : Text.cut? Builtin.messageToken text = some (before, after)) (rest : List (Segment σ)) :
    CutAt (.literal text :: rest) [.literal before] (.literal after :: rest) where
  source_eq := by
    rw [Text.append_of_cut? h]
    simp [source]
  free := by
    rintro segment hm _ rfl
    cases List.mem_singleton.1 hm
    exact Text.not_contains_of_cut? (by decide) h
  renderAll_eq := by
    intro context prefixText desk
    rw [Text.append_of_cut? h]
    simp [renderAll, render]

theorem CutAt.cons {segments lead rest : List (Segment σ)} (h : CutAt segments lead rest)
    {segment : Segment σ} (hfree : segment.Free) :
    CutAt (segment :: segments) (segment :: lead) rest where
  source_eq := by simp only [List.flatMap_cons, h.source_eq, List.append_assoc]
  free := List.forall_mem_cons.2 ⟨hfree, h.free⟩
  renderAll_eq := by
    intro context prefixText desk
    simp only [renderAll, h.renderAll_eq, List.append_assoc]

theorem cutAt_of_cutBody? {segments lead rest : List (Segment σ)}
    (h : cutBody? segments = some (lead, rest)) : CutAt segments lead rest := by
  induction segments generalizing lead with
  | nil => cases h
  | cons segment others ih =>
      obtain hfree | ⟨text, before, after, rfl, hcut⟩ := segment.free_or_cut?
      · rw [cutBody?_of_free hfree] at h
        obtain ⟨parts, hparts, heq⟩ := Option.map_eq_some_iff.1 h
        cases heq
        exact (ih hparts).cons hfree
      · rw [cutBody?_of_cut? hcut] at h
        cases h
        exact cutAt_of_cut? hcut others

end Segment

/-! ## The message among what is rendered around it -/

/-- Without indentation a message behind text that shows no token stands in the place of the token
that comes next. -/
theorem assemble_of_not_contains {before : Text}
    (h : ¬ Text.Contains Builtin.messageToken before) (after message : Text) :
    assemble .disabled (before ++ Builtin.messageToken ++ after) message =
      before ++ message ++ after ++ ['\n'] := by
  have hcut : Text.cut? Builtin.messageToken (before ++ Builtin.messageToken ++ after) =
      some (before, after) := Text.cut?_pair (by decide) h after
  rw [assemble, Text.replaceFirst_of_cut? _ hcut]
  simp only [Indent.width, shiftLines_zero]

/-- A token that shows before takes the message, and the token that comes next stays. -/
theorem assemble_of_cut? {before front back : Text}
    (h : Text.cut? Builtin.messageToken before = some (front, back)) (after message : Text) :
    assemble .disabled (before ++ Builtin.messageToken ++ after) message =
      front ++ message ++ back ++ Builtin.messageToken ++ after ++ ['\n'] := by
  have hcut := Text.cut?_append h (Builtin.messageToken ++ after)
  rw [← List.append_assoc] at hcut
  rw [assemble, Text.replaceFirst_of_cut? _ hcut]
  simp only [Indent.width, shiftLines_zero, List.append_assoc]

theorem encode_assemble_ne {before after : Text} (h : Text.Contains Builtin.messageToken before) :
    Text.encode (assemble .disabled (before ++ Builtin.messageToken ++ after) ['x']) ≠
      Text.encode (before ++ ['x'] ++ after ++ ['\n']) := by
  obtain ⟨⟨front, back⟩, hcut⟩ := Option.isSome_iff_exists.1 h
  rw [assemble_of_cut? hcut, Text.append_of_cut? hcut]
  simp only [Text.encode_append, List.append_assoc, ne_eq, List.append_cancel_left_eq]
  -- behind the common front, one text begins with the letter and the other with the token
  intro heq
  have hfirst := congrArg List.head? heq
  revert hfirst
  simp [Text.encode, Text.encodeChar, Builtin.messageToken]

namespace Session

/-! ## Records -/

/-- Making a record of a message, which is what a log call ends with, hands this text to the router
and nothing else. -/
def Makes (session : Session σ) (logger : Nat) (settings : Settings) (entry : Entry)
    (site : Option CallSite) (instant : Time.Instant) (message text : Text) : Prop :=
  (session.perform (.make logger entry site instant message)).handed =
    session.handed ++ [(logger, settings.router, entry.level, Text.encode text)]

theorem makes_record {session : Session σ} {logger : Nat} {settings : Settings}
    (h : session.loggers.settings? logger = some settings) (entry : Entry)
    (site : Option CallSite) (instant : Time.Instant) (message : Text) :
    session.Makes logger settings entry site instant message
      (session.record settings ⟨entry.level, site, instant⟩ message) := by
  unfold Makes
  rw [perform, handed, seen_release, seen_leave, ← handed, handed_deliver]
  exact handed_emit h ⟨entry.level, site, instant⟩ message

theorem makes_iff {session : Session σ} {logger : Nat} {settings : Settings}
    (h : session.loggers.settings? logger = some settings) {entry : Entry}
    {site : Option CallSite} {instant : Time.Instant} {message text : Text} :
    session.Makes logger settings entry site instant message text ↔
      Text.encode (session.record settings ⟨entry.level, site, instant⟩ message) =
        Text.encode text := by
  have hmade := makes_record h entry site instant message
  unfold Makes at hmade ⊢
  rw [hmade]
  simp

/-- A format in a run renders to what its segments before and behind the first message token of the
literal text render to, with the token between. -/
theorem render_of_cutBody? {own : σ} {acts : List (Act σ)} {index : Nat} {format : Format σ}
    (hat : ((fresh own).performAll acts).formatters[index]? = some (.format format))
    {lead rest : List (Segment σ)} (hcut : Segment.cutBody? format.segments = some (lead, rest))
    (context : Context) (prefixText : Text) :
    let session := (fresh own).performAll acts
    let before := Segment.renderAll context prefixText lead session.desk
    let after := Segment.renderAll context prefixText rest before.2
    (session.render index context prefixText).1 =
      before.1 ++ Builtin.messageToken ++ after.1 := by
  intro session before after
  have hcompile := Format.compile_eq_segments (coherent_performAll hat)
  have hrender := (Segment.cutAt_of_cutBody? hcut).renderAll_eq context prefixText session.desk
  rw [(render_of_format hat context prefixText).1, Format.render, hcompile]
  exact congrArg Prod.fst hrender

/-- In every state of every run, also in one inside a message: where the literal text of a format
holds a message token, the records that a logger makes with it and without indentation have each
message between what the segments before and behind the first such token render to, if and only if
the text rendered before shows no token. If it shows one, the message takes the place of that one,
and the token of the template stays. -/
theorem message_at_literal_token (own : σ) (acts : List (Act σ)) {logger : Nat}
    {settings : Settings} {format : Format σ} :
    let session := (fresh own).performAll acts
    session.loggers.settings? logger = some settings → settings.indent = .disabled →
    session.formatters[settings.formatter]? = some (.format format) →
    (∃ text, .literal text ∈ format.segments ∧ Text.Contains Builtin.messageToken text) →
    ∃ lead rest, Segment.cutBody? format.segments = some (lead, rest) ∧
      format.template = lead.flatMap Segment.source ++ Builtin.messageToken ++
        rest.flatMap Segment.source ∧
      (∀ text, .literal text ∈ lead → ¬ Text.Contains Builtin.messageToken text) ∧
      ∀ entry site instant,
        let context : Context := ⟨entry.level, site, instant⟩
        let before := Segment.renderAll context settings.prefixText lead session.desk
        let after := Segment.renderAll context settings.prefixText rest before.2
        ((∀ message, session.Makes logger settings entry site instant message
            (before.1 ++ message ++ after.1 ++ ['\n'])) ↔
          ¬ Text.Contains Builtin.messageToken before.1) ∧
        ∀ front back, Text.cut? Builtin.messageToken before.1 = some (front, back) →
          ∀ message, session.Makes logger settings entry site instant message
            (front ++ message ++ back ++ Builtin.messageToken ++ after.1 ++ ['\n']) := by
  intro session hsettings hindent hat hliteral
  obtain ⟨text, hm, hcontains⟩ := hliteral
  obtain ⟨lead, rest, hcut⟩ := Segment.exists_cutBody? hm fun hfree => hfree text rfl hcontains
  have hcutAt := Segment.cutAt_of_cutBody? hcut
  refine ⟨lead, rest, hcut, ?_, fun other hother => hcutAt.free _ hother other rfl, ?_⟩
  · rw [← hcutAt.source_eq]
    exact (Segment.flatMap_source_compile format.registry format.template).symm
  · intro entry site instant context before after
    have hrecord (message : Text) : session.record settings context message =
        assemble .disabled (before.1 ++ Builtin.messageToken ++ after.1) message := by
      rw [record, hindent, render_of_cutBody? hat hcut]
    refine ⟨⟨fun hmakes hshown => ?_, fun hfree message => ?_⟩, fun front back hshown message => ?_⟩
    · have heq := (makes_iff hsettings).1 (hmakes ['x'])
      rw [hrecord] at heq
      exact encode_assemble_ne hshown heq
    · rw [makes_iff hsettings, hrecord, assemble_of_not_contains hfree]
    · rw [makes_iff hsettings, hrecord, assemble_of_cut? hshown]

def lone (template prefixText : Text) : List (Act Unit) :=
  [.logger (.make "app" { template := some template, prefixText := some prefixText })]

def loneSettings (prefixText : Text) : Settings :=
  { formatter := 0, router := 0, prefixText, exit := .terminate, fallback := ⟨1, none⟩ }

/-- A template with a frame for the level, which holds a token of its own. -/
def framedLevel : Format Unit := { template := "$\x7bprefix\x7d$\x7blevel:[%s]\x7d: %s".toList }

def framedLead : List (Segment Unit) :=
  [.prefixMark, .replacement ⟨"level".toList, some "[%s]".toList⟩ .level, .literal [':', ' ']]

theorem message_at_literal_token_framed :
    Segment.cutBody? framedLevel.segments = some (framedLead, [.literal []]) ∧
      ∀ message, ((fresh ()).performAll (lone framedLevel.template "db".toList)).Makes 0
        (loneSettings "db".toList) (.leveled .info) none ⟨0, 0, 0⟩ message
        ("db [INFO]: ".toList ++ message ++ ['\n']) := by
  have hpieces : pieces framedLevel.template = [.token Segment.prefixToken,
      .token ⟨"level".toList, some "[%s]".toList⟩, .plain ':', .plain ' ', .plain '%',
      .plain 's'] := by decide +kernel
  have hsegments : framedLevel.segments = [.prefixMark,
      .replacement ⟨"level".toList, some "[%s]".toList⟩ .level, .literal [':', ' ', '%', 's']] := by
    rw [Format.segments, Segment.compile, hpieces]
    rfl
  have hparts : Segment.cutBody? framedLevel.segments = some (framedLead, [.literal []]) := by
    rw [hsegments]
    rfl
  obtain ⟨lead, rest, hcut, -, -, hmakes⟩ :=
    @message_at_literal_token _ () (lone framedLevel.template "db".toList) 0
      (loneSettings "db".toList) framedLevel rfl rfl rfl
      ⟨[':', ' ', '%', 's'], by rw [hsegments]; simp, by decide⟩
  cases hcut.symm.trans hparts
  have hbefore : (Segment.renderAll ⟨.info, none, ⟨0, 0, 0⟩⟩ "db".toList framedLead
      ((fresh ()).performAll (lone framedLevel.template "db".toList)).desk).1 =
      "db [INFO]: ".toList := by decide +kernel
  have hmake := (hmakes (.leveled .info) none ⟨0, 0, 0⟩).1
  simp only [Entry.level, loneSettings, hbefore, Segment.renderAll, Segment.render,
    List.append_nil] at hmake
  exact ⟨hparts, hmake.2 (by decide)⟩

def prefixed : Format Unit := { template := "$\x7bprefix\x7d%s".toList }

/-- A prefix with a token takes the message, and the token of the template stays. -/
theorem prefix_takes_message :
    ∃ lead rest, Segment.cutBody? prefixed.segments = some (lead, rest) ∧
      (let session := (fresh ()).performAll (lone prefixed.template "%s".toList)
       let context : Context := ⟨.info, none, ⟨0, 0, 0⟩⟩
       let before := Segment.renderAll context "%s".toList lead session.desk
       let after := Segment.renderAll context "%s".toList rest before.2
       session.loggers.settings? 0 = some (loneSettings "%s".toList) ∧
         session.formatters[0]? = some (.format prefixed) ∧
         session.Makes 0 (loneSettings "%s".toList) (.leveled .info) none ⟨0, 0, 0⟩ "m".toList
           "m %s\n".toList ∧
         ¬ session.Makes 0 (loneSettings "%s".toList) (.leveled .info) none ⟨0, 0, 0⟩ "m".toList
           (before.1 ++ "m".toList ++ after.1 ++ ['\n'])) := by
  have hpieces : pieces prefixed.template =
      [.token Segment.prefixToken, .plain '%', .plain 's'] := by decide +kernel
  refine ⟨[.prefixMark, .literal []], [.literal []], ?_, rfl, rfl, ?_, ?_⟩
  · rw [Format.segments, Segment.compile, hpieces]
    rfl
  · unfold Makes
    decide +kernel
  · unfold Makes
    decide +kernel

end Session

end Logbook
