import Logbook.Proofs.ConfigRoundTrip

/-!
# Reading settings

Which settings are read from a document, stated by the grammar of JSON: an object overrides the
fields that it names, in any order, an array those that stand first, and an object with a name that
no field has, or with a name twice, is refused whatever else it holds. Every value that fits a field
is a single lexeme, so that a reader which does not fail stands behind the value.
-/

namespace Logbook

namespace Json

/-- A reader takes one lexeme or fails, and at an open lexeme it fails. -/
structure Single {α : Type} (read : Reader α) : Prop where
  takes : ∀ lexeme rest, (∃ fault, read (lexeme :: rest) = .error fault) ∨
    ∃ value, read (lexeme :: rest) = .ok (value, rest)
  refuses : ∀ lexeme rest, lexeme.Open → ∃ fault, read (lexeme :: rest) = .error fault

theorem single_readText (expected : Text) : Single (readText expected) where
  takes := by
    intro lexeme rest
    cases lexeme with
    | string text => exact .inr ⟨text, rfl⟩
    | _ => exact .inl ⟨_, rfl⟩
  refuses := by
    rintro _ rest (rfl | rfl | rfl) <;> exact ⟨_, rfl⟩

theorem single_readTruth : Single readTruth where
  takes := by
    intro lexeme rest
    cases lexeme with
    | truth value => exact .inr ⟨value, rfl⟩
    | _ => exact .inl ⟨_, rfl⟩
  refuses := by
    rintro _ rest (rfl | rfl | rfl) <;> exact ⟨_, rfl⟩

theorem single_readWord : Single readWord where
  takes := by
    intro lexeme rest
    cases lexeme with
    | number value =>
        cases value with
        | natural value => exact .inr ⟨_, rfl⟩
        | _ => exact .inl ⟨_, rfl⟩
    | _ => exact .inl ⟨_, rfl⟩
  refuses := by
    rintro _ rest (rfl | rfl | rfl) <;> exact ⟨_, rfl⟩

theorem Single.optional {α : Type} {read : Reader α} (h : Single read) :
    Single (readOptional read) where
  takes := by
    intro lexeme rest
    by_cases hnull : lexeme = .null
    · subst hnull
      exact .inr ⟨none, rfl⟩
    · obtain ⟨fault, hfault⟩ | ⟨value, hvalue⟩ := h.takes lexeme rest
      · refine .inl ⟨fault, ?_⟩
        cases lexeme <;> first | exact absurd rfl hnull | simp only [readOptional, hfault]
      · refine .inr ⟨some value, ?_⟩
        cases lexeme <;> first | exact absurd rfl hnull | simp only [readOptional, hvalue]
  refuses := by
    intro lexeme rest hopen
    obtain ⟨fault, hfault⟩ := h.refuses lexeme rest hopen
    refine ⟨fault, ?_⟩
    rcases hopen with rfl | rfl | rfl <;> simp only [readOptional, hfault]

theorem Single.map {α β : Type} {read : Reader α} (h : Single read) (f : α → β) :
    Single fun lexemes => (read lexemes).map fun found => (f found.1, found.2) where
  takes := by
    intro lexeme rest
    obtain ⟨fault, hfault⟩ | ⟨value, hvalue⟩ := h.takes lexeme rest
    · exact .inl ⟨fault, by rw [hfault]; rfl⟩
    · exact .inr ⟨f value, by rw [hvalue]; rfl⟩
  refuses := by
    intro lexeme rest hopen
    obtain ⟨fault, hfault⟩ := h.refuses lexeme rest hopen
    exact ⟨fault, by rw [hfault]; rfl⟩

end Json

theorem Level.single_read : Json.Single Level.read where
  takes := by
    intro lexeme rest
    cases lexeme with
    | string text =>
        simp only [Level.read, Json.readText]
        cases parse text with
        | ok level => exact .inr ⟨level, rfl⟩
        | error cause => exact .inl ⟨_, rfl⟩
    | _ => exact .inl ⟨_, rfl⟩
  refuses := by
    rintro _ rest (rfl | rfl | rfl) <;> exact ⟨_, rfl⟩

namespace ConfigField

theorem single_read (field : ConfigField) (config : Config) : Json.Single (field.read config) := by
  cases field with
  | level => exact Level.single_read.map fun level => { config with level }
  | format => exact (Json.single_readText _).map fun format => { config with format }
  | prefixText => exact (Json.single_readText _).map fun prefixText => { config with prefixText }
  | indentLines => exact Json.single_readTruth.map fun indentLines => { config with indentLines }
  | shiftIndent =>
      exact Json.single_readWord.optional.map fun shiftIndent => { config with shiftIndent }

theorem read_value (field : ConfigField) (config : Config) {text rest : Text}
    (h : Json.Value text) (hrest : Json.EndsNumber rest) :
    (∃ fault, field.read config (Json.scan (text ++ rest)) = .error fault) ∨
      ∃ next, field.read config (Json.scan (text ++ rest)) = .ok (next, Json.scan rest) := by
  have single := field.single_read config
  obtain ⟨lexeme, hscan⟩ | ⟨lexeme, more, hscan, hopen⟩ := Json.scan_value h hrest
  · rw [hscan]
    exact single.takes lexeme _
  · rw [hscan]
    exact .inl (single.refuses lexeme more hopen)

/-- The texts of values that fit a field and stand for its value in given settings. -/
inductive Holds (given : Config) : ConfigField → Text → Prop where
  | level {spelling name : Text} : Json.Spells spelling name →
      Level.parse name = .ok given.level → Holds given .level ('"' :: (spelling ++ ['"']))
  | format {spelling : Text} : Json.Spells spelling given.format →
      Holds given .format ('"' :: (spelling ++ ['"']))
  | prefixText {spelling : Text} : Json.Spells spelling given.prefixText →
      Holds given .prefixText ('"' :: (spelling ++ ['"']))
  | yes : given.indentLines = true → Holds given .indentLines "true".toList
  | no : given.indentLines = false → Holds given .indentLines "false".toList
  | null : given.shiftIndent = none → Holds given .shiftIndent "null".toList
  | width {width : UInt64} : given.shiftIndent = some width →
      Holds given .shiftIndent (Text.decimal width.toNat)

/-- A value that fits is one lexeme, from which the field takes over the value. -/
theorem Holds.scan {given : Config} {field : ConfigField} {text rest : Text}
    (h : field.Holds given text) (hrest : Json.EndsNumber rest) :
    ∃ lexeme, Json.scan (text ++ rest) = lexeme :: Json.scan rest ∧ lexeme ≠ .closeArray ∧
      ∀ config more, field.read config (lexeme :: more) = .ok (field.copy given config, more) := by
  cases h with
  | @level spelling name hspells hparse =>
      rw [List.cons_append, List.append_assoc]
      refine ⟨_, Json.scan_string hspells rest, by simp, fun config more => ?_⟩
      simp only [read, Level.read, Json.readText, hparse]
      rfl
  | format hspells =>
      rw [List.cons_append, List.append_assoc]
      exact ⟨_, Json.scan_string hspells rest, by simp, fun config more => rfl⟩
  | prefixText hspells =>
      rw [List.cons_append, List.append_assoc]
      exact ⟨_, Json.scan_string hspells rest, by simp, fun config more => rfl⟩
  | yes htrue =>
      refine ⟨.truth true, Json.scan_word (by decide) fun _ => rfl, by simp, fun config more => ?_⟩
      rw [copy, htrue]
      rfl
  | no hfalse =>
      refine ⟨.truth false, Json.scan_word (by decide) fun _ => rfl, by simp, fun config more => ?_⟩
      rw [copy, hfalse]
      rfl
  | null hnone =>
      refine ⟨.null, Json.scan_word (by decide) fun _ => rfl, by simp, fun config more => ?_⟩
      rw [copy, hnone]
      rfl
  | @width width hsome =>
      have hword : width.toNat ≤ Json.greatestWord := Nat.le_sub_one_of_lt width.toNat_lt
      refine ⟨_, Json.scan_natural hword hrest, by simp, fun config more => ?_⟩
      simp [read, copy, Json.readOptional, Json.readWord, Except.map, hsome]

theorem name_of_ofName? {name : Text} {field : ConfigField} (h : ofName? name = some field) :
    field.name = name := by
  simpa using List.find?_some h

theorem name_injective {field other : ConfigField} (h : field.name = other.name) :
    field = other := by
  have hfound := ofName?_name field
  rw [h, ofName?_name] at hfound
  exact (Option.some.inj hfound).symm

/-- The names of fields can be written as they are. -/
theorem spells_name (field : ConfigField) : Json.Spells field.name field.name := by
  apply Json.spells_self
  cases field <;> decide

/-- A member that is named for a field and holds the value that the field has in given settings. -/
def Names (given : Config) (field : ConfigField) (member : Text × Text) : Prop :=
  member.1 = field.name ∧ field.Holds given member.2

end ConfigField

namespace Config

def overriding (given base : Config) (fields : List ConfigField) : Config where
  level := if .level ∈ fields then given.level else base.level
  format := if .format ∈ fields then given.format else base.format
  prefixText := if .prefixText ∈ fields then given.prefixText else base.prefixText
  indentLines := if .indentLines ∈ fields then given.indentLines else base.indentLines
  shiftIndent := if .shiftIndent ∈ fields then given.shiftIndent else base.shiftIndent

theorem foldl_copy (given base : Config) (fields : List ConfigField) :
    fields.foldl (ConfigField.copy given) base = given.overriding base fields := by
  induction fields generalizing base with
  | nil => simp [overriding]
  | cons field rest ih =>
      rw [List.foldl_cons, ih]
      cases field <;> simp [overriding, ConfigField.copy]

theorem overriding_perm {given base : Config} {fields others : List ConfigField}
    (h : fields.Perm others) : given.overriding base fields = given.overriding base others := by
  simp only [overriding, h.mem_iff]

/-! ## Objects -/

/-- The members of different fields are read as these fields, in any order. -/
theorem readMembers_members (given : Config) {fields missing : List ConfigField}
    {members : List (Text × Text)} {text : Text} (h : Json.Members Json.Value members text)
    (hnames : List.Forall₂ (ConfigField.Names given) fields members) (hne : members ≠ [])
    (hnodup : fields.Nodup) (hmissing : ∀ field ∈ fields, field ∈ missing) (config : Config)
    (rest : Text) :
    readMembers missing config (Json.scan (text ++ '\x7d' :: rest)) =
      .ok (given.overriding config fields, Json.scan rest) := by
  rw [← foldl_copy]
  induction h generalizing fields missing config with
  | none _ => exact absurd rfl hne
  | @one member text hmember =>
      obtain ⟨name, value⟩ := member
      obtain ⟨field, others, ⟨rfl, hholds⟩, hnil, rfl⟩ := List.forall₂_cons_right_iff.1 hnames
      cases hnil
      obtain ⟨-, back, hback, hscan⟩ := Json.scan_member hmember
      have hends := Json.endsNumber_blank hback
        (Json.endsNumber_mark (.inr (.inl rfl)) rest)
      obtain ⟨lexeme, hvalue, -, hread⟩ := hholds.scan hends
      rw [hscan, readMembers_named (hmissing field List.mem_cons_self), hvalue, hread,
        Json.scan_blank hback, Json.scan_closeObject]
      rfl
  | @more member next members text more hmember _ ih =>
      obtain ⟨name, value⟩ := member
      obtain ⟨field, others, ⟨rfl, hholds⟩, hothers, rfl⟩ := List.forall₂_cons_right_iff.1 hnames
      obtain ⟨-, back, hback, hscan⟩ := Json.scan_member hmember
      have hends := Json.endsNumber_blank hback
        (Json.endsNumber_mark (.inl rfl) (more ++ '\x7d' :: rest))
      obtain ⟨lexeme, hvalue, -, hread⟩ := hholds.scan hends
      rw [List.append_assoc, List.cons_append, hscan,
        readMembers_named (hmissing field List.mem_cons_self), hvalue, hread,
        Json.scan_blank hback, Json.scan_comma]
      exact ih hothers (by simp) hnodup.of_cons (still_missing hnodup hmissing) _

/-- A member in front is refused, or it has the name of a missing field and, where a comma follows,
the reading goes on behind that without the field. -/
theorem readMembers_member {missing : List ConfigField} {name value text : Text}
    (h : Json.Member Json.Value (name, value) text) (config : Config) {rest : Text}
    (hrest : Json.EndsNumber rest) :
    (∃ fault, readMembers missing config (Json.scan (text ++ rest)) = .error fault) ∨
      ∃ field ∈ missing, field.name = name ∧
        ∀ more, Json.scan rest = .comma :: more →
          ∃ next, readMembers missing config (Json.scan (text ++ rest)) =
            readMembers (missing.erase field) next more := by
  obtain ⟨hvalue, back, hback, hscan⟩ := Json.scan_member h
  have hends := Json.endsNumber_blank hback hrest
  rw [hscan]
  cases hfound : ConfigField.ofName? name with
  | none =>
      refine .inl ⟨.unknownField name (ConfigField.all.map ConfigField.name), ?_⟩
      simp only [readMembers, hfound]
  | some field =>
      obtain rfl := ConfigField.name_of_ofName? hfound
      by_cases hmissing : field ∈ missing
      · rw [readMembers_named hmissing]
        obtain ⟨fault, hread⟩ | ⟨next, hread⟩ := field.read_value config hvalue hends
        · exact .inl ⟨fault, by rw [hread]⟩
        · refine .inr ⟨field, hmissing, rfl, fun more hcomma => ⟨next, ?_⟩⟩
          rw [hread, Json.scan_blank hback, hcomma]
      · refine .inl ⟨.repeatedField field.name, ?_⟩
        simp only [readMembers, hfound, dif_neg hmissing]

/-- Members with a name that is no missing field, or that comes twice, are refused. -/
theorem readMembers_refused {missing : List ConfigField} (hmissing : missing.Nodup)
    {members : List (Text × Text)} {text : Text} (h : Json.Members Json.Value members text)
    (hbad : ¬ ((∀ member ∈ members, ∃ field ∈ missing, field.name = member.1) ∧
      (members.map Prod.fst).Nodup)) (config : Config) (rest : Text) :
    ∃ fault, readMembers missing config (Json.scan (text ++ '\x7d' :: rest)) = .error fault := by
  induction h generalizing missing config with
  | none _ => exact absurd (by simp) hbad
  | @one member text hmember =>
      have hends := Json.endsNumber_mark (.inr (.inl rfl)) rest
      obtain hfault | ⟨field, hfield, hname, -⟩ :=
        @readMembers_member missing _ _ _ hmember config _ hends
      · exact hfault
      · exact absurd (by simpa using ⟨field, hfield, hname⟩) hbad
  | @more member next members text more hmember _ ih =>
      have hends := Json.endsNumber_mark (.inl rfl) (more ++ '\x7d' :: rest)
      rw [List.append_assoc, List.cons_append]
      obtain hfault | ⟨field, hfield, hname, hgo⟩ :=
        @readMembers_member missing _ _ _ hmember config _ hends
      · exact hfault
      · obtain ⟨settings, hread⟩ := hgo _ (Json.scan_comma _)
        rw [hread]
        refine ih (hmissing.erase field) (fun hgood => hbad ?_) settings
        -- the names behind are those of other fields, so that this one makes them no worse
        obtain ⟨hnames, hnodup⟩ := hgood
        refine ⟨List.forall_mem_cons.2 ⟨⟨field, hfield, hname⟩, fun other hother => ?_⟩,
          List.nodup_cons.2 ⟨fun hm => ?_, hnodup⟩⟩
        · obtain ⟨found, hfound, heq⟩ := hnames other hother
          exact ⟨found, List.mem_of_mem_erase hfound, heq⟩
        · obtain ⟨other, hother, heq⟩ := List.mem_map.1 hm
          obtain ⟨found, hfound, hfoundname⟩ := hnames other hother
          have hsame : found = field :=
            ConfigField.name_injective (hfoundname.trans (heq.trans hname.symm))
          exact hmissing.not_mem_erase (hsame ▸ hfound)

/-! ## Arrays -/

/-- An element for the next field is read up to its end, behind a comma unless it is the first. -/
theorem readElements_value (first : Bool) {field : ConfigField} {more : List ConfigField}
    {config next : Config} {lexeme : Json.Lexeme} {rest : List Json.Lexeme}
    (hclose : lexeme ≠ .closeArray)
    (hread : field.read config (lexeme :: rest) = .ok (next, rest)) :
    readElements first config (field :: more)
        ((if first then [] else [.comma]) ++ lexeme :: rest) =
      readElements false next more rest := by
  cases first <;> cases lexeme <;>
    first | exact absurd rfl hclose | simp [readElements, hread]

/-- The elements of an array are read as the first fields. -/
theorem readElements_elements (given : Config) {fields : List ConfigField} {elements : List Text}
    {text : Text} (h : Json.Elements Json.Value elements text)
    (hholds : List.Forall₂ (ConfigField.Holds given) fields elements) (hne : elements ≠ [])
    (others : List ConfigField) (first : Bool) (config : Config) (rest : Text) :
    readElements first config (fields ++ others)
        ((if first then [] else [.comma]) ++ Json.scan (text ++ ']' :: rest)) =
      .ok (given.overriding config fields, Json.scan rest) := by
  rw [← foldl_copy]
  induction h generalizing fields first config with
  | none _ => exact absurd rfl hne
  | @one front text back hfront _ hback =>
      obtain ⟨field, _, hfield, hnil, rfl⟩ := List.forall₂_cons_right_iff.1 hholds
      cases hnil
      have hends := Json.endsNumber_blank hback
        (Json.endsNumber_mark (.inr (.inr rfl)) rest)
      obtain ⟨lexeme, hvalue, hlexeme, hread⟩ := hfield.scan hends
      simp only [List.append_assoc, List.singleton_append]
      rw [Json.scan_blank hfront, hvalue, readElements_value first hlexeme (hread _ _),
        Json.scan_blank hback, Json.scan_closeArray]
      cases others <;> rfl
  | @more front text back next more elements hfront _ hback _ ih =>
      obtain ⟨field, others', hfield, hothers, rfl⟩ := List.forall₂_cons_right_iff.1 hholds
      have hends := Json.endsNumber_blank hback
        (Json.endsNumber_mark (.inl rfl) (more ++ ']' :: rest))
      obtain ⟨lexeme, hvalue, hlexeme, hread⟩ := hfield.scan hends
      simp only [List.append_assoc, List.cons_append]
      rw [Json.scan_blank hfront, hvalue, readElements_value first hlexeme (hread _ _),
        Json.scan_blank hback, Json.scan_comma]
      exact ih hothers (by simp) false _

/-! ## Documents -/

theorem readDocument_of_scan {α : Type} {read : Json.Reader α} {document : Text} {value : α}
    {back : Text} (hback : Json.Blank back)
    (h : read (Json.scan document) = .ok (value, Json.scan back)) :
    Json.readDocument read document = .ok value := by
  have hend : Json.scan back = [] := by
    rw [← List.append_nil back, Json.scan_blank hback, Json.scan]
  rw [Json.readDocument, h, hend]

/-- A member begins with its name, so that a brace in front of it is no empty object. -/
theorem read_openObject {members : List (Text × Text)} {text : Text}
    (h : Json.Members Json.Value members text) (hne : members ≠ []) (rest : Text) :
    read (.openObject :: Json.scan (text ++ rest)) =
      readMembers ConfigField.all standard (Json.scan (text ++ rest)) := by
  cases h with
  | none _ => exact absurd rfl hne
  | one hmember =>
      obtain ⟨-, back, -, hscan⟩ := Json.scan_member hmember
      rw [hscan]
      rfl
  | @more _ _ _ _ more hmember _ =>
      obtain ⟨-, back, -, hscan⟩ := Json.scan_member hmember
      rw [List.append_assoc, hscan]
      rfl

/-- A document of different fields overrides these fields and no other. -/
theorem ofJson_object {given : Config} {fields : List ConfigField} {members : List (Text × Text)}
    {document : Text} (h : Json.ObjectDocument members document)
    (hnames : List.Forall₂ (ConfigField.Names given) fields members) (hnodup : fields.Nodup) :
    ofJson document = .ok (given.overriding standard fields) := by
  obtain @⟨front, inside, back, hfront, hinside, hback⟩ := h
  refine readDocument_of_scan hback ?_
  rw [Json.scan_blank hfront, Json.scan_openObject]
  by_cases hne : members = []
  · subst hne
    cases hnames
    cases hinside with
    | none hblank =>
      rw [Json.scan_blank hblank, Json.scan_closeObject]
      rfl
  · have hall : ∀ field ∈ fields, field ∈ ConfigField.all := fun field _ => by
      cases field <;> decide
    rw [read_openObject hinside hne]
    exact readMembers_members given hinside hnames hne hnodup hall standard back

/-- An array overrides as many fields as it has elements. -/
theorem ofJson_array {given : Config} {count : Nat} {elements : List Text} {document : Text}
    (h : Json.ArrayDocument elements document)
    (hholds : List.Forall₂ (ConfigField.Holds given) (ConfigField.all.take count) elements) :
    ofJson document = .ok (given.overriding standard (ConfigField.all.take count)) := by
  obtain @⟨front, inside, back, hfront, hinside, hback⟩ := h
  refine readDocument_of_scan hback ?_
  rw [Json.scan_blank hfront, Json.scan_openArray]
  by_cases hne : elements = []
  · subst hne
    have hnone : ConfigField.all.take count = [] := List.forall₂_nil_right_iff.1 hholds
    cases hinside with
    | none hblank =>
      rw [Json.scan_blank hblank, Json.scan_closeArray, hnone]
      rfl
  · have hread := readElements_elements given hinside hholds hne (ConfigField.all.drop count) true
      standard back
    rwa [List.take_append_drop] at hread

/-- An object is refused for a name that no field has and for a name that comes twice. -/
theorem ofJson_refused {members : List (Text × Text)} {document : Text}
    (h : Json.ObjectDocument members document)
    (hbad : (∃ member ∈ members, ∀ field : ConfigField, field.name ≠ member.1) ∨
      ¬ (members.map Prod.fst).Nodup) :
    ∃ fault, ofJson document = .error fault := by
  obtain @⟨front, inside, back, hfront, hinside, -⟩ := h
  have hne : members ≠ [] := by
    rintro rfl
    simp at hbad
  have hbad' : ¬ ((∀ member ∈ members, ∃ field ∈ ConfigField.all, field.name = member.1) ∧
      (members.map Prod.fst).Nodup) := by
    rintro ⟨hnames, hnodup⟩
    obtain ⟨member, hmember, hunknown⟩ | htwice := hbad
    · obtain ⟨field, -, hname⟩ := hnames member hmember
      exact hunknown field hname
    · exact htwice hnodup
  obtain ⟨fault, hfault⟩ := readMembers_refused (by decide) hinside hbad' standard back
  refine ⟨fault, ?_⟩
  rw [ofJson, Json.readDocument, Json.scan_blank hfront, Json.scan_openObject,
    read_openObject hinside hne, hfault]

/-- An object of different fields with values that fit overrides the standard settings in these
fields and in no other, in whatever order they stand; an array of values for the first fields does
what an object of these fields does; and an object with a name that no field has, or with a name
twice, is refused, wherever the name stands and whatever else the object holds. -/
theorem read_by_name_and_place :
    (∀ (given : Config) (fields : List ConfigField) (members : List (Text × Text))
        (document : Text), Json.ObjectDocument members document →
      List.Forall₂ (ConfigField.Names given) fields members → fields.Nodup →
        ofJson document = .ok (given.overriding standard fields)) ∧
    (∀ (given : Config) (count : Nat) (elements : List Text) (array : Text),
      Json.ArrayDocument elements array →
      List.Forall₂ (ConfigField.Holds given) (ConfigField.all.take count) elements →
        ofJson array = .ok (given.overriding standard (ConfigField.all.take count)) ∧
        ∀ (fields : List ConfigField) (members : List (Text × Text)) (object : Text),
          fields.Perm (ConfigField.all.take count) → Json.ObjectDocument members object →
          List.Forall₂ (ConfigField.Names given) fields members →
            ofJson object = ofJson array) ∧
    ∀ (members : List (Text × Text)) (document : Text), Json.ObjectDocument members document →
      (∃ member ∈ members, ∀ field : ConfigField, field.name ≠ member.1) ∨
        ¬ (members.map Prod.fst).Nodup →
      ∃ fault, ofJson document = .error fault := by
  refine ⟨fun given fields members document => ofJson_object,
    fun given count elements array harray hholds => ⟨ofJson_array harray hholds, ?_⟩,
    fun members document => ofJson_refused⟩
  intro fields members object hperm hobject hnames
  have hnodup : (ConfigField.all.take count).Nodup :=
    List.Nodup.sublist (List.take_sublist _ _) (by decide)
  rw [ofJson_object hobject hnames (hperm.nodup_iff.2 hnodup), ofJson_array harray hholds,
    overriding_perm hperm]

/-- Two values in an array; an object of the same two with the order turned around, blanks and an
escape in a name; and an object with an unknown name behind a value that would not fit. -/
theorem read_by_name_and_place_written :
    let given : Config := { standard with level := .warning, format := "%s".toList }
    ofJson "[\"wArn\", \"%s\"]".toList = .ok given ∧
      ofJson "\x7b\n\"format\" : \"%s\" ,\"l\\u0065vel\":\"wArn\"\x7d\n".toList = .ok given ∧
      ∃ fault, ofJson "\x7b\"level\":[],\"colour\":null\x7d".toList = .error fault := by
  intro given
  obtain ⟨hobject, harray, hrefused⟩ := read_by_name_and_place
  have hnone : Json.Blank [] := by simp [Json.Blank]
  have hspace : Json.Blank [' '] := by simp [Json.Blank]
  have hline : Json.Blank ['\n'] := by simp [Json.Blank]
  have hwarn : Json.Spells "wArn".toList "wArn".toList := Json.spells_self (by decide)
  have hbody : Json.Spells "%s".toList given.format := Json.spells_self (by decide)
  have hlevel : ConfigField.level.Holds given "\"wArn\"".toList := .level hwarn (by decide)
  have hformat : ConfigField.format.Holds given "\"%s\"".toList := .format hbody
  refine ⟨?_, ?_, ?_⟩
  · have hdocument : Json.ArrayDocument ["\"wArn\"".toList, "\"%s\"".toList]
        "[\"wArn\", \"%s\"]".toList :=
      @Json.ArrayDocument.text _ [] _ [] hnone
        (@Json.Elements.more _ [] _ [] _ _ _ hnone (.string hwarn) hnone
          (@Json.Elements.one _ [' '] _ [] hspace (.string hbody) hnone)) hnone
    exact (harray given 2 _ _ hdocument (.cons hlevel (.cons hformat .nil))).1
  · have hescape : Json.SpellsChar "\\u0065".toList 'e' :=
      .number (@Json.HexUnit.digits '0' '0' '6' '5' 0 0 6 5 rfl rfl rfl rfl) (by decide)
    have hbehind : Json.Spells "vel".toList "vel".toList := Json.spells_self (by decide)
    have hname : Json.Spells "l\\u0065vel".toList ConfigField.level.name :=
      .cons (.plain (c := 'l') (by decide) (by decide) (by decide)) (.cons hescape hbehind)
    have hdocument : Json.ObjectDocument
        [(ConfigField.format.name, "\"%s\"".toList), (ConfigField.level.name, "\"wArn\"".toList)]
        "\x7b\n\"format\" : \"%s\" ,\"l\\u0065vel\":\"wArn\"\x7d\n".toList :=
      @Json.ObjectDocument.text _ [] _ ['\n'] hnone
        (.more (@Json.Member.named _ ['\n'] _ _ [' '] [' '] _ [' '] hline
            (ConfigField.spells_name .format) hspace hspace (.string hbody) hspace)
          (.one (@Json.Member.named _ [] _ _ [] [] _ [] hnone hname hnone hnone (.string hwarn)
            hnone))) hline
    exact hobject given [.format, .level] _ _ hdocument
      (.cons ⟨rfl, hformat⟩ (.cons ⟨rfl, hlevel⟩ .nil)) (by decide)
  · have hdocument : Json.ObjectDocument
        [(ConfigField.level.name, "[]".toList), ("colour".toList, "null".toList)]
        "\x7b\"level\":[],\"colour\":null\x7d".toList :=
      @Json.ObjectDocument.text _ [] _ [] hnone
        (.more (@Json.Member.named _ [] _ _ [] [] _ [] hnone (ConfigField.spells_name .level)
            hnone hnone (@Json.Value.array [] [] (.none hnone)) hnone)
          (.one (@Json.Member.named _ [] _ _ [] [] _ [] hnone (Json.spells_self (by decide)) hnone
            hnone .null hnone))) hnone
    refine hrefused _ _ hdocument (.inl ⟨_, List.mem_cons_of_mem _ List.mem_cons_self, ?_⟩)
    intro field
    cases field <;> decide

end Config

end Logbook
