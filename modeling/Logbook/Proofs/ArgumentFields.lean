import Logbook.Argument

/-!
# Fields and arguments

Splitting an argument and writing fields are inverse to each other. Every argument is the writing
of its fields; of the lists of fields all come back but the one with a single empty field and those
in which a backslash would stand before a separating colon.
-/

namespace Logbook.Argument

/-! ## Writing fields -/

theorem head?_escape_ne (field : Text) : (escape field).head? ≠ some ':' := by
  cases field with
  | nil => simp [escape]
  | cons c rest =>
      by_cases hc : c = ':'
      · simp [escape, hc]
      · simp [escape, hc]

theorem escape_cons (c : Char) (field : Text) :
    escape (c :: field) = (if c = ':' then ['\\', ':'] else [c]) ++ escape field :=
  List.flatMap_cons

theorem encode_cons (field next : Text) (more : List Text) :
    encode (field :: next :: more) = escape field ++ ':' :: encode (next :: more) := by
  simp [encode, Text.joinWith]

/-- A character in front of the first field is written in front of all. -/
theorem encode_cons_cons (c : Char) (field : Text) (more : List Text) :
    encode ((c :: field) :: more) =
      (if c = ':' then ['\\', ':'] else [c]) ++ encode (field :: more) := by
  cases more with
  | nil => exact escape_cons c field
  | cons next more => rw [encode_cons, encode_cons, escape_cons, List.append_assoc]

/-! ## Reading fields -/

@[simp] theorem fields_colon (rest : Text) : fields (':' :: rest) = [] :: fields rest := by
  simp [fields]

/-- A character that is no colon and escapes none goes to the first field behind it. -/
theorem fields_cons {c : Char} {text field : Text} {more : List Text} (hc : c ≠ ':')
    (hescape : c = '\\' → text.head? ≠ some ':') (h : fields text = field :: more) :
    fields (c :: text) = (c :: field) :: more := by
  unfold fields
  split
  · rename_i heq
    cases heq
  · rename_i rest heq
    cases heq
    exact absurd rfl (hescape rfl)
  · rename_i heq
    cases heq
    rw [if_neg hc, h]

theorem fields_escaped {text field : Text} {more : List Text} (h : fields text = field :: more) :
    fields ('\\' :: ':' :: text) = (':' :: field) :: more := by
  simp [fields, h]

/-- Of a text that begins with a written field the first field is that one, whatever follows, if it
brings no colon behind a backslash. -/
theorem fields_escape_append {field rest first : Text} {more : List Text}
    (hrest : fields rest = first :: more)
    (hclosed : field.getLast? = some '\\' → rest.head? ≠ some ':') :
    fields (escape field ++ rest) = (field ++ first) :: more := by
  induction field with
  | nil => exact hrest
  | cons c field ih =>
      have hfield : fields (escape field ++ rest) = (field ++ first) :: more := by
        apply ih
        intro hlast
        apply hclosed
        rw [List.getLast?_cons, hlast]
        rfl
      rw [escape_cons, List.append_assoc]
      by_cases hc : c = ':'
      · rw [if_pos hc, hc]
        exact fields_escaped hfield
      · rw [if_neg hc]
        refine fields_cons hc ?_ hfield
        rintro rfl
        cases field with
        | nil => exact hclosed rfl
        | cons d tail =>
            have hhead := head?_escape_ne (d :: tail)
            have hne : escape (d :: tail) ≠ [] := by
              rw [escape_cons]
              split <;> simp
            obtain ⟨e, others, he⟩ := List.exists_cons_of_ne_nil hne
            rw [he] at hhead ⊢
            exact hhead

theorem fields_escape (field : Text) : fields (escape field) = [field] := by
  have h := @fields_escape_append field [] [] [] rfl (by simp)
  simpa using h

/-! ## Lists that come back -/

/-- No field but the last ends with a backslash. -/
def Closed (fields : List Text) : Prop :=
  ∀ field ∈ fields.dropLast, field.getLast? ≠ some '\\'

instance (fields : List Text) : Decidable (Closed fields) := by unfold Closed; infer_instance

theorem closed_single (field : Text) : Closed [field] := by simp [Closed]

theorem closed_cons {field next : Text} {more : List Text} :
    Closed (field :: next :: more) ↔ field.getLast? ≠ some '\\' ∧ Closed (next :: more) := by
  simp [Closed]

theorem fields_encode {list : List Text} (hne : list ≠ []) (hclosed : Closed list) :
    fields (encode list) = list := by
  induction list with
  | nil => exact absurd rfl hne
  | cons field rest ih =>
      cases rest with
      | nil => exact fields_escape field
      | cons next more =>
          obtain ⟨hfield, hrest⟩ := closed_cons.1 hclosed
          have hbehind := ih (by simp) hrest
          rw [encode_cons]
          have h := @fields_escape_append field (':' :: encode (next :: more)) [] (next :: more)
            (by rw [fields_colon, hbehind]) fun hlast => absurd hlast hfield
          simpa using h

theorem encode_fields (argument : Text) : encode (fields argument) = argument := by
  fun_induction fields argument with
  | case1 => rfl
  | case2 rest field more hfields ih =>
      rw [encode_cons_cons, ← hfields, ih]
      rfl
  | case3 rest hfields => exact absurd hfields (fields_ne_nil rest)
  | case4 rest _ ih =>
      obtain ⟨field, more, hfields⟩ := List.exists_cons_of_ne_nil (fields_ne_nil rest)
      rw [hfields] at ih
      rw [hfields, encode_cons, ih]
      rfl
  | case5 c rest _ hc field more hfields ih =>
      rw [encode_cons_cons, if_neg hc, ← hfields, ih]
      rfl
  | case6 c rest _ hc hfields => exact absurd hfields (fields_ne_nil rest)

theorem closed_fields (argument : Text) : Closed (fields argument) := by
  fun_induction fields argument with
  | case1 => exact closed_single []
  | case2 rest field more hfields ih =>
      rw [hfields] at ih
      cases more with
      | nil => exact closed_single _
      | cons next more =>
          obtain ⟨hfield, hrest⟩ := closed_cons.1 ih
          refine closed_cons.2 ⟨?_, hrest⟩
          cases field with
          | nil => decide
          | cons d tail => simpa using hfield
  | case3 rest hfields => exact absurd hfields (fields_ne_nil rest)
  | case4 rest _ ih =>
      obtain ⟨field, more, hfields⟩ := List.exists_cons_of_ne_nil (fields_ne_nil rest)
      rw [hfields] at ih ⊢
      exact closed_cons.2 ⟨by simp, ih⟩
  | case5 c rest hplain hc field more hfields ih =>
      rw [hfields] at ih
      cases more with
      | nil => exact closed_single _
      | cons next more =>
          obtain ⟨hfield, hrest⟩ := closed_cons.1 ih
          refine closed_cons.2 ⟨?_, hrest⟩
          cases field with
          | nil =>
              -- the rest begins with a colon here, which a backslash in front would escape
              have hrest := encode_fields rest
              rw [hfields, encode_cons] at hrest
              intro hlast
              have hbackslash : c = '\\' := by simpa using hlast
              exact hplain _ hbackslash hrest.symm
          | cons d tail => simpa using hfield
  | case6 c rest _ hc hfields => exact absurd hfields (fields_ne_nil rest)

/-! ## How many fields there are -/

/-- How many colons of a text have no backslash right before them, when the text stands behind a
given character or behind none. -/
def bareColonsBehind (before : Option Char) (text : Text) : Nat :=
  ((before :: text.map some).zip text).countP fun pair => pair.2 = ':' ∧ pair.1 ≠ some '\\'

def bareColons (argument : Text) : Nat := bareColonsBehind none argument

theorem bareColonsBehind_cons (before : Option Char) (c : Char) (rest : Text) :
    bareColonsBehind before (c :: rest) =
      bareColonsBehind (some c) rest + if c = ':' ∧ before ≠ some '\\' then 1 else 0 := by
  simp [bareColonsBehind, List.countP_cons]

theorem length_fields {argument : Text} {before : Option Char}
    (h : before = some '\\' → argument.head? ≠ some ':') :
    (fields argument).length = bareColonsBehind before argument + 1 := by
  fun_induction fields argument generalizing before with
  | case1 => rfl
  | case2 rest field more hfields ih =>
      have hrest := @ih (some ':') (by simp)
      rw [hfields] at hrest
      simpa [bareColonsBehind_cons] using hrest
  | case3 rest hfields => exact absurd hfields (fields_ne_nil rest)
  | case4 rest _ ih =>
      have hbefore : before ≠ some '\\' := fun hb => h hb rfl
      have hrest := @ih (some ':') (by simp)
      simp [bareColonsBehind_cons, hbefore, hrest]
  | case5 c rest hplain hc field more hfields ih =>
      have hrest := @ih (some c) (by
        intro hbackslash hcolon
        cases rest with
        | nil => cases hcolon
        | cons d tail =>
            cases hcolon
            exact hplain tail (Option.some.inj hbackslash) rfl)
      rw [hfields] at hrest
      simpa [bareColonsBehind_cons, hc] using hrest
  | case6 c rest _ hc hfields => exact absurd hfields (fields_ne_nil rest)

/-! ## Both directions -/

theorem encode_split (argument : Text) : encode (split argument) = argument := by
  unfold split
  split
  · rename_i h
    rw [h]
    rfl
  · exact encode_fields argument

theorem closed_split (argument : Text) : Closed (split argument) := by
  unfold split
  split
  · simp [Closed]
  · exact closed_fields argument

theorem split_ne_single_nil (argument : Text) : split argument ≠ [[]] := by
  intro h
  have hargument := encode_split argument
  rw [h] at hargument
  subst hargument
  cases h

theorem split_encode {list : List Text} (hne : list ≠ [[]]) (hclosed : Closed list) :
    split (encode list) = list := by
  cases list with
  | nil => rfl
  | cons field more =>
      have hfields := fields_encode (by simp) hclosed
      unfold split
      split
      · rename_i h
        rw [h] at hfields
        exact absurd hfields.symm hne
      · exact hfields

/-- Splitting and writing are inverse to each other between all arguments and the lists of fields
that are not one empty field and in which no field but the last ends with a backslash. An argument
that is not empty has one field more than it has colons without a backslash right before them. -/
theorem split_encode_inverse :
    (∀ argument, encode (split argument) = argument) ∧
    (∀ list, list ≠ [[]] → (∀ field ∈ list.dropLast, field.getLast? ≠ some '\\') →
      split (encode list) = list) ∧
    Function.Injective split ∧
    (∀ argument, split argument ≠ [[]] ∧
      ∀ field ∈ (split argument).dropLast, field.getLast? ≠ some '\\') ∧
    ∀ argument, argument ≠ [] → (split argument).length = bareColons argument + 1 := by
  refine ⟨encode_split, fun list hne hclosed => split_encode hne hclosed, ?_, ?_, ?_⟩
  · exact Function.LeftInverse.injective encode_split
  · exact fun argument => ⟨split_ne_single_nil argument, closed_split argument⟩
  · intro argument hne
    rw [split, if_neg hne]
    exact length_fields (by simp)

def crooked : List Text := ["a\\:".toList, [], "b\\\\".toList]

theorem split_encode_crooked :
    encode crooked = "a\\\\:::b\\\\".toList ∧ split (encode crooked) = crooked ∧
      (split "a\\\\:::b\\\\".toList).length = bareColons "a\\\\:::b\\\\".toList + 1 :=
  ⟨by decide, split_encode_inverse.2.1 crooked (by decide) (by decide),
    split_encode_inverse.2.2.2.2 _ (by decide)⟩

end Logbook.Argument
