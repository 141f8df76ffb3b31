/-!
# Tables

Finite maps as lists of pairs. Insertion replaces the value of a key where it stands and puts a
new key at the end, so the order is the order of first insertion. The view is `find?`; each
operation has one lemma that says what it does to it.
-/

namespace Logbook

structure Table (κ : Type) (α : Type) where
  entries : List (κ × α) := []

namespace Table

variable {κ α : Type} [DecidableEq κ]

def empty : Table κ α := ⟨[]⟩

def findIn (key : κ) : List (κ × α) → Option α
  | [] => none
  | entry :: rest => if entry.1 = key then some entry.2 else findIn key rest

def find? (table : Table κ α) (key : κ) : Option α := findIn key table.entries

def insertIn (key : κ) (value : α) : List (κ × α) → List (κ × α)
  | [] => [(key, value)]
  | entry :: rest =>
      if entry.1 = key then (key, value) :: rest else entry :: insertIn key value rest

def insert (table : Table κ α) (key : κ) (value : α) : Table κ α :=
  ⟨insertIn key value table.entries⟩

def erase (table : Table κ α) (key : κ) : Table κ α :=
  ⟨table.entries.filter fun entry => entry.1 ≠ key⟩

def keys (table : Table κ α) : List κ := table.entries.map (·.1)

def values (table : Table κ α) : List α := table.entries.map (·.2)

def ofList (entries : List (κ × α)) : Table κ α :=
  entries.foldl (fun table entry => table.insert entry.1 entry.2) empty

@[simp] theorem find?_empty (key : κ) : (empty : Table κ α).find? key = none := rfl

theorem findIn_cons (key other : κ) (value : α) (rest : List (κ × α)) :
    findIn other ((key, value) :: rest) =
      if other = key then some value else findIn other rest := by
  by_cases h : other = key
  · subst h
    simp [findIn]
  · simp [findIn, h, Ne.symm h]

theorem findIn_insertIn (key other : κ) (value : α) (entries : List (κ × α)) :
    findIn other (insertIn key value entries) =
      if key = other then some value else findIn other entries := by
  induction entries with
  | nil => simp [insertIn, findIn]
  | cons entry rest ih =>
      unfold insertIn
      split
      · rename_i h
        by_cases ho : key = other
        · simp [findIn, ho]
        · simp [findIn, ho, h]
      · rename_i h
        by_cases ho : key = other
        · subst ho
          simp [findIn, ih, h]
        · simp [findIn, ih, ho]

@[simp] theorem find?_insert (table : Table κ α) (key other : κ) (value : α) :
    (table.insert key value).find? other =
      if key = other then some value else table.find? other :=
  findIn_insertIn key other value table.entries

@[simp] theorem find?_insert_self (table : Table κ α) (key : κ) (value : α) :
    (table.insert key value).find? key = some value := by simp

theorem find?_insert_of_ne (table : Table κ α) {key other : κ} (value : α) (h : key ≠ other) :
    (table.insert key value).find? other = table.find? other := by simp [h]

theorem findIn_filter (key other : κ) (entries : List (κ × α)) :
    findIn other (entries.filter fun entry => entry.1 ≠ key) =
      if key = other then none else findIn other entries := by
  induction entries with
  | nil => simp [findIn]
  | cons entry rest ih =>
      rw [List.filter_cons]
      by_cases h : entry.1 = key
      · by_cases ho : key = other
        · simpa [h, ho] using ih
        · simpa [findIn, h, ho] using ih
      · by_cases he : entry.1 = other
        · have ho : key ≠ other := fun hk => h (he.trans hk.symm)
          subst he
          simp [findIn, h, ho]
        · simpa [findIn, h, he] using ih

@[simp] theorem find?_erase (table : Table κ α) (key other : κ) :
    (table.erase key).find? other = if key = other then none else table.find? other :=
  findIn_filter key other table.entries

/-! ## Values -/

theorem mem_values_of_find? {table : Table κ α} {key : κ} {value : α}
    (h : table.find? key = some value) : value ∈ table.values := by
  obtain ⟨entries⟩ := table
  unfold find? at h
  unfold values
  induction entries with
  | nil => cases h
  | cons entry rest ih =>
      dsimp only [findIn] at h
      split at h
      · cases h
        exact List.mem_cons_self
      · exact List.mem_cons_of_mem _ (ih h)

theorem mem_values_insert {table : Table κ α} {key : κ} {value other : α}
    (h : other ∈ (table.insert key value).values) : other = value ∨ other ∈ table.values := by
  obtain ⟨entries⟩ := table
  unfold insert values at h
  unfold values
  induction entries with
  | nil => exact .inl (by simpa [insertIn] using h)
  | cons entry rest ih =>
      dsimp only [insertIn] at h
      split at h
      · rcases List.mem_cons.1 h with rfl | hrest
        · exact .inl rfl
        · exact .inr (List.mem_cons_of_mem _ hrest)
      · rcases List.mem_cons.1 h with rfl | hrest
        · exact .inr List.mem_cons_self
        · exact (ih hrest).imp id (List.mem_cons_of_mem _)

theorem mem_values_erase {table : Table κ α} {key : κ} {other : α}
    (h : other ∈ (table.erase key).values) : other ∈ table.values := by
  obtain ⟨entry, hentry, rfl⟩ := List.mem_map.1 h
  exact List.mem_map_of_mem (List.mem_filter.1 hentry).1

end Table

end Logbook
