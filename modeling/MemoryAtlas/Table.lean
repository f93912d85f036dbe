namespace MemoryAtlas

/-!
Finite maps from names.

A table is a list of names with values in ascending order of the names, so
that going through a table always meets the names in one order.  Names are
ordered character by character.
-/

/-- A finite map from names, in ascending order of the names. -/
abbrev Table (α : Type) := List (String × α)

namespace Table

variable {α : Type}

/-- The table with a name bound to a value, whatever it was bound to before. -/
def insert (name : String) (value : α) : Table α -> Table α
  | [] => [(name, value)]
  | (key, old) :: rest =>
    if name = key then (name, value) :: rest
    else if name < key then (name, value) :: (key, old) :: rest
    else (key, old) :: Table.insert name value rest

/-- The value that a name is bound to. -/
def find? (table : Table α) (name : String) : Option α :=
  List.lookup name table

/-- Whether a name is bound. -/
def contains (table : Table α) (name : String) : Bool :=
  (table.find? name).isSome

/-- The bound names in ascending order. -/
def names (table : Table α) : List String :=
  table.map Prod.fst

/-- The table of a list of bindings, later ones replacing earlier ones. -/
def ofBindings (bindings : List (String × α)) : Table α :=
  bindings.foldl (fun table b => Table.insert b.1 b.2 table) []

theorem find?_isSome_iff {table : Table α} {name : String} :
    (table.find? name).isSome <-> name ∈ table.names := by
  rw [find?, List.lookup_isSome_iff, names, List.mem_map]
  constructor
  · rintro ⟨entry, member, same⟩
    exact ⟨entry, member, (beq_iff_eq.mp same).symm⟩
  · rintro ⟨entry, member, same⟩
    exact ⟨entry, member, beq_iff_eq.mpr same.symm⟩

theorem contains_iff {table : Table α} {name : String} :
    table.contains name = true <-> name ∈ table.names :=
  find?_isSome_iff

theorem find?_eq_none_iff {table : Table α} {name : String} :
    table.find? name = none <-> name ∉ table.names := by
  rw [← find?_isSome_iff, Option.not_isSome_iff_eq_none]

theorem mem_of_find? {table : Table α} {name : String} {value : α}
    (found : table.find? name = some value) : (name, value) ∈ table := by
  obtain ⟨before, after, split, -⟩ := List.lookup_eq_some_iff.mp found
  rw [split]
  exact List.mem_append_right before List.mem_cons_self

/-- Binding a name brings in no entry but that one. -/
theorem mem_insert {table : Table α} {name : String} {value : α} {entry : String × α}
    (member : entry ∈ insert name value table) : entry = (name, value) ∨ entry ∈ table := by
  induction table with
  | nil => exact .inl (List.mem_singleton.mp member)
  | cons first rest ih =>
    obtain ⟨key, old⟩ := first
    rw [insert] at member
    split at member
    · rcases List.mem_cons.mp member with new | later
      · exact .inl new
      · exact .inr (List.mem_cons_of_mem _ later)
    · split at member
      · rcases List.mem_cons.mp member with new | later
        · exact .inl new
        · exact .inr later
      · rcases List.mem_cons.mp member with same | later
        · exact .inr (same ▸ List.mem_cons_self)
        · rcases ih later with new | listed
          · exact .inl new
          · exact .inr (List.mem_cons_of_mem _ listed)

/-- Binding a name adds that name and forgets none. -/
theorem mem_names_insert {table : Table α} {name other : String} {value : α} :
    other ∈ (insert name value table).names <-> other = name ∨ other ∈ table.names := by
  induction table with
  | nil => simp [insert, names]
  | cons entry rest ih =>
    obtain ⟨key, old⟩ := entry
    simp only [names] at ih
    rw [insert]
    split
    · rename_i same
      subst same
      simp [names]
    · split
      · simp [names]
      · simp only [names, List.map_cons, List.mem_cons, ih]
        constructor
        · rintro (first | new | later)
          · exact .inr (.inl first)
          · exact .inl new
          · exact .inr (.inr later)
        · rintro (new | first | later)
          · exact .inr (.inl new)
          · exact .inl first
          · exact .inr (.inr later)

theorem find?_insert_self (table : Table α) (name : String) (value : α) :
    (insert name value table).find? name = some value := by
  induction table with
  | nil => simp [insert, find?]
  | cons entry rest ih =>
    obtain ⟨key, old⟩ := entry
    rw [insert]
    split
    · simp [find?]
    · split
      · simp [find?]
      · rename_i differs _
        have apart : (name == key) = false := beq_eq_false_iff_ne.mpr differs
        simp only [find?] at ih ⊢
        rw [List.lookup_cons, apart]
        exact ih

theorem find?_insert_of_ne (table : Table α) {name other : String} (value : α)
    (h : other ≠ name) : (insert name value table).find? other = table.find? other := by
  have apart : (other == name) = false := beq_eq_false_iff_ne.mpr h
  induction table with
  | nil => simp [insert, find?, List.lookup_cons, apart]
  | cons entry rest ih =>
    obtain ⟨key, old⟩ := entry
    rw [insert]
    split
    · rename_i same
      subst same
      simp [find?, List.lookup_cons, apart]
    · split
      · simp [find?, List.lookup_cons, apart]
      · simp only [find?, List.lookup_cons] at ih ⊢
        rw [ih]

end Table
end MemoryAtlas
