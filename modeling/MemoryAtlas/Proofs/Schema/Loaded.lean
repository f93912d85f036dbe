import MemoryAtlas.Proofs.Schema.Declared
import MemoryAtlas.Proofs.Schema.Stages

namespace MemoryAtlas

open Schema

/-!
# What a loaded catalog can rely on

Loading keeps its promises in one value.  A consistent catalog files every
declaration in the one table that its kind is looked up in, has an entry for
every class that can be named, and holds nothing but declared kinds.  It has
also passed the search for structures that contain themselves.

Everything that is proved of sizes and layouts starts from
`Catalog.Consistent`.
-/

namespace Catalog

/-- The tables in the order in which a name is looked for. -/
def tables (c : Catalog) : List (Table (List Field)) :=
  [c.composites, c.pointers, c.inlines, c.entities]

/-- What loading establishes about the tables of a catalog. -/
structure Consistent (c : Catalog) : Prop where
  declared : forall table, table ∈ c.tables -> forall entry, entry ∈ table ->
    FieldsDeclared c.names entry.2
  composite_iff : forall name, name ∈ c.composites.names <->
    name ∈ c.names.structs ∧ name ∉ c.names.pointers ∧ name ∉ c.names.inlines
  pointer_iff : forall name, name ∈ c.pointers.names <->
    name ∈ c.names.structs ∧ name ∈ c.names.pointers
  inline_iff : forall name, name ∈ c.inlines.names <->
    name ∈ c.names.structs ∧ name ∉ c.names.pointers ∧ name ∈ c.names.inlines
  entities_names : c.entities.names = c.names.entities
  pointers_listed : forall name, name ∈ c.names.pointers -> name ∈ c.names.structs
  inlines_listed : forall name, name ∈ c.names.inlines -> name ∈ c.names.structs
  rooted : rootClass ∈ c.names.entities
  classes : forall name, name ∈ c.parents.names -> name ∈ c.names.entities
  searched : checkEmbedding (fieldsIn c.tables)
    ((c.tables.flatMap Table.names).mergeSort (fun a b => a <= b)) = .ok ()

/-- The fields of a kind are one of the lists in the tables, or there are none. -/
theorem fieldsOf_eq_nil_or_filed (c : Catalog) (kind : Kind) : c.fieldsOf kind = [] ∨
    ∃ table, table ∈ c.tables ∧ ∃ entry, entry ∈ table ∧ c.fieldsOf kind = entry.2 := by
  have looked : forall table, table ∈ c.tables -> forall name, (table.find? name).getD [] = [] ∨
      ∃ other, other ∈ c.tables ∧ ∃ entry, entry ∈ other ∧ (table.find? name).getD [] = entry.2 := by
    intro table listed name
    cases found : table.find? name with
    | none => exact .inl rfl
    | some fields => exact .inr ⟨table, listed, _, Table.mem_of_find? found, rfl⟩
  cases kind with
  | composite name => exact looked c.composites (by simp [tables]) name
  | ownedPointer name => exact looked c.pointers (by simp [tables]) name
  | inlineStruct name => exact looked c.inlines (by simp [tables]) name
  | entity name => exact looked c.entities (by simp [tables]) name
  | _ => exact .inl rfl

/-- What is true of all fields in the tables is true of the fields of every kind. -/
theorem forall_fieldsOf {c : Catalog} {Good : Field -> Prop}
    (filed : forall table, table ∈ c.tables -> forall entry, entry ∈ table ->
      forall field, field ∈ entry.2 -> Good field)
    (kind : Kind) : forall field, field ∈ c.fieldsOf kind -> Good field := by
  rcases c.fieldsOf_eq_nil_or_filed kind with none | ⟨table, listed, entry, member, same⟩
  · rw [none]
    exact fun field member => absurd member List.not_mem_nil
  · rw [same]
    exact filed table listed entry member

namespace Consistent

variable {c : Catalog}

/-- The fields looked up for a kind are entries of a table. -/
theorem fieldsOf_declared (consistent : c.Consistent) (kind : Kind) :
    FieldsDeclared c.names (c.fieldsOf kind) :=
  forall_fieldsOf consistent.declared kind

/-- Every class is filed, the root included. -/
theorem mem_entities_of_isClass (consistent : c.Consistent) {name : String}
    (isClass : c.isClass name = true) : name ∈ c.entities.names := by
  rw [consistent.entities_names]
  rcases Bool.or_eq_true_iff.mp isClass with root | child
  · rw [beq_iff_eq.mp root]
    exact consistent.rooted
  · exact consistent.classes name (Table.contains_iff.mp child)

end Consistent
end Catalog

namespace Schema

/-- Fields that have been loaded from declarations have declared kinds. -/
theorem Filed.declared {names : TypeNames} {owner : String} {Declared : FieldDecl -> Prop}
    {fields : List Field} (filed : Filed names owner Declared fields) : FieldsDeclared names fields := by
  intro field member
  rcases filed.source field member with ⟨decl, g, g', -, loaded⟩
  exact loadField_declared loaded

/-- Loading declarations keeps their names and gives every one its fields. -/
theorem loadAll_ok {α : Type} {load : String -> α -> Gathered -> Except Fault (List Field × Gathered)}
    {decls : Table α} {before after : Gathered} {tables : Table (List Field)}
    (Good : List Field -> Prop)
    (each : forall name decl g fields g', load name decl g = .ok (fields, g') -> Good fields)
    (loaded : loadAll load decls before = .ok (tables, after)) :
    tables.names = decls.names ∧ forall entry, entry ∈ tables -> Good entry.2 := by
  have aligned := loadAll_forall₂ loaded
  clear loaded
  induction aligned with
  | nil => exact ⟨rfl, fun entry member => absurd member List.not_mem_nil⟩
  | cons filed _ inductionHypothesis =>
      rcases filed with ⟨same, g, g', loaded⟩
      rcases inductionHypothesis with ⟨named, good⟩
      refine ⟨congr (congrArg List.cons same) named, fun entry member => ?_⟩
      rcases List.mem_cons.mp member with rfl | later
      · exact each _ _ _ _ _ loaded
      · exact good entry later

/-- A section that lists structures is taken over as it is, and all of its
members are declared. -/
theorem checkMembers_ok {document : Document} {listing : String} {members taken : List String}
    (checked : checkMembers document listing members = .ok taken) :
    taken = members ∧ forall name, name ∈ members -> name ∈ document.structs.names := by
  unfold checkMembers at checked
  split at checked
  · cases checked
  · rename_i none
    cases checked
    refine ⟨rfl, fun name member => ?_⟩
    have listed := List.find?_eq_none.mp none name member
    exact Table.contains_iff.mp (by simpa using listed)

theorem collectNames_ok {order : VisitingOrder} {document : Document} {names : TypeNames}
    (collected : collectNames order document = .ok names) :
    names.structs = document.structs.names ∧
    names.entities.Perm (Table.names (Table.insert rootClass rootClass document.hierarchy)) ∧
    (forall name, name ∈ names.pointers -> name ∈ names.structs) ∧
    (forall name, name ∈ names.inlines -> name ∈ names.structs) ∧
    forall name, name ∈ document.entities.names -> name ∈ names.entities := by
  unfold collectNames at collected
  rcases Except.bind_eq_ok_iff.mp collected with ⟨pointers, pointersChecked, collected⟩
  rcases Except.bind_eq_ok_iff.mp collected with ⟨inlines, inlinesChecked, collected⟩
  dsimp only at collected
  split at collected
  · cases collected
  · rename_i none
    cases collected
    rcases checkMembers_ok pointersChecked with ⟨rfl, pointersListed⟩
    rcases checkMembers_ok inlinesChecked with ⟨rfl, inlinesListed⟩
    refine ⟨rfl, order.perm _, pointersListed, inlinesListed, fun name member => ?_⟩
    have listed := List.find?_eq_none.mp none name member
    simpa using listed

/-- The parents are entries of the hierarchy that lead to known classes, and
every chain of them has been followed to its end. -/
theorem checkHierarchy_ok {order : VisitingOrder} {hierarchy parents : Table String}
    (checked : checkHierarchy order hierarchy = .ok parents) :
    parents = parentsOf hierarchy ∧ strayEntry? hierarchy = none ∧
      forall name, name ∈ parents.names -> checkChain parents name chainLimit [] name = .ok () := by
  unfold checkHierarchy at checked
  split at checked
  · cases checked
  · rename_i none
    rcases Except.bind_eq_ok_iff.mp checked with ⟨_, run, checked⟩
    cases checked
    exact ⟨rfl, none, fun name member =>
      Except.forIn_ok run name ((order.perm _).mem_iff.mpr member)⟩

theorem mem_hierarchy_of_mem_parentsOf {hierarchy : Table String} {name : String}
    (member : name ∈ (parentsOf hierarchy).names) : name ∈ hierarchy.names := by
  rcases List.mem_map.mp member with ⟨entry, kept, same⟩
  exact List.mem_map.mpr ⟨entry, (List.mem_filter.mp kept).1, same⟩

/-- The names of the entries that a test on names keeps. -/
theorem mem_names_filter {α : Type} {table : Table α} (keep : String -> Bool) {name : String} :
    name ∈ Table.names (table.filter (fun entry => keep entry.1)) <->
      name ∈ table.names ∧ keep name = true := by
  constructor
  · intro member
    rcases List.mem_map.mp member with ⟨entry, kept, rfl⟩
    rcases List.mem_filter.mp kept with ⟨present, passes⟩
    exact ⟨List.mem_map.mpr ⟨entry, present, rfl⟩, passes⟩
  · rintro ⟨member, passes⟩
    rcases List.mem_map.mp member with ⟨entry, present, rfl⟩
    exact List.mem_map.mpr ⟨entry, List.mem_filter.mpr ⟨present, passes⟩, rfl⟩

/-- Loading a document gives a consistent catalog. -/
theorem load_consistent {host : Host} {document : Document} {c : Catalog}
    (loaded : load host document = .ok c) :
    c.Consistent := by
  rcases load_stages loaded with ⟨stages⟩
  rcases collectNames_ok stages.collected with ⟨structNames, entityNames, pointersListed, inlinesListed, -⟩
  obtain ⟨structsNamed, structsDeclared⟩ := loadAll_ok (FieldsDeclared c.names)
    (fun _ _ _ _ _ made => (loadFields_filed made).declared) stages.structsLoaded
  obtain ⟨entitiesNamed, entitiesDeclared⟩ := loadAll_ok (FieldsDeclared c.names)
    (fun _ _ _ _ _ made => (loadEntries_filed made).declared) stages.entitiesLoaded
  rw [← structNames] at structsNamed
  refine ⟨?_, ?_, ?_, ?_, ?_, pointersListed, inlinesListed, ?_, ?_, stages.searched⟩
  · intro table listed entry member
    simp only [Catalog.tables, List.mem_cons, List.not_mem_nil, or_false, stages.composites_eq,
      stages.pointers_eq, stages.inlines_eq] at listed
    rcases listed with rfl | rfl | rfl | rfl
    · exact structsDeclared entry (List.mem_filter.mp member).1
    · exact structsDeclared entry (List.mem_filter.mp member).1
    · exact structsDeclared entry (List.mem_filter.mp member).1
    · exact entitiesDeclared entry member
  · intro name
    rw [← structsNamed, stages.composites_eq]
    refine Iff.trans (mem_names_filter (fun name =>
      !c.names.pointers.contains name && !c.names.inlines.contains name)) ?_
    simp
  · intro name
    rw [← structsNamed, stages.pointers_eq]
    refine Iff.trans (mem_names_filter (fun name => c.names.pointers.contains name)) ?_
    simp
  · intro name
    rw [← structsNamed, stages.inlines_eq]
    refine Iff.trans (mem_names_filter (fun name =>
      !c.names.pointers.contains name && c.names.inlines.contains name)) ?_
    simp
  · rw [entitiesNamed]
    simp [Table.names, Function.comp_def]
  · exact entityNames.mem_iff.mpr (Table.mem_names_insert.mpr (.inl rfl))
  · intro name member
    rw [(checkHierarchy_ok stages.ranked).1] at member
    exact entityNames.mem_iff.mpr
      (Table.mem_names_insert.mpr (.inr (mem_hierarchy_of_mem_parentsOf member)))

end Schema
end MemoryAtlas
