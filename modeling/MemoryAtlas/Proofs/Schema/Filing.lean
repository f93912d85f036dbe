import MemoryAtlas.Proofs.Layout.Runs
import MemoryAtlas.Proofs.Schema.Chains
import MemoryAtlas.Proofs.Schema.Decoded

namespace MemoryAtlas

open Schema

/-!
# What is kept of a declaration

Loading goes over the declarations several times.  It collects the names, reads
the fields of structures and of classes, where lists of functions can stand
between the fields, and at last deals the structures out to three tables.  No
declaration is lost or doubled on the way and no field changes its place: every
structure comes to stand in one table, every class in another, and the entry has
one field for each field declared, in the same order.
-/

/-- What is bound under names that are all given a value by one rule. -/
theorem Table.find?_tabulate {α : Type} (names : List String) (value : String -> α) (name : String) :
    Table.find? (names.map (fun name => (name, value name))) name =
      if name ∈ names then some (value name) else none := by
  induction names with
  | nil => rfl
  | cons first rest inductionHypothesis =>
      simp only [Table.find?, List.map_cons, List.lookup_cons, List.mem_cons] at inductionHypothesis ⊢
      cases here : name == first with
      | true => rw [beq_iff_eq.mp here, if_pos (.inl rfl)]
      | false =>
          have elsewhere : name ≠ first := beq_eq_false_iff_ne.mp here
          simpa [elsewhere] using inductionHypothesis

namespace Schema

/-! ## Fields -/

/-- What is kept of a declared field.  Its kind is what its type name and the
marks beside it come to. -/
structure FieldDecl.KeptAs (names : TypeNames) (owner : String) (decl : FieldDecl) (field : Field) :
    Prop where
  name : field.name = decl.name
  typeName : field.typeName = decl.typeName
  declaredOffset : field.declaredOffset = decl.declaredOffset
  comment : field.comment = decl.comment
  kind : ∃ base, baseKind names owner decl = .ok base ∧
    markedKind (owner ++ "." ++ decl.name) decl base = .ok field.kind

/-- The fields of one declaration: one for each declared field, in their order,
and no two under one name. -/
structure KeepsFields (names : TypeNames) (owner : String) (decls : List FieldDecl)
    (fields : List Field) : Prop where
  each : List.Forall₂ (FieldDecl.KeptAs names owner) decls fields
  distinct : (fields.map Field.name).Nodup

/-- The names of the fields are the declared ones. -/
theorem KeepsFields.names {names : TypeNames} {owner : String} {decls : List FieldDecl}
    {fields : List Field} (kept : KeepsFields names owner decls fields) :
    fields.map Field.name = decls.map FieldDecl.name := by
  have each := kept.each
  clear kept
  induction each with
  | nil => rfl
  | cons first _ inductionHypothesis =>
      rw [List.map_cons, List.map_cons, first.name, inductionHypothesis]

theorem loadField_keptAs {names : TypeNames} {owner : String} {decl : FieldDecl} {g g' : Gathered}
    {field : Field} (loaded : loadField names owner decl g = .ok (field, g')) :
    decl.KeptAs names owner field := by
  unfold loadField at loaded
  rcases Except.bind_eq_ok_iff.mp loaded with ⟨base, declared, loaded⟩
  rcases Except.bind_eq_ok_iff.mp loaded with ⟨middle, -, loaded⟩
  rcases Except.bind_eq_ok_iff.mp loaded with ⟨last, -, loaded⟩
  rcases Except.bind_eq_ok_iff.mp loaded with ⟨marked, marks, loaded⟩
  cases loaded
  exact ⟨rfl, rfl, rfl, rfl, base, declared, marks⟩

theorem appendField_ok {owner : String} {fields extended : List Field} {field : Field}
    (appended : appendField owner fields field = .ok extended) : extended = fields ++ [field] := by
  unfold appendField at appended
  split at appended
  · cases appended
  · exact (Except.ok.inj appended).symm

theorem loadFields_keeps {names : TypeNames} {owner : String} {decls : List FieldDecl}
    {before after : Gathered} {fields : List Field}
    (loaded : loadFields names owner decls before = .ok (fields, after)) :
    KeepsFields names owner decls fields := by
  refine ⟨?_, (loadFields_filed loaded).nodup⟩
  refine Except.foldlM_along (fun read (state : List Field × Gathered) =>
    List.Forall₂ (FieldDecl.KeptAs names owner) read state.1) .nil ?_ loaded
  rintro read decl ⟨earlier, g⟩ ⟨later, g'⟩ - kept step
  rcases Except.bind_eq_ok_iff.mp step with ⟨⟨field, g''⟩, loadedField, step⟩
  rcases Except.bind_eq_ok_iff.mp step with ⟨extended, appended, step⟩
  cases step
  rw [appendField_ok appended]
  exact List.rel_append kept (.cons (loadField_keptAs loadedField) .nil)

/-- The functions in the list of a class leave no trace among its fields. -/
theorem loadEntries_keeps {names : TypeNames} {owner : String} {entries : List EntityEntry}
    {before after : Gathered} {fields : List Field}
    (loaded : loadEntries names owner entries before = .ok (fields, after)) :
    KeepsFields names owner (entries.filterMap EntityEntry.field?) fields := by
  refine ⟨?_, (loadEntries_filed loaded).nodup⟩
  refine Except.foldlM_along (fun read (state : List Field × Gathered) =>
    List.Forall₂ (FieldDecl.KeptAs names owner) (read.filterMap EntityEntry.field?) state.1)
    .nil ?_ loaded
  rintro read entry ⟨earlier, g⟩ ⟨later, g'⟩ - kept step
  rw [List.filterMap_append]
  cases entry with
  | functions decls =>
      rcases Except.bind_eq_ok_iff.mp step with ⟨g'', -, step⟩
      cases step
      exact (List.append_nil _).symm ▸ kept
  | field decl =>
      rcases Except.bind_eq_ok_iff.mp step with ⟨⟨field, g''⟩, loadedField, step⟩
      rcases Except.bind_eq_ok_iff.mp step with ⟨extended, appended, step⟩
      cases step
      rw [appendField_ok appended]
      exact List.rel_append kept (.cons (loadField_keptAs loadedField) .nil)

/-! ## Declarations -/

/-- The sections that list pointer types and inline structures are taken over as
they are written. -/
theorem collectNames_sections {order : VisitingOrder} {document : Document} {names : TypeNames}
    (collected : collectNames order document = .ok names) :
    names.pointers = document.pointerTypes ∧ names.inlines = document.inlineTypes := by
  unfold collectNames at collected
  rcases Except.bind_eq_ok_iff.mp collected with ⟨pointers, pointersChecked, collected⟩
  rcases Except.bind_eq_ok_iff.mp collected with ⟨inlines, inlinesChecked, collected⟩
  dsimp only at collected
  split at collected
  · cases collected
  · cases collected
    exact ⟨(checkMembers_ok pointersChecked).1, (checkMembers_ok inlinesChecked).1⟩

/-- The fields that the document declares for a class, which need not be given
any. -/
def Document.classDecls (document : Document) (name : String) : List FieldDecl :=
  ((document.entities.find? name).getD []).filterMap EntityEntry.field?

/-- The fields of a class are written in the document. -/
theorem Document.writes_of_mem_classDecls {document : Document} {name : String} {decl : FieldDecl}
    (member : decl ∈ document.classDecls name) : document.Writes name decl := by
  have entry := EntityEntry.mem_filterMap_field?.mp member
  cases found : document.entities.find? name with
  | none =>
      rw [found] at entry
      cases entry
  | some entries =>
      rw [found] at entry
      exact .inr ⟨entries, found, entry⟩

namespace Stages

variable {host : Host} {document : Document} {c : Catalog} (stages : Stages host document c)
include stages

/-- A structure is kept before it is dealt out to one of the tables. -/
theorem struct_kept {name : String} {decls : List FieldDecl}
    (declared : document.structs.find? name = some decls) :
    ∃ fields, stages.structs.find? name = some fields ∧ KeepsFields c.names name decls fields := by
  have related := Table.rel_find? (fun name decls fields =>
    ∃ g g', loadFields c.names name decls g = .ok (fields, g')) (loadAll_forall₂ stages.structsLoaded) name
  rw [declared] at related
  generalize stages.structs.find? name = found at related ⊢
  cases related with
  | some loaded =>
      rcases loaded with ⟨g, g', loaded⟩
      exact ⟨_, rfl, loadFields_keeps loaded⟩

theorem class_kept {name : String} (named : name ∈ c.names.entities) :
    ∃ fields, c.entities.find? name = some fields ∧
      KeepsFields c.names name (document.classDecls name) fields := by
  have related := Table.rel_find? (fun name entries fields =>
    ∃ g g', loadEntries c.names name entries g = .ok (fields, g')) (loadAll_forall₂ stages.entitiesLoaded) name
  rw [Table.find?_tabulate c.names.entities (fun name => (document.entities.find? name).getD []),
    if_pos named] at related
  generalize c.entities.find? name = found at related ⊢
  cases related with
  | some loaded =>
      rcases loaded with ⟨g, g', loaded⟩
      exact ⟨_, rfl, loadEntries_keeps loaded⟩

/-- Dealing the structures out to three tables neither loses nor doubles one. -/
theorem structs_perm :
    (c.pointers.names ++ c.inlines.names ++ c.composites.names).Perm document.structs.names := by
  have named : stages.structs.names = document.structs.names :=
    (loadAll_ok (fun _ => True) (fun _ _ _ _ _ _ => trivial) stages.structsLoaded).1
  let isPointer := fun entry : String × List Field => c.names.pointers.contains entry.1
  let isInline := fun entry : String × List Field => c.names.inlines.contains entry.1
  have others : (c.inlines ++ c.composites).Perm (stages.structs.filter (fun entry => !isPointer entry)) := by
    have split := List.filter_append_perm isInline (stages.structs.filter (fun entry => !isPointer entry))
    rw [List.filter_filter, List.filter_filter] at split
    rw [stages.inlines_eq, stages.composites_eq]
    simpa only [Bool.and_comm] using split
  have all : (c.pointers ++ (c.inlines ++ c.composites)).Perm stages.structs := by
    rw [stages.pointers_eq]
    exact (others.append_left _).trans (List.filter_append_perm isPointer stages.structs)
  rw [← named]
  simpa [Table.names] using all.map Prod.fst

end Stages

/-- Every declaration is kept once.  The three tables of structures have the
names of the declared structures between them, each as often as it is declared.
A structure is found in the table for pointer types if it is listed as one, else
in that for inline structures if it is listed there, else in the third, and in no
other.  The classes are the root and the names of the hierarchy, and nothing else
is given fields as a class.  Each entry has the declared fields. -/
theorem load_keeps_declarations {host : Host} {document : Document} {c : Catalog}
    (loaded : load host document = .ok c) :
    (c.pointers.names ++ c.inlines.names ++ c.composites.names).Perm document.structs.names ∧
    (forall name decls, document.structs.find? name = some decls ->
      ∃ fields, KeepsFields c.names name decls fields ∧
        c.pointers.find? name = (if name ∈ document.pointerTypes then some fields else none) ∧
        c.inlines.find? name =
          (if name ∉ document.pointerTypes ∧ name ∈ document.inlineTypes then some fields else none) ∧
        c.composites.find? name =
          (if name ∉ document.pointerTypes ∧ name ∉ document.inlineTypes then some fields else none)) ∧
    (forall name, name ∈ c.entities.names <-> name = rootClass ∨ name ∈ document.hierarchy.names) ∧
    (document.hierarchy.Ascending -> c.entities.names.Nodup) ∧
    (forall name, name ∈ document.entities.names -> name ∈ c.entities.names) ∧
    (forall name, name ∈ c.entities.names -> ∃ fields, c.entities.find? name = some fields ∧
      KeepsFields c.names name (document.classDecls name) fields) := by
  rcases load_stages loaded with ⟨stages⟩
  have sections := collectNames_sections stages.collected
  have entities := (load_consistent loaded).entities_names
  have collected := collectNames_ok stages.collected
  refine ⟨stages.structs_perm, fun name decls declared => ?_, fun name => stages.mem_entities_iff,
    fun ascending => ?_, fun name listed => entities ▸ collected.2.2.2.2 name listed,
    fun name named => stages.class_kept (entities ▸ named)⟩
  · rcases stages.struct_kept declared with ⟨fields, found, kept⟩
    refine ⟨fields, kept, ?_, ?_, ?_⟩
    · rw [stages.pointers_eq, Table.find?_filter _ (fun name => c.names.pointers.contains name), found,
        sections.1]
      simp
    · rw [stages.inlines_eq, Table.find?_filter _
        (fun name => !c.names.pointers.contains name && c.names.inlines.contains name), found,
        sections.1, sections.2]
      simp
    · rw [stages.composites_eq, Table.find?_filter _
        (fun name => !c.names.pointers.contains name && !c.names.inlines.contains name), found,
        sections.1, sections.2]
      simp
  · rw [entities]
    exact collected.2.1.nodup_iff.mpr (ascending.insert rootClass rootClass).nodup

/-- A lock that is listed as a pointer type and as inline, a bench with a point
on it, and doors, with functions between their fields. -/
def workshop : Document :=
  { Document.empty with
    hierarchy := [("Door", "Entity")]
    pointerTypes := ["Lock"]
    inlineTypes := ["Lock", "Point"]
    structs := [("Bench", [Catalog.plainField "top" "Point"]), ("Lock", [Catalog.plainField "key" "Dword"]),
      ("Point", [Catalog.plainField "x" "Dword", Catalog.plainField "y" "Dword"])]
    entities := [("Door", [.field (Catalog.plainField "area" "Dword"), .functions [("0", ⟨"open", "", "void"⟩)],
      .field (Catalog.plainField "lock" "Lock")])] }

/-- The catalog of that document. -/
def workshopCatalog : Catalog :=
  { Catalog.empty with
    names := ⟨["Lock"], ["Lock", "Point"], ["Bench", "Lock", "Point"], ["Door", "Entity"]⟩
    composites := [("Bench", [⟨"top", .inlineStruct "Point", "Point", none, none⟩])]
    pointers := [("Lock", [⟨"key", .scalar ⟨4, .signed⟩, "Dword", none, none⟩])]
    inlines := [("Point", [⟨"x", .scalar ⟨4, .signed⟩, "Dword", none, none⟩,
      ⟨"y", .scalar ⟨4, .signed⟩, "Dword", none, none⟩])]
    entities := [("Door", [⟨"area", .scalar ⟨4, .signed⟩, "Dword", none, none⟩,
      ⟨"lock", .ownedPointer "Lock", "Lock", none, none⟩]), ("Entity", [])]
    parents := [("Door", "Entity")]
    functions := [("Door", [⟨0, "open", "", "void", "Door"⟩])] }

theorem load_workshop : load .standing workshop = .ok workshopCatalog := by
  let c := workshopCatalog
  let gathered : Gathered := ⟨[], [], c.functions⟩
  have names : (c.tables.flatMap Table.names).Perm ["Bench", "Door", "Entity", "Lock", "Point"] := by decide
  exact load_of_stages ⟨[], [c.composites, c.pointers, c.inlines].flatten, ⟨[], [], []⟩, gathered, gathered,
    rfl, rfl, rfl, rfl, rfl, rfl, rfl, rfl, rfl, rfl, rfl, checkEmbedding_of_perm names (by decide) rfl, rfl,
    rfl, by cbv⟩

/-- The lock is kept among the pointer types only, the doors without their
functions. -/
theorem load_keeps_declarations_at_workshop : load .standing workshop = .ok workshopCatalog ∧
    (workshopCatalog.pointers.names ++ workshopCatalog.inlines.names ++
      workshopCatalog.composites.names).Perm ["Bench", "Lock", "Point"] ∧
    (∃ fields, workshopCatalog.pointers.find? "Lock" = some fields ∧
      workshopCatalog.inlines.find? "Lock" = none ∧ workshopCatalog.composites.find? "Lock" = none ∧
      fields.map Field.name = ["key"]) ∧
    workshopCatalog.entities.names.Nodup ∧
    ∃ fields, workshopCatalog.entities.find? "Door" = some fields ∧
      fields.map Field.name = ["area", "lock"] := by
  rcases load_keeps_declarations load_workshop with ⟨names, structs, classes, once, -, entries⟩
  rcases structs "Lock" _ rfl with ⟨lock, lockKept, pointer, inline, composite⟩
  rcases entries "Door" ((classes "Door").mpr (.inr (by decide))) with ⟨door, found, doorKept⟩
  rw [if_pos (by decide)] at pointer
  rw [if_neg (by decide)] at inline composite
  exact ⟨load_workshop, names, ⟨lock, pointer, inline, composite, lockKept.names⟩,
    once (List.pairwise_singleton _ _), door, found, doorKept.names⟩

end Schema
end MemoryAtlas
