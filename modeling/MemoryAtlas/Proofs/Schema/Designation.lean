import MemoryAtlas.Proofs.Schema.Filing

namespace MemoryAtlas

open Schema

/-!
# What a declared name designates

Names are looked up in one order: the standard names first, then the pointer
types, the inline structures, all other structures and the classes.  Nothing
keeps a document from declaring a name that comes earlier in that order as well.
Such a declaration is kept, with all of its fields, but its name leads elsewhere.

A structure is therefore designated by its name exactly if no standard type has
that name, and a class exactly if in addition no structure has it.  The first
two conditions of the loader, that pointer types and inline structures are
declared structures, are what rules out any other clash.
-/

/-- The kind that a standard type is by itself.  Those that only a field can
complete are none. -/
def StandardType.kind? : StandardType -> Option Kind
  | .scalar s => some (.scalar s)
  | .string => some (.foreignString 1)
  | .wideString => some (.foreignString 2)
  | _ => none

namespace TypeNames

variable {names : TypeNames} {name : String}

/-- A standard name means the same beside all declarations. -/
theorem resolve_of_standard {standard : StandardType} (known : StandardType.ofName? name = some standard) :
    names.resolve name = standard.kind? := by
  rw [resolve, known]
  cases standard <;> rfl

/-- No standard name stands for a declaration. -/
theorem custom_of_resolve {kind : Kind} (resolved : names.resolve name = some kind)
    (declared : kind = .ownedPointer name ∨ kind.structName? = some name) :
    StandardType.ofName? name = none := by
  rcases resolve_cases resolved with ⟨unnamed, unowned, -⟩ | ⟨custom, -⟩
  · rcases declared with owned | named
    · exact absurd owned (unowned name)
    · rw [unnamed] at named
      cases named
  · exact custom

end TypeNames

namespace Schema

/-- The kind of a structure by the sections that list it. -/
def Document.structKind (document : Document) (name : String) : Kind :=
  if name ∈ document.pointerTypes then .ownedPointer name
  else if name ∈ document.inlineTypes then .inlineStruct name
  else .composite name

theorem Document.structKind_named (document : Document) (name : String) :
    document.structKind name = .ownedPointer name ∨ (document.structKind name).structName? = some name := by
  rw [Document.structKind]
  split
  · exact .inl rfl
  split
  · exact .inr rfl
  · exact .inr rfl

namespace Stages

variable {host : Host} {document : Document} {c : Catalog} (stages : Stages host document c) {name : String}
include stages

/-- Only a standard type comes before a structure. -/
theorem resolve_struct (declared : name ∈ document.structs.names)
    (custom : StandardType.ofName? name = none) : c.resolve name = some (document.structKind name) := by
  have listed := (collectNames_ok stages.collected).1
  have sections := collectNames_sections stages.collected
  rw [← listed] at declared
  rw [Catalog.resolve, TypeNames.resolve, custom, Document.structKind, ← sections.1, ← sections.2]
  simp only [List.contains_iff_mem, declared, if_true]
  split
  · rfl
  split
  · rfl
  · rfl

/-- The fields looked up for the kind of a structure are the declared ones. -/
theorem fieldsOf_structKind {decls : List FieldDecl} (declared : document.structs.find? name = some decls) :
    KeepsFields c.names name decls (c.fieldsOf (document.structKind name)) := by
  rcases stages.struct_kept declared with ⟨fields, found, kept⟩
  have sections := collectNames_sections stages.collected
  suffices c.fieldsOf (document.structKind name) = fields from this ▸ kept
  rw [Document.structKind, ← sections.1, ← sections.2]
  by_cases pointer : name ∈ c.names.pointers
  · rw [if_pos pointer, Catalog.fieldsOf, stages.pointers_eq,
      Table.find?_filter _ (fun name => c.names.pointers.contains name), found]
    simp [pointer]
  by_cases inline : name ∈ c.names.inlines
  · rw [if_neg pointer, if_pos inline, Catalog.fieldsOf, stages.inlines_eq, Table.find?_filter _
      (fun name => !c.names.pointers.contains name && c.names.inlines.contains name), found]
    simp [pointer, inline]
  · rw [if_neg pointer, if_neg inline, Catalog.fieldsOf, stages.composites_eq, Table.find?_filter _
      (fun name => !c.names.pointers.contains name && !c.names.inlines.contains name), found]
    simp [pointer, inline]

/-- A class comes after the standard types and after all structures. -/
theorem resolve_class_iff (named : name ∈ c.names.entities) : c.resolve name = some (.entity name) <->
    StandardType.ofName? name = none ∧ name ∉ document.structs.names := by
  rcases collectNames_ok stages.collected with ⟨listed, -, pointersListed, inlinesListed, -⟩
  rw [← listed]
  constructor
  · intro resolved
    rcases TypeNames.resolve_cases resolved with ⟨unnamed, -⟩ | ⟨custom, pointer | inline | struct | entity⟩
    · cases unnamed
    · cases pointer.1
    · cases inline.1
    · cases struct.1
    · exact ⟨custom, entity.2.2.2.1⟩
  · rintro ⟨custom, other⟩
    have pointer : name ∉ c.names.pointers := fun member => other (pointersListed name member)
    have inline : name ∉ c.names.inlines := fun member => other (inlinesListed name member)
    rw [Catalog.resolve, TypeNames.resolve, custom]
    simp [pointer, inline, other, named]

end Stages

/-- Standard names mean what they always do.  The name of a structure stands for
it, by the section that lists it, unless a standard type has that name.  The name
of a class stands for it unless a standard type or a structure has that name.  What
is kept under the kind of a declaration is always that declaration. -/
theorem designates_iff_unshadowed {host : Host} {document : Document} {c : Catalog}
    (loaded : load host document = .ok c) :
    (forall name standard, StandardType.ofName? name = some standard -> c.resolve name = standard.kind?) ∧
    (forall name decls, document.structs.find? name = some decls ->
      (c.resolve name = some (document.structKind name) <-> StandardType.ofName? name = none) ∧
      KeepsFields c.names name decls (c.fieldsOf (document.structKind name))) ∧
    forall name, name = rootClass ∨ name ∈ document.hierarchy.names ->
      (c.resolve name = some (.entity name) <->
        StandardType.ofName? name = none ∧ name ∉ document.structs.names) ∧
      KeepsFields c.names name (document.classDecls name) (c.fieldsOf (.entity name)) := by
  rcases load_stages loaded with ⟨stages⟩
  refine ⟨fun name standard known => TypeNames.resolve_of_standard known, ?_, ?_⟩
  · intro name decls declared
    have listed : name ∈ document.structs.names := by
      rw [← Table.find?_isSome_iff, declared]
      rfl
    exact ⟨⟨fun resolved => TypeNames.custom_of_resolve resolved (document.structKind_named name),
      stages.resolve_struct listed⟩, stages.fieldsOf_structKind declared⟩
  · intro name isClass
    have named : name ∈ c.names.entities :=
      (load_consistent loaded).entities_names ▸ stages.mem_entities_iff.mpr isClass
    rcases stages.class_kept named with ⟨fields, found, kept⟩
    have filed : c.fieldsOf (.entity name) = fields := by
      rw [Catalog.fieldsOf, found, Option.getD_some]
    exact ⟨stages.resolve_class_iff named, filed ▸ kept⟩

/-- The lock, which is listed twice, is a pointer type, and the doors are a class. -/
theorem designates_iff_unshadowed_at_workshop :
    workshopCatalog.resolve "Lock" = some (.ownedPointer "Lock") ∧
      (workshopCatalog.fieldsOf (.ownedPointer "Lock")).map Field.name = ["key"] ∧
      workshopCatalog.resolve "Door" = some (.entity "Door") ∧
      workshopCatalog.resolve "StdVector" = none := by
  rcases designates_iff_unshadowed load_workshop with ⟨standard, structs, classes⟩
  rcases structs "Lock" _ rfl with ⟨lock, kept⟩
  exact ⟨lock.mpr (by decide), kept.names, (classes "Door" (.inr (by decide))).1.mpr (by decide),
    standard "StdVector" .vector (by decide)⟩

/-- A structure under the name of a standard type, and a class under the name of
a structure. -/
def doubledNames : Document :=
  { Document.empty with
    hierarchy := [("Door", "Entity")]
    structs := [("Byte", [Catalog.plainField "low" "Word"]), ("Door", [Catalog.plainField "bolt" "Byte"])]
    entities := [("Door", [.field (Catalog.plainField "area" "Dword")])] }

/-- The catalog of that document. -/
def doubledCatalog : Catalog :=
  { Catalog.empty with
    names := ⟨[], [], ["Byte", "Door"], ["Door", "Entity"]⟩
    composites := [("Byte", [⟨"low", .scalar ⟨2, .signed⟩, "Word", none, none⟩]),
      ("Door", [⟨"bolt", .scalar ⟨1, .signed⟩, "Byte", none, none⟩])]
    entities := [("Door", [⟨"area", .scalar ⟨4, .signed⟩, "Dword", none, none⟩]), ("Entity", [])]
    parents := [("Door", "Entity")] }

theorem load_doubledNames : load .standing doubledNames = .ok doubledCatalog := by
  let c := doubledCatalog
  let gathered : Gathered := ⟨[], [], []⟩
  have names : (c.tables.flatMap Table.names).Perm ["Byte", "Door", "Door", "Entity"] := by decide
  exact load_of_stages ⟨[], c.composites, gathered, gathered, gathered, rfl, rfl, rfl, rfl, rfl, rfl, rfl, rfl,
    rfl, rfl, rfl, checkEmbedding_of_perm names (by decide) rfl, rfl, rfl, rfl⟩

/-- Loading accepts a structure whose name stands for a standard type, and a
class whose name stands for a structure. -/
theorem accepted_shadows_declarations : load .standing doubledNames = .ok doubledCatalog ∧
    "Byte" ∈ doubledNames.structs.names ∧ doubledCatalog.resolve "Byte" = some (.scalar ⟨1, .signed⟩) ∧
    "Door" ∈ doubledNames.hierarchy.names ∧ doubledCatalog.resolve "Door" = some (.composite "Door") :=
  ⟨load_doubledNames, by decide, by decide, by decide, by decide⟩

end Schema
end MemoryAtlas
