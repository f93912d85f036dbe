import MemoryAtlas.Foreign.OrderedTree
import MemoryAtlas.Proofs.Layout.Growth
import MemoryAtlas.Proofs.Layout.Recording
import MemoryAtlas.Proofs.Layout.Runs
import MemoryAtlas.Proofs.Schema.Chains

namespace MemoryAtlas

open Schema Shape

/-!
# Catalogs are closed

A kind is known if everything that is asked about it has an answer: the table
that its fields are looked up in has its name, every class in its chain has an
entry, and what a container names as key, value or element resolves.

Loading puts only known kinds into fields, and resolving gives only known kinds.
Whatever is laid out with a known kind is known as well, so a layout never comes
to a kind that the catalog has no answer for.
-/

namespace Kind

/-- Whatever is asked about the kind has an answer. -/
def Known (c : Catalog) : Kind -> Prop
  | .pointerTo target => target.Known c
  | .fixedArray element _ => element.Known c
  | .composite name => name ∈ c.composites.names
  | .inlineStruct name => name ∈ c.inlines.names
  | .ownedPointer name => name ∈ c.pointers.names
  | .entity name =>
    name ∈ c.entities.names ∧ forall ancestor, ancestor ∈ c.ancestors name -> ancestor ∈ c.entities.names
  | .dynamicArray element => (c.resolve element).isSome
  | .orderedMap key value =>
    (c.resolve key).isSome ∧ forall name, value = some name -> (c.resolve name).isSome
  | _ => True

/-- No table of structures has the name except the one that the kind asks.

The table of classes is left out for the kinds of structures.  A class may share the
name of a structure: which of the two is meant is decided when the name is made a kind,
and the kind of a structure is never looked up among the classes. -/
def FiledOnce (c : Catalog) : Kind -> Prop
  | .pointerTo target => target.FiledOnce c
  | .fixedArray element _ => element.FiledOnce c
  | .composite name => name ∉ c.pointers.names ∧ name ∉ c.inlines.names
  | .inlineStruct name => name ∉ c.pointers.names ∧ name ∉ c.composites.names
  | .ownedPointer name => name ∉ c.inlines.names ∧ name ∉ c.composites.names
  | .entity name => name ∉ c.pointers.names ∧ name ∉ c.inlines.names ∧ name ∉ c.composites.names
  | _ => True

/-- The named types of a known container have shapes, and so have the nodes of
a known map. -/
theorem Known.containers {c : Catalog} {kind : Kind} (known : kind.Known c) :
    (forall element, kind = .dynamicArray element -> (c.valueShape element).isSome) ∧
    forall key value, kind = .orderedMap key value -> (NodeLayout.ofTypes c key value).isSome := by
  have shaped : forall name, (c.resolve name).isSome -> (c.valueShape name).isSome := by
    intro name resolved
    rw [Catalog.valueShape, Option.isSome_map]
    exact resolved
  constructor
  · rintro element rfl
    exact shaped element known
  · rintro key value rfl
    rcases Option.isSome_iff_exists.mp (shaped key known.1) with ⟨keyShape, keyFound⟩
    cases value with
    | none => simp [NodeLayout.ofTypes, keyFound]
    | some name =>
        rcases Option.isSome_iff_exists.mp (shaped name (known.2 name rfl)) with ⟨valueShape, valueFound⟩
        simp [NodeLayout.ofTypes, keyFound, valueFound]

end Kind

/-! ## What loading leaves behind -/

namespace Schema

/-- Every registered title table is there. -/
def Gathered.TitlesKept (g : Gathered) : Prop :=
  forall entry, entry ∈ g.titleNames -> entry.2 ∈ g.titleTables.names

theorem titlesKept_follows : Follows (fun _ => Gathered.TitlesKept) where
  titles := by
    intro done owner decl g g' gathered kept
    rcases gatherTitles_cases gathered with ⟨-, rfl⟩ | ⟨name, -, present, rfl⟩ | ⟨_, table, -, -, rfl⟩
    · exact kept
    · intro entry member
      rcases Table.mem_insert member with rfl | old
      · exact present
      · exact kept entry old
    · intro entry member
      rcases Table.mem_insert member with rfl | old
      · exact Table.mem_names_insert.mpr (.inl rfl)
      · exact Table.mem_names_insert.mpr (.inr (kept entry old))
  functions := by
    intro done owner decls g g' added kept
    rcases addFunctions_titles added with ⟨sameNames, sameTables⟩
    rw [Gathered.TitlesKept, sameNames, sameTables]
    exact kept

theorem loadRule_ok {engine : Regex.Engine} {entities : List String} {decl : RuleDecl}
    {rule : ClassRule} (loaded : loadRule engine entities decl = .ok rule) : rule.className ∈ entities := by
  unfold loadRule at loaded
  split at loaded
  · cases loaded
  split at loaded
  · rename_i listed
    cases loaded
    exact List.contains_iff_mem.mp listed
  · cases loaded

theorem listed_of_ownedPointer {names : TypeNames} {name : String}
    (declared : (Kind.ownedPointer name).Declared names) : name ∈ names.pointers := by
  rcases TypeNames.resolve_cases declared with ⟨-, impossible, -⟩ | ⟨-, cases⟩
  · exact absurd rfl (impossible name)
  · simpa using cases

end Schema

namespace Schema.Stages

variable {host : Host} {document : Document} {c : Catalog} (stages : Stages host document c)
  (consistent : c.Consistent)
include stages consistent

theorem known_of_declared {kind : Kind} (declared : kind.Declared c.names) :
    kind.Known c ∧ kind.FiledOnce c := by
  have composite := consistent.composite_iff
  have inline := consistent.inline_iff
  have pointer := consistent.pointer_iff
  induction kind with
  | pointerTo target inductionHypothesis => exact inductionHypothesis declared
  | fixedArray element count inductionHypothesis => exact inductionHypothesis declared
  | composite name =>
      have listed := TypeNames.listed_of_composite declared
      simp [Kind.Known, Kind.FiledOnce, composite, inline, pointer, listed]
  | inlineStruct name =>
      have listed := TypeNames.listed_of_inlineStruct declared
      have struct := consistent.inlines_listed name listed.2
      simp [Kind.Known, Kind.FiledOnce, composite, inline, pointer, listed, struct]
  | ownedPointer name =>
      have listed := listed_of_ownedPointer declared
      have struct := consistent.pointers_listed name listed
      simp [Kind.Known, Kind.FiledOnce, composite, inline, pointer, listed, struct]
  | entity name =>
      have listed := TypeNames.listed_of_entity declared
      have filed : name ∈ c.entities.names := by
        rw [consistent.entities_names]
        exact listed.2.2.2
      refine ⟨⟨filed, fun ancestor => stages.mem_entities_of_mem_ancestors⟩, ?_⟩
      simp [Kind.FiledOnce, composite, inline, pointer, listed]
  | dynamicArray element => exact ⟨declared, trivial⟩
  | orderedMap key value => exact ⟨declared, trivial⟩
  | _ => exact ⟨trivial, trivial⟩

/-- Whatever is laid out with a known kind is known. -/
theorem hereditary_known : c.Hereditary (Kind.Known c) where
  element := fun known => known
  target := fun known => known
  field := by
    intro kind field _ member
    rcases Catalog.mem_fieldsOf_of_mem_partFields member with ⟨outer, own⟩
    exact (stages.known_of_declared consistent (consistent.fieldsOf_declared outer field own)).1
  header := fun _ above =>
    ⟨stages.mem_entities_of_mem_ancestors above, fun _ => stages.mem_entities_of_mem_ancestors⟩

theorem known_of_mem_typeVisits {reach : Nat} {name : String} {v : Visit}
    (visited : v ∈ c.typeVisits reach name) : v.kind.Known c := by
  rcases Catalog.header_or_field_of_mem_typeVisits visited with
    ⟨ancestor, above, header⟩ | ⟨field, member, inner, reached, same, -⟩
  · rw [header]
    exact ⟨stages.mem_entities_of_mem_ancestors above, fun _ => stages.mem_entities_of_mem_ancestors⟩
  · rcases Catalog.mem_fieldsOf_of_mem_typeFields member with ⟨outer, own⟩
    have known := (stages.known_of_declared consistent (consistent.fieldsOf_declared outer field own)).1
    have grown := consistent.grown reach field.kind
    rw [same]
    exact (grown.arises (stages.hereditary_known consistent) known reached).1

end Schema.Stages

namespace Catalog

/-- Nothing that a catalog refers to is missing from it. -/
structure Closed (c : Catalog) : Prop where
  fields : forall table, table ∈ c.tables -> forall entry, entry ∈ table ->
    forall field, field ∈ entry.2 -> field.kind.Known c ∧ field.kind.FiledOnce c
  resolved : forall name kind, c.resolve name = some kind -> kind.Known c ∧ kind.FiledOnce c
  rules : forall rule, rule ∈ c.rules -> rule.className ∈ c.names.entities
  chains : forall entity className, className ∈ c.chainFor entity -> className ∈ c.entities.names
  titles : forall entry, entry ∈ c.titleNames -> entry.2 ∈ c.titleTables.names
  layouts : forall o m root name entry, entry ∈ (c.typeOffsets o m root name).toList ->
    entry.kind.Known c
  containers : forall o m root name entry, entry ∈ (c.typeOffsets o m root name).toList ->
    (forall element, entry.kind = .dynamicArray element -> (c.valueShape element).isSome) ∧
    forall key value, entry.kind = .orderedMap key value -> (NodeLayout.ofTypes c key value).isSome

/-- An accepted document gives a closed catalog: its fields and all that is laid
out with them have kinds that the catalog knows, and so have the names in rules,
titles and containers.  A class that the document makes its own parent is no
exception, but the only chain it has is that of the root. -/
theorem load_closed {host : Host} {document : Document} {c : Catalog}
    (loaded : load host document = .ok c) : c.Closed := by
  rcases load_stages loaded with ⟨stages⟩
  have consistent := load_consistent loaded
  have layouts : forall o m root name entry, entry ∈ (c.typeOffsets o m root name).toList ->
      entry.kind.Known c := by
    intro o m root name entry member
    rw [typeOffsets_eq] at member
    rcases List.mem_map.mp (OffsetMap.mem_of_mem_ofEntries member) with ⟨v, visited, rfl⟩
    exact stages.known_of_mem_typeVisits consistent visited
  constructor
  · intro table listed entry member field own
    exact stages.known_of_declared consistent (consistent.declared table listed entry member field own)
  · intro name kind resolved
    exact stages.known_of_declared consistent (TypeNames.resolve_declared resolved)
  · intro rule member
    rcases Except.mapM_ok stages.ruled rule member with ⟨decl, -, made⟩
    exact loadRule_ok made
  · intro entity className member
    rw [chainFor] at member
    split at member
    · exact stages.mem_entities_of_mem_ancestors member
    · exact stages.mem_entities_iff.mpr (.inl (List.mem_singleton.mp member))
  · rw [stages.titleNames_eq, stages.titleTables_eq]
    exact titlesKept_follows.stages stages (fun entry impossible => absurd impossible List.not_mem_nil)
  · exact layouts
  · exact fun o m root name entry member => (layouts o m root name entry member).containers

/-- A class with a field of each kind that refers to something. -/
def furnishedRoom : Document :=
  { Document.empty with
    hierarchy := [("Room", "Entity")]
    pointerTypes := ["Guest"]
    inlineTypes := ["Point"]
    titles := [("moods", [])]
    structs := [("Chair", [plainField "legs" "Byte"]), ("Guest", [plainField "next" "Guest"]),
      ("Point", [plainField "x" "Dword", plainField "y" "Dword"])]
    entities := [("Room", [.field (plainField "corner" "Point"),
      .field { plainField "chairs" "Chair" with count := some 4, pointer := true },
      .field { plainField "guests" "StdVector" with elementType := some "Guest" },
      .field { plainField "keys" "StdMap" with keyType := some "Dword", valueType := some "Room" },
      .field { plainField "mood" "State8" with titles := some "moods" }])] }

theorem load_closed_at_furnishedRoom : ∃ c, load .standing furnishedRoom = .ok c ∧ c.Closed := by
  cases loaded : load .standing furnishedRoom with
  | ok c => exact ⟨c, rfl, load_closed loaded⟩
  | error fault =>
      have accepted : (load .standing furnishedRoom).isOk = true := by cbv
      rw [loaded] at accepted
      cases accepted

end Catalog
end MemoryAtlas
