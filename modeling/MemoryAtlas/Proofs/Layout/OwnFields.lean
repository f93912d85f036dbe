import MemoryAtlas.Proofs.Layout.Standing
import MemoryAtlas.Proofs.Layout.Recording
import MemoryAtlas.Proofs.Schema.Chains

namespace MemoryAtlas

open Schema Shape

/-!
# The own fields of a class

A class has the fields that are declared for it and those of the classes above
it.  What it is made of is read off its chain: sizes, layouts and the classes of
entities all go through the chain and through nothing else.  So the own fields
of a class are kept exactly if its chain ends with the class.

The chain of every class of the hierarchy does, but for one that names itself as
its parent.  Such an entry is passed over when the parents are collected, though
its name is collected.  The name can be used as a type, can be given fields and
can be given to entities, but it has no chain of its own: it is laid out as the
root class is, and its own fields are lost.
-/

namespace Catalog

/-! ## Where own fields are laid out -/

/-- The layout of a named type comes by the route to a value of the kind, and
has an entry at its path. -/
def Lays (c : Catalog) (o : LayoutOptions) (m : Memory) (root : Address) (type : String)
    (route : List String) (kind : Kind) : Prop :=
  Visited (c.typeVisits o.reach type) route kind ∧
    (c.typeOffsets o m root type).contains (route.foldl joinPath (c.topPath type)) = true

/-- Below the route a class is laid out under its own name, with each of its own
fields that is not a gap. -/
def LaysOwn (c : Catalog) (o : LayoutOptions) (m : Memory) (root : Address) (type : String)
    (route : List String) (name : String) : Prop :=
  c.Lays o m root type (route ++ [name]) (.entity name) ∧
    forall field, field ∈ c.fieldsOf (.entity name) -> (forall bytes, field.kind ≠ .skip bytes) ->
      c.Lays o m root type (route ++ [name, field.name]) field.kind

theorem lays_of_visited {c : Catalog} {o : LayoutOptions} {type : String} {route : List String} {kind : Kind}
    (visited : Visited (c.typeVisits o.reach type) route kind) (m : Memory) (root : Address) :
    c.Lays o m root type route kind := by
  refine ⟨visited, ?_⟩
  rcases visited with ⟨v, visited, rfl, -⟩
  rw [typeOffsets_eq, OffsetMap.contains_ofEntries]
  exact ⟨_, List.mem_map_of_mem visited, rfl⟩

/-- Where the parts of a class in whose chain it stands itself are laid out, so
are its own fields. -/
theorem laysOwn_of_covers {c : Catalog} (consistent : c.Consistent) {o : LayoutOptions} {type name : String}
    {left : Nat} {owner : Option String} {route : List String} (own : name ∈ c.ancestors name)
    (covers : Covers (c.typeVisits o.reach type)
      (visitsOfParts owner (c.partsOf (c.shape left) (.entity name))) route)
    (m : Memory) (root : Address) : c.LaysOwn o m root type route name := by
  constructor
  · rcases c.exists_mem_layClasses own (c.shape left) 0 with ⟨offset, listed⟩
    have header : Visited (Shape.record (.entity name)
        (layFields (c.shape left) 0 (c.fieldsOf (.entity name)))).visits [] (.entity name) :=
      ⟨_, List.mem_cons_self, rfl, rfl⟩
    exact lays_of_visited (covers _ _ (covers_part listed [] _ header)) m root
  · intro field member solid
    have leads := FieldRoute.inherited own member
    have visited := leads.covers (c.shape left) owner [] field.kind (visited_self consistent solid left)
    exact lays_of_visited (covers _ _ visited) m root

/-! ## What is kept -/

/-- Everything that is made from the chain of a class has the own fields of the
class: its size, the layout of each value of it and of what a pointer to it
leads to, and the chain of each entity that a rule makes one of it. -/
structure KeepsOwnFields (c : Catalog) (name : String) : Prop where
  chain : (c.ancestors name).getLast? = some name
  /-- Sizes are exact numbers here.  The program adds them up in words of 64 bits and
  gets the same where all totals fit (`Catalog.TotalsFit`).  Where they do not, a sum
  that wraps can be less than the room of one class: below a parent with a gap of
  `2 ^ 64 - 1` bytes, a class with a number of eight bytes comes out at seven. -/
  size : forall size, c.SizeRun (.entity name) size ->
    size = c.sizeOf (.entity name) ∧ c.sizeOfFields (c.fieldsOf (.entity name)) ≤ size
  inside : forall o m root type route left, c.LayoutEnds o m type ->
    c.StandsIn o.reach type route left (.entity name) -> c.LaysOwn o m root type route name
  behind : forall o m root type route left, c.LayoutEnds o m type ->
    c.StandsIn o.reach type route (left + 1) (.pointerTo (.entity name)) ->
      c.LaysOwn o m root type route name
  rules : forall entity, c.classFor entity = some name -> (c.chainFor entity).getLast? = some name

/-- The class is taken for the root class wherever its chain is asked for. -/
structure LosesOwnFields (c : Catalog) (name : String) : Prop where
  chain : c.ancestors name = [rootClass]
  size : forall size, c.SizeRun (.entity name) size <-> c.SizeRun (.entity rootClass) size
  parts : forall expand, c.partsOf expand (.entity name) = c.partsOf expand (.entity rootClass)
  rules : forall entity, c.classFor entity = some name -> c.chainFor entity = [rootClass]

/-- No class of a chain takes more room than the chain. -/
theorem sizeOfFields_le_sizeOf {c : Catalog} (consistent : c.Consistent) {name : String}
    (own : name ∈ c.ancestors name) (accessible : Acc c.Holds (.entity name)) :
    c.sizeOfFields (c.fieldsOf (.entity name)) ≤ c.sizeOf (.entity name) := by
  have part : c.sizeOfFields (c.fieldsOf (.entity name)) = fieldsEnd c.sizeOf 0 (c.fieldsOf (.entity name)) :=
    extent_layFields (c.shape 0) 0 _
  rw [part, sizeOf_eq_of_acc consistent accessible, sizeStep, ← List.foldr_map, ← List.sum_eq_foldr]
  exact List.le_sum_of_mem (List.mem_map_of_mem own)

theorem chainFor_of_classFor {c : Catalog} {entity name : String} (given : c.classFor entity = some name) :
    c.chainFor entity = c.ancestors name := by
  rw [chainFor, given]

/-- A class whose chain ends with it keeps its fields. -/
theorem keepsOwnFields {c : Catalog} (consistent : c.Consistent) {name : String}
    (last : (c.ancestors name).getLast? = some name) : c.KeepsOwnFields name where
  chain := last
  size := by
    intro size run
    rw [run.eq_sizeOf consistent]
    exact ⟨rfl, sizeOfFields_le_sizeOf consistent (List.mem_of_getLast? last) run.accessible⟩
  inside := by
    intro o m root type route left ends stands
    rcases stands.covers consistent ends with ⟨⟨_, run⟩, covers⟩
    rw [shape_of_structured consistent run.accessible rfl] at covers
    have parts := covers.trans (Covers.of_subset (List.subset_cons_self _ _))
    rw [List.append_nil] at parts
    exact laysOwn_of_covers consistent (List.mem_of_getLast? last) parts m root
  behind := by
    intro o m root type route left ends stands
    rcases stands.covers consistent ends with ⟨-, covers⟩
    have points : (Kind.pointerTo (.entity name)).target? = some (.entity name) := rfl
    rw [shape_of_isPointer consistent rfl, targetsAt, targetParts_of_target points] at covers
    have parts := covers.trans (Covers.refl _).pointer
    rw [List.append_nil] at parts
    exact laysOwn_of_covers consistent (List.mem_of_getLast? last) parts m root
  rules := by
    intro entity given
    rw [chainFor_of_classFor given]
    exact last

theorem losesOwnFields {c : Catalog} {name : String} (stranger : c.isClass name = false) :
    c.LosesOwnFields name := by
  have chain := ancestors_of_not_isClass stranger
  have same : c.ancestors name = c.ancestors rootClass := chain.trans c.ancestors_root.symm
  have held : c.heldKinds (.entity name) = c.heldKinds (.entity rootClass) := by
    rw [heldKinds, heldKinds, same]
  have step : forall sizes, c.sizeStep sizes (.entity name) = c.sizeStep sizes (.entity rootClass) := by
    intro sizes
    rw [sizeStep, sizeStep, same]
  refine ⟨chain, fun size => ⟨?_, ?_⟩, fun expand => ?_, fun entity given => ?_⟩
  · rintro ⟨sizes, sized⟩
    rw [step]
    exact .intro sizes (held ▸ sized)
  · rintro ⟨sizes, sized⟩
    rw [← step]
    exact .intro sizes (held ▸ sized)
  · rw [partsOf, partsOf, same]
  · rw [chainFor_of_classFor given, chain]

/-- In a loaded catalog a class keeps its own fields exactly if it is the root
or has a parent other than itself.  Any other class is taken for the root. -/
theorem keepsOwnFields_iff {host : Host} {document : Document} {c : Catalog}
    (loaded : load host document = .ok c)
    (name : String) :
    (c.KeepsOwnFields name <-> document.Parented name) ∧
      (¬ document.Parented name -> c.LosesOwnFields name) := by
  rcases load_stages loaded with ⟨stages⟩
  rw [← stages.isClass_iff, Bool.not_eq_true]
  refine ⟨⟨fun keeps => ?_, fun isClass => ?_⟩, losesOwnFields⟩
  · cases isClass : c.isClass name with
    | true => rfl
    | false =>
        -- The chain is the root alone, so the class at its end can only be the root.
        have last := keeps.chain
        rw [ancestors_of_not_isClass isClass] at last
        have root : rootClass = name := Option.some.inj last
        rw [← isClass, ← root, c.isClass_root]
  · rcases stages.ancestors_split isClass with ⟨upper, chain, -⟩
    refine keepsOwnFields (load_consistent loaded) ?_
    rw [chain, List.getLast?_concat]

/-- Barrels and chests with a lid, the chest being its own parent, and a cellar
with two barrels. -/
def storeroom : Document :=
  { Document.empty with
    hierarchy := [("Barrel", "Entity"), ("Chest", "Chest")]
    structs := [("Cellar", [{ plainField "barrels" "Barrel" with count := some 2 }])]
    entities := [("Barrel", [.field (plainField "lid" "Byte")]),
      ("Chest", [.field (plainField "lid" "Byte")])] }

/-- The catalog of that document. -/
def storeroomCatalog : Catalog :=
  { Catalog.empty with
    names := ⟨[], [], ["Cellar"], ["Barrel", "Chest", "Entity"]⟩
    composites := [("Cellar", [⟨"barrels", .fixedArray (.entity "Barrel") 2, "Barrel", none, none⟩])]
    entities := [("Barrel", [⟨"lid", .scalar ⟨1, .signed⟩, "Byte", none, none⟩]),
      ("Chest", [⟨"lid", .scalar ⟨1, .signed⟩, "Byte", none, none⟩]), ("Entity", [])]
    parents := [("Barrel", "Entity")] }

theorem load_storeroom : load .standing storeroom = .ok storeroomCatalog := by
  let c := storeroomCatalog
  let gathered : Gathered := ⟨[], [], []⟩
  have names : (c.tables.flatMap Table.names).Perm ["Barrel", "Cellar", "Chest", "Entity"] := by decide
  exact load_of_stages ⟨[], c.composites, gathered, gathered, gathered, rfl, rfl, rfl, rfl, rfl, rfl, rfl, rfl,
    rfl, rfl, rfl, checkEmbedding_of_perm names (by decide) rfl, rfl, rfl, rfl⟩

/-- Only the root is a parent here, and it has no fields that could be inherited. -/
theorem storeroom_wellFounded : WellFounded storeroomCatalog.Holds := by
  refine (holds_wellFounded_iff (load_consistent load_storeroom)).mpr ?_
  rintro name ⟨field, ⟨ancestor, above, proper, member⟩, -⟩
  have root : ancestor = rootClass := by
    rw [ancestors] at above
    split at above
    · rcases List.mem_cons.mp above with root | climbed
      · exact root
      rcases (mem_climb (List.mem_reverse.mp climbed)).2 with own | ⟨child, parentOf⟩
      · exact absurd own proper
      · cases List.mem_singleton.mp (Table.mem_of_find? parentOf)
        rfl
    · exact List.mem_singleton.mp above
  have bare : storeroomCatalog.fieldsOf (.entity rootClass) = [] := by decide
  rw [root, bare] at member
  cases member

/-- The barrel keeps its lid, also in the cellar; the chest does not. -/
theorem keepsOwnFields_iff_at_storeroom : load .standing storeroom = .ok storeroomCatalog ∧
    storeroomCatalog.KeepsOwnFields "Barrel" ∧ storeroomCatalog.LosesOwnFields "Chest" ∧
    forall m root, storeroomCatalog.LaysOwn {} m root "Cellar" ["barrels", "1"] "Barrel" := by
  have barrel : storeroom.Parented "Barrel" := .inr ⟨"Entity", List.mem_cons_self, by decide⟩
  have chest : ¬ storeroom.Parented "Chest" := by
    rintro (root | ⟨parent, written, differs⟩)
    · exact absurd root (by decide)
    · simp only [storeroom, List.mem_cons, Prod.mk.injEq, List.not_mem_nil, or_false] at written
      rcases written with ⟨other, -⟩ | ⟨-, same⟩
      · exact absurd other (by decide)
      · exact differs same
  have keeps := (keepsOwnFields_iff load_storeroom "Barrel").1.mpr barrel
  refine ⟨load_storeroom, keeps, (keepsOwnFields_iff load_storeroom "Chest").2 chest, fun m root => ?_⟩
  have ends : storeroomCatalog.LayoutEnds {} m "Cellar" := fun field _ =>
    ⟨_, placeRun (load_consistent load_storeroom) storeroom_wellFounded m _ field.kind⟩
  have stands : storeroomCatalog.StandsIn 8 "Cellar" ["barrels", "1"] 8 (.entity "Barrel") :=
    ⟨["barrels"], ⟨"barrels", .fixedArray (.entity "Barrel") 2, "Barrel", none, none⟩, [toString 1], rfl,
      .element rfl (by decide) (.here 8 _), rfl, List.mem_cons_self⟩
  exact keeps.inside {} m root "Cellar" ["barrels", "1"] 8 ends stands

/-- Loading accepts a class that is its own parent and gives it fields, but its
chain is the root alone, and it has no room for them. -/
theorem accepted_loses_own_fields : load .standing storeroom = .ok storeroomCatalog ∧
    "Chest" ∈ storeroom.hierarchy.names ∧
    storeroomCatalog.resolve "Chest" = some (.entity "Chest") ∧
    storeroomCatalog.ancestors "Chest" = ["Entity"] ∧
    storeroomCatalog.sizeOf (.entity "Chest") <
      storeroomCatalog.sizeOfFields (storeroomCatalog.fieldsOf (.entity "Chest")) :=
  ⟨load_storeroom, by decide, by decide, by decide, by decide⟩

end Catalog
end MemoryAtlas
