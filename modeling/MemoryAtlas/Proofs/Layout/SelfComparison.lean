import MemoryAtlas.Proofs.Layout.Twins
import MemoryAtlas.Report.Objects

namespace MemoryAtlas

open Schema Shape

/-!
# Comparing an object with itself

An object that is laid out alike on both sides differs from itself only by
aliases, and it takes a type or class whose name begins with the path of
comparisons to make one.

The struct view of a class is not laid out alike.  The object is laid out with
all ancestors of the class, and what it is compared with as the fields of the
class alone, from the root on.  Such a view reports how the fields behind the
ancestors differ from the same fields at the root.
-/

namespace View

/-- The names at the top of an object's paths. -/
def topNames (v : View) (c : Catalog) : List String :=
  match v.target with
  | .struct name => if c.isClass name then c.ancestors name else [name]
  | .entity chain => chain

/-- The views there are: of a named type, of an entity, of a class, and of
whatever a name that is asked for stands for. -/
inductive Arises (c : Catalog) : View -> Prop where
  | struct (root : Address) (name : String) : Arises c (ofStruct root name)
  | entity (root : Address) (name : String) : Arises c (ofEntity root c name)
  | ofClass (root : Address) (name : String) : Arises c (ofClass root c name)
  | asked {root : Address} {name : String} {isEntity : Bool} {v : View}
      (shown : Report.viewOf c name root isEntity = .ok v) : Arises c v

/-- A view that lays a class out as a named type. -/
def ShowsClass (v : View) (c : Catalog) (name : String) : Prop :=
  v.target = .struct name ∧ c.isClass name = true

variable {c : Catalog}

/-- Nobody holds the gate of a view that has just been made. -/
theorem Arises.gate_eq {v : View} (arises : v.Arises c) : v.gate = .idle := by
  cases arises with
  | struct root name => rfl
  | entity root name => rfl
  | ofClass root name => rfl
  | asked shown =>
      unfold Report.viewOf at shown
      split at shown
      · cases shown
        rfl
      · split at shown
        · cases shown
          rfl
        · split at shown
          · cases shown
          · cases shown
            rfl

/-- The first refresh of a view finds what there is to see. -/
theorem Arises.refresh_eq {v : View} (arises : v.Arises c) (other : Address) (o : LayoutOptions) (m : Memory) :
    ((v.comparedWith other).refresh c o m).1 =
      .ok ⟨v.offsets c o m, some (v.otherOffsets c o m other),
        (v.offsets c o m).differences (v.otherOffsets c o m other) m c⟩ := by
  have gate := arises.gate_eq
  rcases v with ⟨root, target, compared, gate⟩
  subst gate
  rfl

section Targets

variable {v : View} {name : String} {chain : List String} {o : LayoutOptions} {m : Memory} {other : Address}

theorem topNames_of_struct (target : v.target = .struct name) :
    v.topNames c = if c.isClass name then c.ancestors name else [name] := by
  rw [topNames, target]

theorem topNames_of_entity (target : v.target = .entity chain) : v.topNames c = chain := by
  rw [topNames, target]

theorem offsets_of_struct (target : v.target = .struct name) :
    v.offsets c o m = c.typeOffsets o m v.root name := by
  rw [offsets, target]

theorem offsets_of_entity (target : v.target = .entity chain) :
    v.offsets c o m = c.chainOffsets o m v.root "" chain := by
  rw [offsets, target]

theorem otherOffsets_of_struct (target : v.target = .struct name) : v.otherOffsets c o m other =
    c.fieldOffsets o m other (comparisonPath ++ "." ++ name) (c.fieldsNamed name) := by
  rw [otherOffsets, target]

theorem otherOffsets_of_entity (target : v.target = .entity chain) :
    v.otherOffsets c o m other = c.chainOffsets o m other comparisonPath chain := by
  rw [otherOffsets, target]

end Targets

/-! ## Objects that are laid out alike -/

/-- Where no class is taken for a structure, the object is laid out a second
time with the same entries below the path of comparisons. -/
theorem twinned {v : View} (alike : forall name, ¬ v.ShowsClass c name)
    (named : forall top, top ∈ v.topNames c -> top ≠ "") (o : LayoutOptions) (m : Memory) :
    OffsetMap.Twinned comparisonPath (v.offsets c o m) (v.otherOffsets c o m v.root) ∧
      forall e, e ∈ (v.offsets c o m).toList -> ∃ top, top ∈ v.topNames c ∧ Under top e.path := by
  cases target : v.target with
  | struct name =>
      have stranger : c.isClass name = false :=
        Bool.eq_false_iff.mpr fun isClass => alike name ⟨target, isClass⟩
      have top : name ∈ v.topNames c := by
        rw [topNames_of_struct target, stranger]
        exact List.mem_cons_self
      have present := named name top
      have laid : v.offsets c o m = c.fieldOffsets o m v.root name (c.fieldsNamed name) := by
        rw [offsets_of_struct target, Catalog.typeOffsets, stranger]
        rfl
      rw [laid, otherOffsets_of_struct target]
      refine ⟨OffsetMap.twinned_fieldOffsets c o m v.root present comparisonPath _, fun e recorded => ?_⟩
      exact ⟨name, top, (below_of_mem_entriesOfParts present (OffsetMap.mem_of_mem_ofEntries recorded)).1⟩
  | entity chain =>
      rw [topNames_of_entity target] at named ⊢
      rw [offsets_of_entity target, otherOffsets_of_entity target]
      have present : forall part, part ∈ c.layClasses (c.shape o.reach) 0 chain -> joinPath "" part.1 ≠ "" :=
        fun part listed => named part.1 (Catalog.name_mem_of_mem_layClasses listed)
      constructor
      · refine OffsetMap.twinned_of_parts m v.root present fun part _ => ?_
        exact joinPath_of_ne_empty (by decide) part.1
      · intro e recorded
        rcases under_of_mem_entriesOfParts (OffsetMap.mem_of_mem_ofEntries recorded) with ⟨part, member, below⟩
        exact ⟨part.1, Catalog.name_mem_of_mem_layClasses member, below (present part member)⟩

end View

/-! ## Classes that are taken for structures -/

/-- A name that no other name at the top can be confused with. -/
structure Plain (top : String) : Prop where
  named : top ≠ ""
  dotless : Dotless top
  apart : top ≠ comparisonPath

/-- A path below a plain name does not begin with the path of comparisons. -/
theorem Plain.outside {top path : String} (plain : Plain top) (under : Under top path) :
    ¬ Under comparisonPath path :=
  fun compared => plain.apart (under.unique plain.dotless compared (by decide))

namespace Catalog

variable {c : Catalog} {upper : List String} {name : String}

/-- The room that the classes of a chain take together. -/
def chainExtent (c : Catalog) (reach : Nat) (chain : List String) : Nat :=
  extent (c.layClasses (c.shape reach) 0 chain)

/-- The last class of a chain has its part behind those of the others. -/
theorem layClasses_concat (c : Catalog) (expand : Kind -> Shape) (cursor : Nat) (upper : List String)
    (name : String) : c.layClasses expand cursor (upper ++ [name]) =
      c.layClasses expand cursor upper ++
        [(name, max cursor (extent (c.layClasses expand cursor upper)),
          .record (.entity name) (layFields expand 0 (c.fieldsOf (.entity name))))] := by
  induction upper generalizing cursor with
  | nil =>
      have start : max cursor (extent (c.layClasses expand cursor [])) = cursor := Nat.max_eq_left (Nat.zero_le _)
      rw [start]
      rfl
  | cons first rest inductionHypothesis =>
      have start := inductionHypothesis (cursor + extent (layFields expand 0 (c.fieldsOf (.entity first))))
      have later : max cursor (extent (c.layClasses expand cursor (first :: rest))) =
          max (cursor + extent (layFields expand 0 (c.fieldsOf (.entity first))))
            (extent (c.layClasses expand (cursor + extent (layFields expand 0 (c.fieldsOf (.entity first)))) rest)) := by
        rw [layClasses, extent, size]
        omega
      rw [later]
      exact congrArg (List.cons _) start

/-- The last class of a chain is recorded behind the classes above it, and its
fields behind the class. -/
theorem toList_chainOffsets_concat (c : Catalog) (plain : forall other, other ∈ upper ++ [name] -> Plain other)
    (fresh : name ∉ upper) (o : LayoutOptions) (m : Memory) (root : Address) :
    ∃ above : List Entry,
      (c.chainOffsets o m root "" (upper ++ [name])).toList =
        above ++ ⟨name, Address.part root (c.chainExtent o.reach upper), .entity name⟩ ::
          (c.fieldOffsets o m (Address.part root (c.chainExtent o.reach upper)) name
            (c.fieldsOf (.entity name))).toList ∧
      forall e, e ∈ above -> ∃ other, other ∈ upper ∧ Under other e.path := by
  have last := plain name (List.mem_append_right upper (List.mem_singleton_self name))
  have higher : forall other, other ∈ upper -> Plain other :=
    fun other known => plain other (List.mem_append_left [name] known)
  let place := Address.part root (c.chainExtent o.reach upper)
  let above := entriesOfParts m "" root (c.layClasses (c.shape o.reach) 0 upper)
  let own := entriesOfParts m name place (layFields (c.shape o.reach) 0 (c.fieldsOf (.entity name)))
  have walked : entriesOfParts m "" root (c.layClasses (c.shape o.reach) 0 (upper ++ [name])) =
      above ++ ⟨name, place, .entity name⟩ :: own := by
    have start : max 0 (extent (c.layClasses (c.shape o.reach) 0 upper)) = c.chainExtent o.reach upper :=
      Nat.zero_max _
    rw [layClasses_concat, start, entriesOfParts_append]
    exact congrArg (above ++ ·) (List.append_nil _)
  have placed : forall e, e ∈ above -> ∃ other, other ∈ upper ∧ Under other e.path := by
    intro e listed
    rcases under_of_mem_entriesOfParts listed with ⟨part, member, below⟩
    have known := name_mem_of_mem_layClasses member
    exact ⟨part.1, known, below (higher part.1 known).named⟩
  refine ⟨(OffsetMap.ofEntries above).toList, ?_, fun e recorded => placed e (OffsetMap.mem_of_mem_ofEntries recorded)⟩
  rw [chainOffsets, walked]
  refine OffsetMap.toList_ofEntries_whole ?_ fun e listed => below_of_mem_entriesOfParts last.named listed
  intro e listed within
  rcases placed e listed with ⟨other, known, under⟩
  have top : name = other := within.unique last.dotless under (higher other known).dotless
  exact fresh (top ▸ known)

theorem under_of_mem_fieldOffsets {o : LayoutOptions} {m : Memory} {base : Address} {fields : List Field}
    (named : name ≠ "") {e : Entry} (recorded : e ∈ (c.fieldOffsets o m base name fields).toList) :
    Under name e.path :=
  (below_of_mem_entriesOfParts named (OffsetMap.mem_of_mem_ofEntries recorded)).1

/-- Fields below one plain name are no counterparts of what stands below
another. -/
theorem counterpart?_fieldOffsets_eq_none (plain : Plain name) {other path : String} (plain' : Plain other)
    (different : name ≠ other) (under : Under other path) (o : LayoutOptions) (m : Memory) (base : Address)
    (fields : List Field) : (c.fieldOffsets o m base name fields).counterpart? path = none := by
  have indexed : (c.fieldOffsets o m base name fields).Indexed := OffsetMap.indexed_ofEntries _
  have direct : forall e, e ∈ (c.fieldOffsets o m base name fields).toList -> e.path ≠ path := by
    intro e recorded same
    have within := under_of_mem_fieldOffsets plain.named recorded
    exact different (within.unique plain.dotless (same ▸ under) plain'.dotless)
  have below : forall e, e ∈ (c.fieldOffsets o m base name fields).toList ->
      e.path ≠ comparisonPath ++ "." ++ path := by
    intro e recorded same
    have within := under_of_mem_fieldOffsets plain.named recorded
    exact plain.outside within (same ▸ Under.of_append comparisonPath path)
  rw [OffsetMap.counterpart?, indexed.entry?_eq_none direct, indexed.entry?_eq_none below]
  rfl

/-- A chain of classes is compared with fields below the path of its last class
as the fields of that class are, from where the class stands in the chain. -/
theorem differences_chainOffsets_concat (c : Catalog)
    (plain : forall other, other ∈ upper ++ [name] -> Plain other) (fresh : name ∉ upper)
    (o : LayoutOptions) (m : Memory) (root root' : Address) (fields : List Field) :
    (c.chainOffsets o m root "" (upper ++ [name])).differences
        (c.fieldOffsets o m root' (comparisonPath ++ "." ++ name) fields) m c =
      (c.fieldOffsets o m (Address.part root (c.chainExtent o.reach upper)) name
          (c.fieldsOf (.entity name))).differences (c.fieldOffsets o m root' name fields) m c := by
  have last := plain name (List.mem_append_right upper (List.mem_singleton_self name))
  have higher : forall other, other ∈ upper -> Plain other :=
    fun other known => plain other (List.mem_append_left [name] known)
  rcases c.toList_chainOffsets_concat plain fresh o m root with ⟨above, listed, placed⟩
  have outside : forall e, e ∈ (c.chainOffsets o m root "" (upper ++ [name])).toList ->
      ¬ Under comparisonPath e.path := by
    intro e recorded
    rw [listed] at recorded
    rcases List.mem_append.mp recorded with first | later
    · rcases placed e first with ⟨other, known, under⟩
      exact (higher other known).outside under
    · rcases List.mem_cons.mp later with rfl | own
      · exact last.outside (Under.self name)
      · exact last.outside (under_of_mem_fieldOffsets last.named own)
  -- The classes above have no counterparts, so only the part of the last class is compared.
  have unmatched : forall e, e ∈ above -> differenceAt m c (c.fieldOffsets o m root' name fields) e = none := by
    intro e first
    rcases placed e first with ⟨other, known, under⟩
    have different : name ≠ other := fun same => fresh (same ▸ known)
    exact OffsetMap.differenceAt_of_no_counterpart m c
      (counterpart?_fieldOffsets_eq_none last (higher other known) different under o m root' fields)
  have twinned := OffsetMap.twinned_fieldOffsets c o m root' last.named comparisonPath fields
  rw [twinned.differences_eq outside fun e own => last.outside (under_of_mem_fieldOffsets last.named own),
    OffsetMap.differences, listed, List.filterMap_append, List.filterMap_eq_nil_iff.mpr unmatched]
  rfl

end Catalog

/-! ## Any view -/

namespace View

variable {c : Catalog}

/-- A name that is asked for is not taken for a structure if it is a class. -/
theorem not_showsClass_of_viewOf {root : Address} {target : String} {isEntity : Bool} {v : View}
    (shown : Report.viewOf c target root isEntity = .ok v) (name : String) : ¬ v.ShowsClass c name := by
  rintro ⟨struct, isClass⟩
  unfold Report.viewOf at shown
  split at shown
  · cases shown
    cases struct
  · split at shown
    · cases shown
      cases struct
    · rename_i stranger
      split at shown
      · cases shown
      · cases shown
        cases struct
        exact stranger isClass

/-- A view that lays a class out as a named type reports how the fields of the
class, from where the classes above it end, differ from the same fields at the
root. -/
theorem differences_of_showsClass {host : Host} {document : Document}
    (loaded : load host document = .ok c) {v : View}
    {name : String} (shows : v.ShowsClass c name) (plain : forall top, top ∈ v.topNames c -> Plain top)
    (o : LayoutOptions) (m : Memory) :
    ∃ upper, c.ancestors name = upper ++ [name] ∧
      (v.offsets c o m).differences (v.otherOffsets c o m v.root) m c =
        (c.fieldOffsets o m (Address.part v.root (c.chainExtent o.reach upper)) name
            (c.fieldsOf (.entity name))).differences
          (c.fieldOffsets o m v.root name (c.fieldsNamed name)) m c := by
  rcases load_stages loaded with ⟨stages⟩
  rcases shows with ⟨target, isClass⟩
  rcases stages.ancestors_split isClass with ⟨upper, split, fresh⟩
  rw [topNames_of_struct target, if_pos isClass, split] at plain
  have laid : v.offsets c o m = c.chainOffsets o m v.root "" (upper ++ [name]) := by
    rw [offsets_of_struct target, Catalog.typeOffsets, if_pos isClass, split]
  rw [laid, otherOffsets_of_struct target]
  exact ⟨upper, split, c.differences_chainOffsets_concat plain fresh o m v.root v.root (c.fieldsNamed name)⟩

/-- What a view reports that is compared with its own root.

The view of an entity, of a class and of a type that is no class reports
nothing, unless a path and the same path below the path of comparisons belong to
values with different bytes.  It takes a name at the top that begins with the
path of comparisons for that.  A name that is asked for leads to such a view.

The struct view of a class reports how the fields of the class, from where the
classes above it end, differ from the same fields read at the root.  That is
nothing where the classes above take no room, as there are none above the root
class. -/
theorem compared_with_itself {host : Host} {document : Document}
    (loaded : load host document = .ok c) {v : View}
    (arises : v.Arises c) (o : LayoutOptions) (m : Memory) :
    ∃ found, ((v.comparedWith v.root).refresh c o m).1 = .ok found ∧
      (forall target isEntity, Report.viewOf c target v.root isEntity = .ok v ->
        forall name, ¬ v.ShowsClass c name) ∧
      ((forall name, ¬ v.ShowsClass c name) -> (forall top, top ∈ v.topNames c -> top ≠ "") ->
        (found.differences = [] <-> found.offsets.AliasesAgree m c) ∧
        ((forall top, top ∈ v.topNames c -> ¬ Under comparisonPath top) -> found.differences = [])) ∧
      forall name, v.ShowsClass c name -> (forall top, top ∈ v.topNames c -> Plain top) ->
        ∃ upper, c.ancestors name = upper ++ [name] ∧
          found.differences =
            (c.fieldOffsets o m (Address.part v.root (c.chainExtent o.reach upper)) name
                (c.fieldsOf (.entity name))).differences
              (c.fieldOffsets o m v.root name (c.fieldsNamed name)) m c ∧
          (c.chainExtent o.reach upper = 0 -> c.resolve name = some (.entity name) ->
            found.differences = []) := by
  refine ⟨_, arises.refresh_eq v.root o m, fun target isEntity => not_showsClass_of_viewOf, ?_, ?_⟩
  · intro alike named
    rcases twinned alike named o m with ⟨twins, placed⟩
    refine ⟨twins.differences_eq_nil_iff, fun outside => twins.differences_eq_nil_iff.mpr ?_⟩
    intro e recorded e' _ _ spelled
    rcases placed e recorded with ⟨top, known, under⟩
    have compared : Under comparisonPath e.path := spelled ▸ Under.of_append comparisonPath e'.path
    exact absurd (compared.of_dotless (by decide) under) (outside top known)
  · intro name shows plain
    rcases differences_of_showsClass loaded shows plain o m with ⟨upper, split, differences⟩
    refine ⟨upper, split, differences, fun noRoom resolved => ?_⟩
    have same : c.fieldsNamed name = c.fieldsOf (.entity name) := by
      rw [Catalog.fieldsNamed, resolved]
      rfl
    have indexed : (c.fieldOffsets o m v.root name (c.fieldsOf (.entity name))).Indexed :=
      OffsetMap.indexed_ofEntries _
    refine differences.trans ?_
    rw [noRoom, Address.part_zero, same]
    exact indexed.differences_self m c

/-- A class of rooms: every entity has an `id`, and a room has a `size` behind
it. -/
def roomWithSize : Document :=
  { Document.empty with
    hierarchy := [("Room", "Entity")]
    entities := [("Entity", [.field (Catalog.plainField "id" "Byte")]),
      ("Room", [.field (Catalog.plainField "size" "Byte")])] }

def roomCatalog : Catalog :=
  { Catalog.empty with
    names := ⟨[], [], [], ["Entity", "Room"]⟩
    entities := [("Entity", [⟨"id", .scalar ⟨1, .signed⟩, "Byte", none, none⟩]),
      ("Room", [⟨"size", .scalar ⟨1, .signed⟩, "Byte", none, none⟩])]
    parents := [("Room", "Entity")] }

theorem load_roomWithSize : load .standing roomWithSize = .ok roomCatalog := by
  let c := roomCatalog
  let gathered : Gathered := ⟨[], [], []⟩
  have names : (c.tables.flatMap Table.names).Perm ["Entity", "Room"] := by decide
  exact load_of_stages ⟨[], [], gathered, gathered, gathered, rfl, rfl, rfl, rfl, rfl, rfl, rfl, rfl,
    rfl, rfl, rfl, checkEmbedding_of_perm names (by decide) rfl, rfl, rfl, rfl⟩

theorem plain_room : forall top, top ∈ ["Entity"] ++ ["Room"] -> Plain top := by
  intro top known
  rcases List.mem_pair.mp known with rfl | rfl
  · exact ⟨by decide, by decide, by decide⟩
  · exact ⟨by decide, by decide, by decide⟩

theorem compared_with_itself_at_room : load .standing roomWithSize = .ok roomCatalog ∧
    (ofClass 0x1000 roomCatalog "Room").Arises roomCatalog ∧
    (ofStruct 0x1000 "Room").Arises roomCatalog ∧
    forall m,
      (∃ found, (((ofClass 0x1000 roomCatalog "Room").comparedWith 0x1000).refresh roomCatalog {} m).1 =
        .ok found ∧ found.differences = []) ∧
      ∃ found, (((ofStruct 0x1000 "Room").comparedWith 0x1000).refresh roomCatalog {} m).1 = .ok found ∧
        found.differences =
          (roomCatalog.fieldOffsets {} m 0x1001 "Room" (roomCatalog.fieldsNamed "Room")).differences
            (roomCatalog.fieldOffsets {} m 0x1000 "Room" (roomCatalog.fieldsNamed "Room")) m roomCatalog := by
  have asClass : (ofClass 0x1000 roomCatalog "Room").Arises roomCatalog := .ofClass 0x1000 "Room"
  have asStruct : (ofStruct 0x1000 "Room").Arises roomCatalog := .struct 0x1000 "Room"
  refine ⟨load_roomWithSize, asClass, asStruct, fun m => ⟨?_, ?_⟩⟩
  · rcases compared_with_itself load_roomWithSize asClass {} m with ⟨found, refreshed, -, alike, -⟩
    refine ⟨found, refreshed, (alike ?_ ?_).2 ?_⟩
    · exact fun name shows => nomatch shows.1
    · decide
    · decide
  · rcases compared_with_itself load_roomWithSize asStruct {} m with ⟨found, refreshed, -, -, shown⟩
    rcases shown "Room" ⟨rfl, by decide⟩ plain_room with ⟨upper, split, differences, -⟩
    have chain : upper ++ ["Room"] = ["Entity"] ++ ["Room"] := split.symm.trans (by decide)
    cases List.append_cancel_right chain
    exact ⟨found, refreshed, differences⟩

/-- A memory of two bytes at the root of a room. -/
def roomBytes : Memory :=
  (Snapshot.ofRegion 0x1000 #[1, 2]).memory

/-- The struct view of an accepted class, compared with its own root, reports a
difference. -/
theorem accepted_differs_from_itself : load .standing roomWithSize = .ok roomCatalog ∧
    (ofStruct 0x1000 "Room").Arises roomCatalog ∧
    (roomCatalog.resolve "Room").isSome = true ∧
    ∃ found, (((ofStruct 0x1000 "Room").comparedWith 0x1000).refresh roomCatalog {} roomBytes).1 = .ok found ∧
      found.differences = [⟨"Room.size", 0x1001, 0x1000, some [2], some [1]⟩] := by
  refine ⟨load_roomWithSize, .struct 0x1000 "Room", by decide, _, rfl, ?_⟩
  let byte : Kind := .scalar ⟨1, .signed⟩
  let size : Entry := ⟨"Room.size", 0x1001, byte⟩
  let sizeAtRoot : Entry := ⟨"Room.size", 0x1000, byte⟩
  have matched : (OffsetMap.ofEntries [sizeAtRoot]).counterpart? size.path = some sizeAtRoot := by
    have listed : sizeAtRoot ∈ (OffsetMap.ofEntries [sizeAtRoot]).toList := by
      rw [OffsetMap.toList_ofEntries (List.pairwise_singleton _ _)]
      exact List.mem_singleton_self sizeAtRoot
    exact (OffsetMap.indexed_ofEntries [sizeAtRoot]).counterpart?_of_mem listed
  have different : differenceAt roomBytes roomCatalog (.ofEntries [sizeAtRoot]) size =
      some ⟨"Room.size", 0x1001, 0x1000, some [2], some [1]⟩ := by
    have first : roomBytes.bytes? 0x1001 (roomCatalog.sizeOf byte) = some [2] := rfl
    have second : roomBytes.bytes? 0x1000 (roomCatalog.sizeOf byte) = some [1] := rfl
    simp only [differenceAt, matched, first, second, size, sizeAtRoot]
    rfl
  refine (roomCatalog.differences_chainOffsets_concat plain_room (by decide) {} roomBytes 0x1000 0x1000
    (roomCatalog.fieldsNamed "Room")).trans ?_
  show (OffsetMap.ofEntries [size]).differences (.ofEntries [sizeAtRoot]) roomBytes roomCatalog = _
  rw [OffsetMap.differences, OffsetMap.toList_ofEntries (List.pairwise_singleton _ _)]
  simp only [List.filterMap_cons, different]
  rfl

end View

end MemoryAtlas
