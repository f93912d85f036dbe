import MemoryAtlas.Proofs.Layout.Holders
import MemoryAtlas.Proofs.Layout.Paths

namespace MemoryAtlas

open Schema Shape

/-!
# Who declares a value

Titles are registered for a field of a declaration.  When a value is shown its
titles are looked up by what the layout says: the entry above the value names
the declaration, and the last name of the path names the field.

A visit knows the field that it belongs to, so the two can be compared.  Every
scalar is either the whole value of its field or stands behind a pointer to a
scalar.  In the first case the entry above is the declaration, and the lookup
gives the field.  In the second case the entry above is a pointer that names no
declaration, and the lookup gives the last name of the pointer and a star.
-/

/-! ## What the lookup answers -/

namespace Report

theorem ownerName?_eq (kind : Kind) : ownerName? kind = kind.declaration? := by
  cases kind <;> rfl

/-- Below an entry that names a declaration the lookup gives that declaration. -/
theorem ownerOf_of_declaration {map : OffsetMap} {above name owner : String} {entry : Entry}
    (present : above ≠ "") (dotless : Dotless name) (found : map.entry? above = some entry)
    (declared : entry.kind.declaration? = some owner) :
    ownerOf map (joinPath above name) = (owner, name) := by
  simp only [ownerOf, joinPath_of_ne_empty present, splitLast?_append dotless, found,
    Option.bind_some, ownerName?_eq, declared]

/-- Below anything else the lookup gives the last name of the path above. -/
theorem ownerOf_of_no_declaration {map : OffsetMap} {above name : String} (present : above ≠ "")
    (dotless : Dotless name)
    (silent : forall entry, map.entry? above = some entry -> entry.kind.declaration? = none) :
    ownerOf map (joinPath above name) = (((splitLast? above).map Prod.snd).getD above, name) := by
  have nobody : (map.entry? above).bind (fun entry => ownerName? entry.kind) = none := by
    cases found : map.entry? above with
    | none => rfl
    | some entry =>
        rw [Option.bind_some, ownerName?_eq]
        exact silent entry found
  simp only [ownerOf, joinPath_of_ne_empty present, splitLast?_append dotless, nobody]

theorem lastName_joinPath {name : String} (dotless : Dotless name) (above : String) :
    ((splitLast? (joinPath above name)).map Prod.snd).getD (joinPath above name) = name := by
  by_cases top : above = ""
  · subst top
    have plain : joinPath "" name = name := rfl
    rw [plain, splitLast?_of_dotless dotless]
    rfl
  · rw [joinPath_of_ne_empty top, splitLast?_append dotless]
    rfl

end Report

namespace Schema

/-- The field has been loaded from a declaration of its owner, and the titles
that it brought are registered under its owner and its name. -/
def Registered (document : Document) (names : TypeNames) (owner : String) (field : Field) : Prop :=
  ∃ decl g g', document.Declares owner decl ∧ loadField names owner decl g = .ok (field, g') ∧
    (g'.titleNames = g.titleNames ∨
      ∃ table, g'.titleNames = Table.insert (owner ++ "." ++ field.name) table g.titleNames)

theorem Stages.registered {host : Host} {document : Document} {c : Catalog}
    (stages : Stages host document c) {kind : Kind}
    {owner : String} {field : Field} (declared : kind.declaration? = some owner)
    (member : field ∈ c.fieldsOf kind) : Registered document c.names owner field := by
  rcases stages.fieldsOf_filed kind with ⟨name, declares, filed⟩
  have named := declares (List.ne_nil_of_mem member)
  rw [declared] at named
  cases named
  rcases filed.source field member with ⟨decl, g, g', written, loaded⟩
  exact ⟨decl, g, g', written, loaded, loadField_titleNames loaded⟩

end Schema

namespace Catalog

section Lookup

variable {host : Host} {document : Document} {c : Catalog}
  (loaded : load host document = .ok c) (dotFree : c.DotFree)
  {name : String} (named : c.TopNamed name) (o : LayoutOptions) (m : Memory) (root : Address)
include loaded dotFree named

theorem entry?_typeOffsets {v : Visit} (visited : v ∈ c.typeVisits o.reach name) :
    OffsetMap.entry? (c.typeOffsets o m root name) (v.path (c.topPath name)) = some (v.entry m (c.topPath name) root) := by
  have indexed : (c.typeOffsets o m root name).Indexed := by
    rw [typeOffsets_eq]
    exact OffsetMap.indexed_ofEntries _
  have recorded : v.entry m (c.topPath name) root ∈ (c.typeOffsets o m root name).toList := by
    rw [toList_typeOffsets loaded dotFree named]
    exact List.mem_map_of_mem visited
  exact indexed.entry?_of_mem recorded

theorem path_ne_empty_of_mem_typeVisits {v : Visit} (visited : v ∈ c.typeVisits o.reach name) :
    v.path (c.topPath name) ≠ "" := by
  have spellable := spellable_of_mem_typeVisits (load_consistent loaded) dotFree named visited
  exact spellable.path_ne_empty (route_ne_nil_of_mem visited)

/-- Below a visit that stands for a declaration the lookup gives that declaration. -/
theorem ownerOf_below_declaration {u v : Visit} {owner last : String}
    (visited : u ∈ c.typeVisits o.reach name) (declares : u.kind.declaration? = some owner)
    (dotless : Dotless last) (route : v.route = u.route ++ [last]) :
    Report.ownerOf (c.typeOffsets o m root name) (v.path (c.topPath name)) = (owner, last) := by
  have spelled : v.path (c.topPath name) = joinPath (u.path (c.topPath name)) last := by
    rw [Visit.path, route, List.foldl_append]
    rfl
  have present := path_ne_empty_of_mem_typeVisits loaded dotFree named o visited
  have found := entry?_typeOffsets loaded dotFree named o m root visited
  rw [spelled]
  exact Report.ownerOf_of_declaration present dotless found declares

/-- Below any other visit the lookup gives the last name of the way there. -/
theorem ownerOf_below_other {u v : Visit} {last : String} (visited : u ∈ c.typeVisits o.reach name)
    (silent : u.kind.declaration? = none) (dotless : Dotless last) (route : v.route = u.route ++ [last]) :
    ∃ above, u.route.getLast? = some above ∧
      Report.ownerOf (c.typeOffsets o m root name) (v.path (c.topPath name)) = (above, last) := by
  have spelled : v.path (c.topPath name) = joinPath (u.path (c.topPath name)) last := by
    rw [Visit.path, route, List.foldl_append]
    rfl
  have present := path_ne_empty_of_mem_typeVisits loaded dotFree named o visited
  have found := entry?_typeOffsets loaded dotFree named o m root visited
  have spellable := spellable_of_mem_typeVisits (load_consistent loaded) dotFree named visited
  rcases List.eq_nil_or_concat u.route with top | ⟨before, above, split⟩
  · exact absurd top (route_ne_nil_of_mem visited)
  rw [List.concat_eq_append] at split
  have aboveDotless : Dotless above := by
    rw [split] at spellable
    exact spellable.concat.2
  have spelledAbove : u.path (c.topPath name) = joinPath (before.foldl joinPath (c.topPath name)) above := by
    rw [Visit.path, split, List.foldl_append]
    rfl
  refine ⟨above, by simp [split], ?_⟩
  have nobody : forall entry, OffsetMap.entry? (c.typeOffsets o m root name) (u.path (c.topPath name)) = some entry ->
      entry.kind.declaration? = none := by
    intro entry looked
    rw [found] at looked
    cases looked
    exact silent
  rw [spelled, Report.ownerOf_of_no_declaration present dotless nobody, spelledAbove,
    Report.lastName_joinPath aboveDotless]

/-- A field at the top of a type that is no class is found by the name of the type. -/
theorem ownerOf_top {v : Visit} {last : String} (stranger : c.isClass name = false)
    (dotlessType : Dotless name) (dotless : Dotless last) (route : v.route = [last]) :
    Report.ownerOf (c.typeOffsets o m root name) (v.path (c.topPath name)) = (name, last) := by
  have top : c.topPath name = name := by
    rw [topPath, stranger]
    rfl
  have present : name ≠ "" := by
    rw [TopNamed, stranger] at named
    exact named
  have indexed : (c.typeOffsets o m root name).Indexed := by
    rw [typeOffsets_eq]
    exact OffsetMap.indexed_ofEntries _
  have absent : OffsetMap.entry? (c.typeOffsets o m root name) name = none := by
    refine indexed.entry?_eq_none fun entry member same => ?_
    rw [toList_typeOffsets loaded dotFree named] at member
    rcases List.mem_map.mp member with ⟨u, visited, rfl⟩
    have spellable := spellable_of_mem_typeVisits (load_consistent loaded) dotFree named visited
    exact spellable.path_ne_top (route_ne_nil_of_mem visited) (same.trans top.symm)
  have nobody : forall entry, OffsetMap.entry? (c.typeOffsets o m root name) name = some entry ->
      entry.kind.declaration? = none := by
    intro entry looked
    rw [absent] at looked
    cases looked
  have spelled : v.path (c.topPath name) = joinPath name last := by
    rw [Visit.path, route, top]
    rfl
  rw [spelled, Report.ownerOf_of_no_declaration present dotless nobody,
    Report.splitLast?_of_dotless dotlessType]
  rfl

end Lookup

/-- What the lookup of titles finds, where no name has a dot.  Every scalar in a
layout belongs to a field whose titles are registered under its declaration and
its name.  If it is the whole value of that field, the lookup gives just these
two.  If it is not, the field is marked as a pointer to the scalar, and the
lookup gives the last name of the pointer and a star. -/
theorem ownerOf_scalar {host : Host} {document : Document} {c : Catalog}
    (loaded : load host document = .ok c)
    (dotFree : c.DotFree) {name : String} (named : c.TopNamed name) (dotless : Dotless name)
    (o : LayoutOptions) (m : Memory) (root : Address) {entry : Entry}
    (recorded : entry ∈ (c.typeOffsets o m root name).toList) (scalar : entry.kind.isScalar = true) :
    ∃ v, v ∈ c.typeVisits o.reach name ∧ entry = v.entry m (c.topPath name) root ∧
      ∃ owner field, Registered document c.names owner field ∧ v.holder = some (owner, field.name) ∧
        ((entry.kind = field.kind ∧
            Report.ownerOf (c.typeOffsets o m root name) entry.path = (owner, field.name)) ∨
          (field.kind.isScalar = false ∧ ∃ pointer, pointer ∈ c.typeVisits o.reach name ∧
            pointer.kind = .pointerTo entry.kind ∧ pointer.holder = v.holder ∧
            v.route = pointer.route ++ ["*"] ∧ ∃ last, pointer.route.getLast? = some last ∧
              Report.ownerOf (c.typeOffsets o m root name) entry.path = (last, "*"))) := by
  rcases load_stages loaded with ⟨stages⟩
  have consistent := load_consistent loaded
  rw [toList_typeOffsets loaded dotFree named] at recorded
  rcases List.mem_map.mp recorded with ⟨v, visited, rfl⟩
  refine ⟨v, visited, rfl, ?_⟩
  rcases placed_of_mem_typeVisits consistent visited scalar with
    ⟨stranger, kind, declared, field, member, whole, holder, route⟩ | ⟨u, visitedAbove, below⟩
  · refine ⟨name, field, stages.registered declared member, holder, .inl ⟨whole, ?_⟩⟩
    exact ownerOf_top loaded dotFree named o m root stranger dotless (dotFree.fields kind field member) route
  · cases below with
    | @field kind owner field declares declared member whole holder route =>
        refine ⟨owner, field, stages.registered declared member, holder, .inl ⟨whole, ?_⟩⟩
        exact ownerOf_below_declaration loaded dotFree named o m root visitedAbove declares
          (dotFree.fields kind field member) route
    | target pointer holder route =>
        have isPointer : u.kind.isEntity = false := by
          rw [pointer]
          rfl
        rcases held_of_mem_typeVisits consistent visitedAbove isPointer with
          ⟨kind, owner, field, declared, member, heldBy, within⟩
        have marked : field.kind.isScalar = false := by
          rw [pointer] at within
          exact within.isScalar_eq_false
        have silent : u.kind.declaration? = none := by
          rw [pointer]
          cases same : v.kind with
          | scalar s => rfl
          | _ =>
              have impossible : v.kind.isScalar = true := scalar
              rw [same] at impossible
              cases impossible
        refine ⟨owner, field, stages.registered declared member, holder.trans heldBy, .inr ⟨marked, u, ?_⟩⟩
        exact ⟨visitedAbove, pointer, holder.symm, route,
          ownerOf_below_other loaded dotFree named o m root visitedAbove silent (by decide) route⟩

theorem ownerOf_scalar_at_doorWithLocks : load .standing doorWithLocks = .ok doorCatalog ∧ forall m root,
    ∃ entry, entry ∈ (doorCatalog.typeOffsets {} m root "Door").toList ∧ entry.path = "Door.main.state" ∧
      Report.ownerOf (doorCatalog.typeOffsets {} m root "Door") entry.path = ("Lock", "state") ∧
      ∃ owner field, Registered doorWithLocks doorCatalog.names owner field ∧
        entry.kind = field.kind ∧ (owner, field.name) = ("Lock", "state") := by
  rcases doorCatalog_dotFree with ⟨dotFree, named⟩
  let v : Visit := ⟨["Door", "main", "state"], [.on 0, .on 0, .on 0], .scalar ⟨1, .state⟩, 1,
    some ("Lock", "state")⟩
  let lock : Visit := ⟨["Door", "main"], [.on 0, .on 0], .composite "Lock", 5, some ("Door", "main")⟩
  have visited : v ∈ doorCatalog.typeVisits 8 "Door" := by decide
  have visitedLock : lock ∈ doorCatalog.typeVisits 8 "Door" := by decide
  refine ⟨load_doorWithLocks, fun m root => ?_⟩
  have recorded : v.entry m "" root ∈ (doorCatalog.typeOffsets {} m root "Door").toList := by
    rw [toList_typeOffsets load_doorWithLocks dotFree named]
    exact List.mem_map_of_mem visited
  have spelled : v.path "" = "Door.main.state" := by decide
  have answer := ownerOf_below_declaration load_doorWithLocks dotFree named {} m root visitedLock
    rfl (show Dotless "state" by decide) (show v.route = lock.route ++ ["state"] from rfl)
  rcases ownerOf_scalar load_doorWithLocks dotFree named (by decide) {} m root recorded rfl with
    ⟨-, -, -, owner, field, registered, -, ⟨whole, found⟩ | ⟨-, -, -, -, -, -, last, -, found⟩⟩
  · exact ⟨_, recorded, spelled, answer, owner, field, registered, whole, found.symm.trans answer⟩
  · have different : ("Lock", "state") ≠ (last, "*") := by simp
    exact absurd (answer.symm.trans found) different

/-- A lamp whose state is behind a pointer and has titles. -/
def lampWithState : Document :=
  { Document.empty with
    titles := [("lamps", [])]
    structs := [("Lamp", [{ plainField "state" "State8" with pointer := true, titles := some "lamps" }])] }

/-- The titles of that state are registered for the lamp, and the lookup asks
for those of a field that nobody declares. -/
theorem accepted_loses_owner : ∃ c, load .standing lampWithState = .ok c ∧ c.titlesOf "Lamp" "state" = some [] ∧
    forall m root, ∃ v, v ∈ c.typeVisits 8 "Lamp" ∧ v.kind = .scalar ⟨1, .state⟩ ∧
      v.holder = some ("Lamp", "state") ∧
      v.entry m "Lamp" root ∈ (c.typeOffsets {} m root "Lamp").toList ∧
      Report.ownerOf (c.typeOffsets {} m root "Lamp") (v.path "Lamp") = ("state", "*") ∧
      c.titlesOf "state" "*" = none := by
  let c : Catalog :=
    { Catalog.empty with
      names := ⟨[], [], ["Lamp"], ["Entity"]⟩
      composites := [("Lamp", [⟨"state", .pointerTo (.scalar ⟨1, .state⟩), "State8", none, none⟩])]
      entities := [("Entity", [])]
      titleNames := [("Lamp.state", "lamps")]
      titleTables := [("lamps", [])] }
  have loaded : load .standing lampWithState = .ok c := by cbv
  rcases load_stages loaded with ⟨stages⟩
  have filed : forall name, name ∈ c.entities.names -> Dotless name := by decide
  have dotFree : c.DotFree :=
    ⟨fun kind => forall_fieldsOf (by decide) kind,
      fun name ancestor above => filed ancestor (stages.mem_entities_of_mem_ancestors above)⟩
  have named : c.TopNamed "Lamp" := by
    have stranger : c.isClass "Lamp" = false := by decide
    rw [TopNamed, stranger]
    decide
  let pointer : Visit := ⟨["state"], [.on 0], .pointerTo (.scalar ⟨1, .state⟩), 8, some ("Lamp", "state")⟩
  let v : Visit := ⟨["state", "*"], [.on 0, .through, .on 0], .scalar ⟨1, .state⟩, 1, some ("Lamp", "state")⟩
  have visits : c.typeVisits 8 "Lamp" = [pointer, v] := by decide
  have visitedPointer : pointer ∈ c.typeVisits 8 "Lamp" := by simp [visits]
  have visited : v ∈ c.typeVisits 8 "Lamp" := by simp [visits]
  refine ⟨c, loaded, by decide, fun m root => ⟨v, visited, rfl, rfl, ?_, ?_, by decide⟩⟩
  · rw [toList_typeOffsets loaded dotFree named]
    exact List.mem_map_of_mem visited
  · have route : v.route = pointer.route ++ ["*"] := rfl
    rcases ownerOf_below_other loaded dotFree named {} m root visitedPointer rfl (by decide) route with
      ⟨above, last, found⟩
    cases last
    exact found

end Catalog
end MemoryAtlas
