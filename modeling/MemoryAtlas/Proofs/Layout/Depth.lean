import MemoryAtlas.Proofs.Layout.Extent

namespace MemoryAtlas

open Schema Shape

/-!
# How far pointers are followed

A shape is worked out for a number of pointers that may be followed one behind
the other.  Working it out for a smaller number comes to the same as taking the
deeper shape and cutting it: every pointer that would be one too many loses what
it points to, and nothing else changes.  Since sizes stop at a pointer anyway,
all distances stay as they are.

On the visits of a shape a cut is a filter.  So a layout with a smaller limit
records what the deeper layout records behind few enough pointers, at the same
addresses and in the same order.
-/

namespace Shape

mutual

/-- The shape with no more than `reach` pointers followed one behind the other. -/
def cut : Shape -> Nat -> Shape
  | .gap bytes, _ => .gap bytes
  | .atom kind size, _ => .atom kind size
  | .array kind element count, reach => .array kind (element.cut reach) count
  | .record kind parts, reach => .record kind (cutParts parts reach)
  | .pointer kind _, 0 => .pointer kind []
  | .pointer kind target, reach + 1 => .pointer kind (cutParts target reach)
  | .endless kind, _ => .endless kind

def cutParts : List (String × Nat × Shape) -> Nat -> List (String × Nat × Shape)
  | [], _ => []
  | (name, offset, shape) :: rest, reach => (name, offset, shape.cut reach) :: cutParts rest reach

end

mutual

/-- A cut takes no room away. -/
theorem size_cut (shape : Shape) (reach : Nat) : (shape.cut reach).size = shape.size := by
  match shape with
  | .gap bytes => rfl
  | .atom kind size => rfl
  | .array kind element count => rw [cut, size, size, size_cut element reach]
  | .record kind parts => rw [cut, size, size, extent_cutParts parts reach]
  | .pointer kind target => cases reach <;> rfl
  | .endless kind => rfl

theorem extent_cutParts (parts : List (String × Nat × Shape)) (reach : Nat) :
    extent (cutParts parts reach) = extent parts := by
  match parts with
  | [] => rfl
  | (name, offset, shape) :: rest =>
      rw [cutParts, extent, extent, size_cut shape reach, extent_cutParts rest reach]

end

/-! ## What a cut leaves to be visited -/

/-- Of visits reached through a part those within reach are the ones that were
within reach before. -/
theorem filter_depth_part (visits : List Visit) (owner : Option String) (name : String)
    (offset reach : Nat) :
    (visits.map (Visit.part owner name offset)).filter (fun v => v.depth ≤ reach) =
      (visits.filter (fun v => v.depth ≤ reach)).map (Visit.part owner name offset) := by
  rw [List.filter_map]
  refine congrArg _ (List.filter_congr fun v _ => ?_)
  rw [Function.comp_apply, Visit.depth_part]

/-- Behind a pointer there is one step less to go. -/
theorem filter_depth_behind (visits : List Visit) (reach : Nat) :
    (visits.map Visit.behind).filter (fun v => v.depth ≤ reach + 1) =
      (visits.filter (fun v => v.depth ≤ reach)).map Visit.behind := by
  rw [List.filter_map]
  refine congrArg _ (List.filter_congr fun v _ => ?_)
  rw [Function.comp_apply, Visit.depth_behind, decide_eq_decide, Nat.add_le_add_iff_right]

/-- What a walk begins with is always within reach. -/
theorem filter_depth_self (kind : Kind) (size reach : Nat) (visits : List Visit) :
    (Visit.self kind size :: visits).filter (fun v => v.depth ≤ reach) =
      .self kind size :: visits.filter (fun v => v.depth ≤ reach) :=
  List.filter_cons_of_pos (decide_eq_true (Nat.zero_le reach))

mutual

/-- The visits of a cut shape are the visits of the shape behind no more
pointers than may be followed. -/
theorem visits_cut (shape : Shape) (reach : Nat) :
    (shape.cut reach).visits = shape.visits.filter (fun v => v.depth ≤ reach) := by
  match shape with
  | .gap bytes => rfl
  | .atom kind size => rw [cut, visits, filter_depth_self, List.filter_nil]
  | .endless kind => rw [cut, visits, filter_depth_self, List.filter_nil]
  | .array kind element count =>
      rw [cut, visits, visits, filter_depth_self, List.filter_flatMap, size_cut]
      simp only [filter_depth_part, visits_cut element reach]
  | .record kind parts =>
      rw [cut, visits, visits, filter_depth_self, extent_cutParts,
        visitsOfParts_cutParts kind.declaration? parts reach]
  | .pointer kind target =>
      rw [visits, filter_depth_self]
      cases reach with
      | zero =>
          have behind : forall v, v ∈ (visitsOfParts kind.declaration? target).map Visit.behind ->
              ¬ v.depth ≤ 0 := by
            intro v visited
            rcases List.mem_map.mp visited with ⟨inner, -, rfl⟩
            rw [Visit.depth_behind]
            exact Nat.not_succ_le_zero _
          rw [cut, visits, List.filter_eq_nil_iff.mpr fun v visited => by simpa using behind v visited]
          rfl
      | succ reach =>
          rw [cut, visits, filter_depth_behind, visitsOfParts_cutParts kind.declaration? target reach]

theorem visitsOfParts_cutParts (owner : Option String) (parts : List (String × Nat × Shape)) (reach : Nat) :
    visitsOfParts owner (cutParts parts reach) =
      (visitsOfParts owner parts).filter (fun v => v.depth ≤ reach) := by
  match parts with
  | [] => rfl
  | (name, offset, shape) :: rest =>
      rw [cutParts, visitsOfParts, visitsOfParts, List.filter_append, filter_depth_part,
        visits_cut shape reach, visitsOfParts_cutParts owner rest reach]

end

end Shape

/-! ## Cutting what the catalog fills in -/

namespace Catalog

theorem cutParts_layFields (expand : Kind -> Shape) (reach cursor : Nat) (fields : List Field) :
    cutParts (layFields expand cursor fields) reach =
      layFields (fun kind => (expand kind).cut reach) cursor fields := by
  induction fields generalizing cursor with
  | nil => rfl
  | cons field rest inductionHypothesis =>
      rw [layFields, cutParts, layFields, inductionHypothesis, size_cut]

theorem cutParts_layClasses (c : Catalog) (expand : Kind -> Shape) (reach cursor : Nat)
    (chain : List String) :
    cutParts (c.layClasses expand cursor chain) reach =
      c.layClasses (fun kind => (expand kind).cut reach) cursor chain := by
  induction chain generalizing cursor with
  | nil => rfl
  | cons name rest inductionHypothesis =>
      rw [layClasses, cutParts, layClasses, inductionHypothesis, cut, cutParts_layFields,
        ← extent_cutParts _ reach, cutParts_layFields]

theorem cutParts_partsOf (c : Catalog) (expand : Kind -> Shape) (reach : Nat) (kind : Kind) :
    cutParts (c.partsOf expand kind) reach = c.partsOf (fun inner => (expand inner).cut reach) kind := by
  cases kind with
  | entity name => exact c.cutParts_layClasses expand reach 0 _
  | _ => exact cutParts_layFields expand reach 0 _

theorem cutParts_targetParts (c : Catalog) (expand : Kind -> Shape) (reach : Nat) (kind : Kind) :
    cutParts (c.targetParts expand kind) reach =
      c.targetParts (fun inner => (expand inner).cut reach) kind := by
  cases kind with
  | ownedPointer name => exact c.cutParts_partsOf expand reach (.ownedPointer name)
  | pointerTo target =>
      rw [targetParts, targetParts]
      split
      · exact c.cutParts_partsOf expand reach target
      · rfl
  | _ => rfl

/-- A cut goes into what a kind is filled in with. -/
theorem cut_shapeWith {record : Kind -> Shape} {target target' : Kind -> List Part} {reach : Nat}
    (pointers : forall kind, (Shape.pointer kind (target kind)).cut reach = .pointer kind (target' kind))
    (kind : Kind) :
    (shapeWith record target kind).cut reach =
      shapeWith (fun inner => (record inner).cut reach) target' kind := by
  induction kind with
  | fixedArray element count inductionHypothesis =>
      rw [shapeWith, shapeWith, ← inductionHypothesis]
      split
      · rw [cut, size_cut]
      · rw [cut]
  | pointerTo inner => exact pointers _
  | ownedPointer name => exact pointers _
  | inlineStruct name => rfl
  | entity name => rfl
  | composite name => rfl
  | _ => rfl

theorem cut_shapeWithin {c : Catalog} {target target' : Kind -> List Part} {reach : Nat}
    (pointers : forall kind, (Shape.pointer kind (target kind)).cut reach = .pointer kind (target' kind))
    (depth : Nat) (kind : Kind) :
    (c.shapeWithin target depth kind).cut reach = c.shapeWithin target' depth kind := by
  induction depth generalizing kind with
  | zero => exact cut_shapeWith pointers kind
  | succ depth inductionHypothesis =>
      rw [shapeWithin, cut_shapeWith pointers, shapeWithin]
      simp only [cut, cutParts_partsOf, inductionHypothesis]

/-- A shape for fewer pointers is a cut of the shape for more. -/
theorem cut_shape (c : Catalog) {few many : Nat} (le : few ≤ many) (kind : Kind) :
    (c.shape many kind).cut few = c.shape few kind := by
  induction many generalizing few kind with
  | zero =>
      rw [Nat.le_zero.mp le]
      exact cut_shapeWithin (fun _ => rfl) c.nesting kind
  | succ many inductionHypothesis =>
      cases few with
      | zero => exact cut_shapeWithin (fun _ => rfl) c.nesting kind
      | succ few =>
          refine cut_shapeWithin (fun pointer => ?_) c.nesting kind
          have behind : (fun inner => (c.shape many inner).cut few) = c.shape few :=
            funext (inductionHypothesis (Nat.le_of_succ_le_succ le))
          rw [cut, cutParts_targetParts, behind]

theorem cutParts_topParts (c : Catalog) {few many : Nat} (le : few ≤ many) (name : String) :
    cutParts (c.topParts many name) few = c.topParts few name := by
  have shapes : (fun kind => (c.shape many kind).cut few) = c.shape few := funext (c.cut_shape le)
  rw [topParts, topParts]
  split
  · rw [cutParts_layClasses, shapes]
  · rw [cutParts_layFields, shapes]

/-- With fewer pointers followed, a walk makes the same visits behind as many
pointers as it still follows, and no others. -/
theorem typeVisits_eq_filter (c : Catalog) {few many : Nat} (le : few ≤ many) (name : String) :
    c.typeVisits few name = (c.typeVisits many name).filter (fun v => v.depth ≤ few) := by
  rw [typeVisits, typeVisits, ← c.cutParts_topParts le, visitsOfParts_cutParts]

theorem depth_le_of_mem_typeVisits {c : Catalog} {reach : Nat} {name : String} {v : Visit}
    (visited : v ∈ c.typeVisits reach name) : v.depth ≤ reach := by
  rw [c.typeVisits_eq_filter (Nat.le_refl reach)] at visited
  exact of_decide_eq_true (List.mem_filter.mp visited).2

/-- A layout whose visits have different paths records them all. -/
theorem toList_typeOffsets_of_nodup {c : Catalog} {o : LayoutOptions} {name : String}
    (distinct : ((c.typeVisits o.reach name).map (fun v => v.path (c.topPath name))).Nodup) (m : Memory)
    (root : Address) : (c.typeOffsets o m root name).toList =
      (c.typeVisits o.reach name).map (Visit.entry m (c.topPath name) root) := by
  rw [typeOffsets_eq]
  exact OffsetMap.toList_ofEntries (List.pairwise_map.mpr (List.pairwise_map.mp distinct))

/-- The limit on pointers.  A layout records nothing behind more pointers than
its limit allows, and one that follows no pointers is a layout with the limit 0.
Where no path comes twice, a limit that is higher by one adds just the entries
behind one pointer more.  The others keep their addresses, their kinds and their
order. -/
theorem typeOffsets_deepen (c : Catalog) (m : Memory) (root : Address) (name : String) (limit : Nat) :
    (forall entry, entry ∈ (c.typeOffsets ⟨limit, true⟩ m root name).toList ->
      ∃ v, v ∈ c.typeVisits limit name ∧ v.depth ≤ limit ∧ entry = v.entry m (c.topPath name) root) ∧
    (forall follow, c.typeOffsets ⟨limit, false⟩ m root name = c.typeOffsets ⟨0, follow⟩ m root name) ∧
    (((c.typeVisits (limit + 1) name).map (fun v => v.path (c.topPath name))).Nodup ->
      (c.typeOffsets ⟨limit + 1, true⟩ m root name).toList =
        (c.typeVisits (limit + 1) name).map (Visit.entry m (c.topPath name) root) ∧
      (c.typeOffsets ⟨limit, true⟩ m root name).toList =
        ((c.typeVisits (limit + 1) name).filter (fun v => v.depth ≤ limit)).map
          (Visit.entry m (c.topPath name) root) ∧
      forall v, v ∈ c.typeVisits (limit + 1) name -> v.depth ≤ limit ∨ v.depth = limit + 1) := by
  refine ⟨fun entry recorded => ?_, fun follow => ?_, fun distinct => ⟨?_, ?_, fun v visited => ?_⟩⟩
  · rw [typeOffsets_eq] at recorded
    rcases List.mem_map.mp (OffsetMap.mem_of_mem_ofEntries recorded) with ⟨v, visited, rfl⟩
    exact ⟨v, visited, depth_le_of_mem_typeVisits visited, rfl⟩
  · have reach : (LayoutOptions.mk 0 follow).reach = (LayoutOptions.mk limit false).reach := by
      cases follow <;> rfl
    rw [typeOffsets_eq, typeOffsets_eq, reach]
  · exact toList_typeOffsets_of_nodup distinct m root
  · have fewer := c.typeVisits_eq_filter (Nat.le_succ limit) name
    have selected : (c.typeVisits limit name).Sublist (c.typeVisits (limit + 1) name) := by
      rw [fewer]
      exact List.filter_sublist
    rw [← fewer]
    exact toList_typeOffsets_of_nodup (distinct.sublist (selected.map _)) m root
  · exact Nat.le_or_eq_of_le_succ (depth_le_of_mem_typeVisits visited)

/-- A link that holds a number and leads to the next link. -/
def linkCatalog : Catalog :=
  { empty with
    names := ⟨[], [], ["Link"], []⟩
    composites := [("Link", [⟨"id", .scalar ⟨1, .unsigned⟩, "UnsignedByte", none, none⟩,
      ⟨"next", .pointerTo (.composite "Link"), "Link", none, none⟩])] }

theorem typeOffsets_deepen_at_link :
    ((linkCatalog.typeVisits 2 "Link").map (fun v => v.path (linkCatalog.topPath "Link"))).Nodup ∧
    forall m root,
      (linkCatalog.typeOffsets ⟨1, true⟩ m root "Link").toList.map Entry.path =
        ["Link.id", "Link.next", "Link.next.id", "Link.next.next"] ∧
      (linkCatalog.typeOffsets ⟨2, true⟩ m root "Link").toList.map Entry.path =
        ["Link.id", "Link.next", "Link.next.id", "Link.next.next", "Link.next.next.id",
          "Link.next.next.next"] := by
  have distinct : ((linkCatalog.typeVisits 2 "Link").map (fun v => v.path (linkCatalog.topPath "Link"))).Nodup := by
    decide
  refine ⟨distinct, fun m root => ?_⟩
  rcases (typeOffsets_deepen linkCatalog m root "Link" 1).2.2 distinct with ⟨deeper, shallower, -⟩
  rw [deeper, shallower, List.map_map, List.map_map]
  constructor
  · have paths : ((linkCatalog.typeVisits 2 "Link").filter (fun v => v.depth ≤ 1)).map
        (fun v => v.path (linkCatalog.topPath "Link")) =
        ["Link.id", "Link.next", "Link.next.id", "Link.next.next"] := by decide
    exact paths
  · have paths : (linkCatalog.typeVisits 2 "Link").map (fun v => v.path (linkCatalog.topPath "Link")) =
        ["Link.id", "Link.next", "Link.next.id", "Link.next.next", "Link.next.next.id",
          "Link.next.next.next"] := by decide
    exact paths

end Catalog
end MemoryAtlas
