import MemoryAtlas.Image.Snapshot
import MemoryAtlas.Layout.Placement
import MemoryAtlas.Proofs.Layout.Recording

namespace MemoryAtlas

/-!
# Layouts of one type look alike

Two layouts of one shape may be made from different memories, at different
roots and below different paths.  Their entries still correspond: the same
kinds come in the same order, and the paths differ only in what they begin
with.  Nothing that memory answers decides which entries there are.

A path below a prefix is that prefix, a dot and a suffix, and below the empty
prefix the suffix alone.  The empty path is the one place where a dot may be
missing, so the argument keeps away from it: it starts where the first names
are known not to be empty and goes on with longer paths only.
-/

/-- Two paths with one suffix below their prefixes, and neither of them empty. -/
def SamePlace (under under' path path' : String) : Prop :=
  path ≠ "" ∧ path' ≠ "" ∧
    ∃ suffix, path = joinPath under suffix ∧ path' = joinPath under' suffix

/-- Entries of one kind whose paths have one suffix below their prefixes. -/
def Entry.SameBelow (under under' : String) (one other : Entry) : Prop :=
  one.kind = other.kind ∧
    ∃ suffix, one.path = joinPath under suffix ∧ other.path = joinPath under' suffix

/-! ## Paths -/

theorem joinPath_of_ne_empty {under : String} (present : under ≠ "") (name : String) :
    joinPath under name = under ++ "." ++ name := by
  rw [joinPath, String.isEmpty_eq_false_iff.mpr present, if_neg Bool.false_ne_true]

theorem joinPath_inj (under : String) {name name' : String} :
    joinPath under name = joinPath under name' <-> name = name' := by
  by_cases empty : under = ""
  · subst empty
    rfl
  · rw [joinPath_of_ne_empty empty, joinPath_of_ne_empty empty, String.append_right_inj]

/-- A name below a path that is not empty makes a path that is not empty. -/
theorem joinPath_ne_empty {path : String} (present : path ≠ "") (name : String) :
    joinPath path name ≠ "" := by
  rw [joinPath_of_ne_empty present]
  intro empty
  exact present (String.append_eq_empty_iff.mp (String.append_eq_empty_iff.mp empty).1).1

/-- A name that is not empty makes a path that is not empty, also at the top. -/
theorem joinPath_ne_empty_of_name {name : String} (present : name ≠ "") (path : String) :
    joinPath path name ≠ "" := by
  by_cases empty : path = ""
  · subst empty
    exact present
  · exact joinPath_ne_empty empty name

/-- Below a path that is not empty the suffix grows by a dot and the name. -/
theorem joinPath_joinPath {under suffix : String} (present : joinPath under suffix ≠ "")
    (name : String) :
    joinPath (joinPath under suffix) name = joinPath under (suffix ++ "." ++ name) := by
  rw [joinPath_of_ne_empty present]
  by_cases empty : under = ""
  · subst empty
    rfl
  · rw [joinPath_of_ne_empty empty, joinPath_of_ne_empty empty]
    simp only [String.append_assoc]

theorem SamePlace.join {under under' path path' : String} (same : SamePlace under under' path path')
    (name : String) : SamePlace under under' (joinPath path name) (joinPath path' name) := by
  rcases same with ⟨present, present', suffix, rfl, rfl⟩
  exact ⟨joinPath_ne_empty present name, joinPath_ne_empty present' name, suffix ++ "." ++ name,
    joinPath_joinPath present name, joinPath_joinPath present' name⟩

/-- Where paths have one suffix, they repeat on one side as on the other. -/
theorem Entry.sameBelow_aligned (under under' : String) :
    OffsetMap.Aligned (Entry.SameBelow under under') := by
  rintro one other one' other' ⟨_, suffix, path, path'⟩ ⟨_, suffix', latter, latter'⟩
  rw [path, path', latter, latter', joinPath_inj, joinPath_inj]

/-! ## Shapes -/

namespace Shape

variable {under under' : String} (m m' : Memory)

mutual

/-- The entries of one shape at two places that have one suffix. -/
theorem entries_sameBelow {path path' : String} (same : SamePlace under under' path path')
    (a a' : Address) (shape : Shape) :
    List.Forall₂ (Entry.SameBelow under under') (shape.entries m path a) (shape.entries m' path' a') := by
  have recorded : forall kind, Entry.SameBelow under under' ⟨path, a, kind⟩ ⟨path', a', kind⟩ :=
    fun kind => ⟨rfl, same.2.2⟩
  match shape with
  | .gap bytes => exact .nil
  | .atom kind size => exact .cons (recorded kind) .nil
  | .endless kind => exact .cons (recorded kind) .nil
  | .array kind element count =>
      refine .cons (recorded kind) (List.rel_flatMap (List.forall₂_same.mpr (fun i _ => rfl)) ?_)
      rintro i _ rfl
      exact entries_sameBelow (same.join (toString i)) _ _ element
  | .record kind parts =>
      exact .cons (recorded kind)
        (entriesOfParts_sameBelow a a' parts (fun part _ => same.join part.1))
  | .pointer kind target =>
      rw [entries, entries]
      refine .cons (recorded kind) ?_
      cases target.isEmpty with
      | true => exact .nil
      | false =>
          exact entriesOfParts_sameBelow (m.follow a) (m'.follow a') target (fun part _ => same.join part.1)

/-- The entries of the parts of one whole, if each part has one suffix. -/
theorem entriesOfParts_sameBelow {path path' : String} (base base' : Address)
    (parts : List (String × Nat × Shape))
    (same : forall part, part ∈ parts ->
      SamePlace under under' (joinPath path part.1) (joinPath path' part.1)) :
    List.Forall₂ (Entry.SameBelow under under') (entriesOfParts m path base parts)
      (entriesOfParts m' path' base' parts) := by
  match parts with
  | [] => exact .nil
  | (name, offset, shape) :: rest =>
      exact List.rel_append (entries_sameBelow (same _ List.mem_cons_self) _ _ shape)
        (entriesOfParts_sameBelow base base' rest
          (fun part member => same part (List.mem_cons_of_mem _ member)))

end

end Shape

/-! ## Layouts -/

namespace Catalog

/-- The parts of a class chain have the names of its classes. -/
theorem name_mem_of_mem_layClasses {c : Catalog} {expand : Kind -> Shape} {cursor : Nat}
    {chain : List String} {part : Part} (member : part ∈ c.layClasses expand cursor chain) :
    part.1 ∈ chain := by
  induction chain generalizing cursor with
  | nil => cases member
  | cons name rest inductionHypothesis =>
      rcases List.mem_cons.mp member with rfl | later
      · exact List.mem_cons_self
      · exact List.mem_cons_of_mem _ (inductionHypothesis later)

/-- Laying out a list of fields below two prefixes, or a chain of classes at
the top or below any prefix, records the same kinds in the same order under the
same suffixes.  Neither the memory nor the root has a say in it.  Below a prefix
the names of the fields do not matter; the classes need names, since at the top
nothing else would keep the path of a class from being empty. -/
theorem offsets_uniform (c : Catalog) (o : LayoutOptions) (m m' : Memory) (root root' : Address)
    (under under' : String) :
    (under ≠ "" -> under' ≠ "" -> forall fields,
      List.Forall₂ (Entry.SameBelow under under') (c.fieldOffsets o m root under fields).toList
        (c.fieldOffsets o m' root' under' fields).toList) ∧
    forall chain, (forall name, name ∈ chain -> name ≠ "") ->
      List.Forall₂ (Entry.SameBelow under under') (c.chainOffsets o m root under chain).toList
        (c.chainOffsets o m' root' under' chain).toList := by
  have aligned := Entry.sameBelow_aligned under under'
  constructor
  · intro present present' fields
    refine OffsetMap.forall₂_ofEntries aligned (Shape.entriesOfParts_sameBelow m m' root root' _ ?_)
    intro part _
    exact ⟨joinPath_ne_empty present part.1, joinPath_ne_empty present' part.1, part.1, rfl, rfl⟩
  · intro chain named
    refine OffsetMap.forall₂_ofEntries aligned (Shape.entriesOfParts_sameBelow m m' root root' _ ?_)
    intro part member
    have present := named part.1 (name_mem_of_mem_layClasses member)
    exact ⟨joinPath_ne_empty_of_name present under, joinPath_ne_empty_of_name present under', part.1, rfl, rfl⟩

/-- A memory of eight bytes that hold the address of the first of them. -/
def selfPointer : Memory :=
  (Snapshot.ofRegion 0x10 (List.toArray (toLittleEndian 8 0x10))).memory

/-- A field that holds a pointer to a pointer. -/
def pointerField : Field where
  name := "next"
  kind := .pointerTo (.pointerTo (.scalar ⟨4, .unsigned⟩))
  typeName := "Dword"
  declaredOffset := none
  comment := none

theorem offsets_uniform_at_selfPointer :
    List.Forall₂ (Entry.SameBelow "one" "other")
      (empty.fieldOffsets {} selfPointer 0x10 "one" [pointerField]).toList
      (empty.fieldOffsets {} selfPointer 0 "other" [pointerField]).toList ∧
    List.Forall₂ (Entry.SameBelow "" "other")
      (empty.chainOffsets {} selfPointer 0x10 "" [Schema.rootClass]).toList
      (empty.chainOffsets {} selfPointer 0 "other" [Schema.rootClass]).toList := by
  refine ⟨(offsets_uniform _ _ _ _ _ _ _ _).1 ?_ ?_ _, (offsets_uniform _ _ _ _ _ _ _ _).2 _ ?_⟩
  · decide
  · decide
  · decide

end Catalog

end MemoryAtlas
