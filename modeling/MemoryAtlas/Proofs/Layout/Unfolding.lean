import MemoryAtlas.Layout.Placement
import MemoryAtlas.Proofs.Layout.Nesting

namespace MemoryAtlas

open Shape

/-!
# Shapes without the bound

The shape of a kind is cut off where declarations nest too deeply.  Of a kind
that is accessible nothing is ever cut off, so that its shape satisfies the
equation one would write down for it: fill in the kind, and fill in what it
holds in the same way.

Two recursions follow from that equation.  A size is put together from the
sizes of what is held, and the entries of a shape are put together from the
entries of what is held and of what is pointed to.  Both are stated here for
one step, with the recursive calls as parameters.
-/

namespace Catalog

/-! ## A step depends only on what is held -/

theorem layFields_congr {first second : Kind -> Shape} {fields : List Field}
    (agree : forall field, field ∈ fields -> first field.kind = second field.kind) (cursor : Nat) :
    layFields first cursor fields = layFields second cursor fields := by
  induction fields generalizing cursor with
  | nil => rfl
  | cons field rest inductionHypothesis =>
      rw [layFields, layFields, agree field List.mem_cons_self,
        inductionHypothesis (fun other member => agree other (List.mem_cons_of_mem field member))]

theorem layClasses_congr {c : Catalog} {first second : Kind -> Shape} {names : List String}
    (agree : forall name, name ∈ names -> forall field, field ∈ c.fieldsOf (.entity name) ->
      first field.kind = second field.kind) (cursor : Nat) :
    c.layClasses first cursor names = c.layClasses second cursor names := by
  induction names generalizing cursor with
  | nil => rfl
  | cons name rest inductionHypothesis =>
      rw [layClasses, layClasses, layFields_congr (agree name List.mem_cons_self),
        inductionHypothesis (fun other member => agree other (List.mem_cons_of_mem name member))]

theorem partsOf_congr {c : Catalog} {first second : Kind -> Shape} {kind : Kind}
    (structured : kind.structName?.isSome)
    (agree : forall inner, inner ∈ c.heldKinds kind -> first inner = second inner) :
    c.partsOf first kind = c.partsOf second kind := by
  cases kind with
  | inlineStruct name =>
      exact layFields_congr (fun field member => agree _ (List.mem_map_of_mem member)) 0
  | composite name =>
      exact layFields_congr (fun field member => agree _ (List.mem_map_of_mem member)) 0
  | entity name =>
      refine layClasses_congr (fun ancestor above field member => agree _ ?_) 0
      exact List.mem_flatMap.mpr ⟨ancestor, above, List.mem_map_of_mem member⟩
  | _ => cases structured

/-- Of the shapes given for structures only the one of the core is used. -/
theorem shapeWith_congr {first second : Kind -> Shape} {target : Kind -> List Part} {kind : Kind}
    (agree : kind.core.structName?.isSome -> first kind.core = second kind.core) :
    shapeWith first target kind = shapeWith second target kind := by
  induction kind with
  | fixedArray element count inductionHypothesis =>
      rw [shapeWith, shapeWith, inductionHypothesis agree]
  | inlineStruct name => exact agree rfl
  | composite name => exact agree rfl
  | entity name => exact agree rfl
  | _ => rfl

/-! ## The bound is out of reach -/

/-- Room for one more declaration changes nothing where there is room. -/
theorem shapeWithin_succ {c : Catalog} {target : Kind -> List Part} {depth : Nat} {kind : Kind}
    (nests : c.NestsWithin depth kind) :
    c.shapeWithin target (depth + 1) kind = c.shapeWithin target depth kind := by
  induction depth generalizing kind with
  | zero =>
      apply shapeWith_congr
      intro structured
      rw [nests] at structured
      cases structured
  | succ depth inductionHypothesis =>
      apply shapeWith_congr
      intro structured
      have same := partsOf_congr (c := c) structured
        (fun inner held => inductionHypothesis (nests inner held))
      exact congrArg (Shape.record kind.core) same

/-- The targets of pointers when `reach` of them may be followed. -/
def targetsAt (c : Catalog) : Nat -> Kind -> List Part
  | 0 => fun _ => []
  | reach + 1 => c.targetParts (c.shape reach)

theorem shape_eq_shapeWithin (c : Catalog) (reach : Nat) (kind : Kind) :
    c.shape reach kind = c.shapeWithin (c.targetsAt reach) c.nesting kind := by
  cases reach <;> rfl

theorem acc_of_reflTransGen {c : Catalog} {inner outer : Kind} (accessible : Acc c.Holds outer)
    (path : Relation.ReflTransGen c.Holds inner outer) : Acc c.Holds inner := by
  induction path using Relation.ReflTransGen.head_induction_on with
  | refl => exact accessible
  | head held _ inductionHypothesis => exact inductionHypothesis.inv held

/-- Declarations nest in each other only as deeply as there are declarations. -/
theorem Consistent.nestsWithin {c : Catalog} (consistent : c.Consistent) {kind : Kind}
    (accessible : Acc c.Holds kind) : c.NestsWithin c.nesting kind :=
  nestsWithin_nesting consistent fun _ below =>
    not_transGen_self_of_acc (acc_of_reflTransGen accessible below)

/-- The equation of shapes: a structure is filled in with shapes. -/
theorem shape_eq {c : Catalog} (consistent : c.Consistent) {kind : Kind} (accessible : Acc c.Holds kind)
    (reach : Nat) :
    c.shape reach kind =
      shapeWith (fun inner => .record inner (c.partsOf (c.shape reach) inner))
        (c.targetsAt reach) kind := by
  have unbounded : c.shape reach = c.shapeWithin (c.targetsAt reach) c.nesting :=
    funext (c.shape_eq_shapeWithin reach)
  rw [unbounded]
  exact (shapeWithin_succ (consistent.nestsWithin accessible)).symm

/-! ## Sizes -/

/-- Where a list of fields ends that begins at `cursor`. -/
def fieldsEnd (sizes : Kind -> Nat) : Nat -> List Field -> Nat
  | _, [] => 0
  | cursor, field :: rest =>
    let finish := field.declaredOffset.getD cursor + sizes field.kind
    max finish (fieldsEnd sizes finish rest)

/-- The size of a kind, given the sizes of what it holds. -/
def sizeStep (c : Catalog) (sizes : Kind -> Nat) : Kind -> Nat
  | .scalar s => s.width
  | .pointerTo _ => pointerSize
  | .ownedPointer _ => pointerSize
  | .inlineStruct name => fieldsEnd sizes 0 (c.fieldsOf (.inlineStruct name))
  | .composite name => fieldsEnd sizes 0 (c.fieldsOf (.composite name))
  | .entity name =>
    (c.ancestors name).foldr
      (fun ancestor total => fieldsEnd sizes 0 (c.fieldsOf (.entity ancestor)) + total) 0
  | .fixedArray element count => sizes element * count
  | .skip bytes => bytes
  | .dynamicArray _ => vectorHeadSize
  | .orderedMap _ _ => treeHeadSize
  | .foreignString _ => stringHeadSize
  | .slotTable _ => pointerSize

theorem extent_layFields (expand : Kind -> Shape) (cursor : Nat) (fields : List Field) :
    extent (layFields expand cursor fields) = fieldsEnd (fun kind => (expand kind).size) cursor fields := by
  induction fields generalizing cursor with
  | nil => rfl
  | cons field rest inductionHypothesis =>
      rw [layFields, extent, fieldsEnd, inductionHypothesis]

/-- Classes are laid out one behind the other, so the last one ends where
their sizes add up to. -/
theorem extent_layClasses (c : Catalog) (expand : Kind -> Shape) (cursor : Nat) (names : List String) :
    max cursor (extent (c.layClasses expand cursor names)) =
      cursor + names.foldr (fun name total =>
        fieldsEnd (fun kind => (expand kind).size) 0 (c.fieldsOf (.entity name)) + total) 0 := by
  induction names generalizing cursor with
  | nil => simp [layClasses, extent]
  | cons name rest inductionHypothesis =>
      have later := inductionHypothesis
        (cursor + fieldsEnd (fun kind => (expand kind).size) 0 (c.fieldsOf (.entity name)))
      rw [layClasses, extent, size, extent_layFields, List.foldr_cons]
      omega

theorem fieldsEnd_congr {first second : Kind -> Nat} {fields : List Field}
    (agree : forall field, field ∈ fields -> first field.kind = second field.kind) (cursor : Nat) :
    fieldsEnd first cursor fields = fieldsEnd second cursor fields := by
  induction fields generalizing cursor with
  | nil => rfl
  | cons field rest inductionHypothesis =>
      rw [fieldsEnd, fieldsEnd, agree field List.mem_cons_self,
        inductionHypothesis (fun other member => agree other (List.mem_cons_of_mem field member))]

theorem sizeStep_congr {c : Catalog} {first second : Kind -> Nat} {kind : Kind}
    (agree : forall inner, inner ∈ c.heldKinds kind -> first inner = second inner) :
    c.sizeStep first kind = c.sizeStep second kind := by
  cases kind with
  | inlineStruct name =>
      exact fieldsEnd_congr (fun field member => agree _ (List.mem_map_of_mem member)) 0
  | composite name =>
      exact fieldsEnd_congr (fun field member => agree _ (List.mem_map_of_mem member)) 0
  | entity name =>
      rw [sizeStep, sizeStep]
      refine List.foldr_ext _ _ 0 (fun ancestor above total => ?_)
      rw [fieldsEnd_congr (fun field member => agree _ ?_) 0]
      exact List.mem_flatMap.mpr ⟨ancestor, above, List.mem_map_of_mem member⟩
  | fixedArray element count =>
      rw [sizeStep, sizeStep, agree element List.mem_cons_self]
  | _ => rfl

theorem extent_partsOf (c : Catalog) (expand : Kind -> Shape) {kind : Kind}
    (structured : kind.structName?.isSome) :
    extent (c.partsOf expand kind) = c.sizeStep (fun inner => (expand inner).size) kind := by
  cases kind with
  | inlineStruct name => exact extent_layFields expand 0 _
  | composite name => exact extent_layFields expand 0 _
  | entity name =>
      have total := extent_layClasses c expand 0 (c.ancestors name)
      rw [partsOf, sizeStep]
      omega
  | _ => cases structured

/-- The size of a shape is put together from the sizes of what is held. -/
theorem size_shape_step {c : Catalog} (consistent : c.Consistent) {kind : Kind}
    (accessible : Acc c.Holds kind) (reach : Nat) :
    (c.shape reach kind).size = c.sizeStep (fun inner => (c.shape reach inner).size) kind := by
  rw [shape_eq consistent accessible]
  cases kind with
  | fixedArray element count =>
      have held : c.Holds element (.fixedArray element count) := List.mem_cons_self
      rw [shapeWith, ← shape_eq consistent (accessible.inv held)]
      split <;> simp [size, sizeStep]
  | entity name => exact c.extent_partsOf _ rfl
  | inlineStruct name => exact c.extent_partsOf _ rfl
  | composite name => exact c.extent_partsOf _ rfl
  | _ => rfl

/-- Following pointers does not change sizes. -/
theorem size_shape_of_acc {c : Catalog} (consistent : c.Consistent) {kind : Kind}
    (accessible : Acc c.Holds kind) (reach : Nat) : (c.shape reach kind).size = c.sizeOf kind := by
  induction accessible with
  | intro kind below inductionHypothesis =>
      have accessible : Acc c.Holds kind := .intro kind below
      rw [size_shape_step consistent accessible, sizeOf, size_shape_step consistent accessible]
      exact sizeStep_congr inductionHypothesis

theorem size_shape {c : Catalog} (consistent : c.Consistent) (wellFounded : WellFounded c.Holds)
    (reach : Nat) (kind : Kind) : (c.shape reach kind).size = c.sizeOf kind :=
  size_shape_of_acc consistent (wellFounded.apply kind) reach

/-- The equation of sizes. -/
theorem sizeOf_eq_of_acc {c : Catalog} (consistent : c.Consistent) {kind : Kind}
    (accessible : Acc c.Holds kind) : c.sizeOf kind = c.sizeStep c.sizeOf kind :=
  size_shape_step consistent accessible 0

theorem sizeOf_of_plain {c : Catalog} (consistent : c.Consistent) {kind : Kind}
    (plain : kind.core.structName? = none) : c.sizeOf kind = c.sizeStep c.sizeOf kind :=
  sizeOf_eq_of_acc consistent (acc_of_plain plain)

theorem sizeOf_fixedArray_of_acc {c : Catalog} (consistent : c.Consistent) {element : Kind}
    (accessible : Acc c.Holds element) (count : Nat) :
    c.sizeOf (.fixedArray element count) = c.sizeOf element * count :=
  sizeOf_eq_of_acc consistent (acc_fixedArray accessible count)

theorem sizeOf_eq {c : Catalog} (consistent : c.Consistent) (wellFounded : WellFounded c.Holds)
    (kind : Kind) : c.sizeOf kind = c.sizeStep c.sizeOf kind :=
  sizeOf_eq_of_acc consistent (wellFounded.apply kind)

end Catalog
end MemoryAtlas
