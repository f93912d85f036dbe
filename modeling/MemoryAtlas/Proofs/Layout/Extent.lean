import MemoryAtlas.Proofs.Layout.Growth
import MemoryAtlas.Proofs.Layout.Recording
import MemoryAtlas.Proofs.Layout.Runs

namespace MemoryAtlas

open Schema Shape

/-!
# Layouts keep to the size of their type

As long as no pointer is followed, steps only go forward.  The address of a
value is then the root and a distance that the type alone decides, and the value
ends before the shape that it stands in does.

The room of a value is the static size of its kind, so every value fits into the
static size of the type that is laid out.  A header in a class chain is the one
exception: it stands for one class of the chain but has the kind of a whole
class, whose size counts the chain above it again.

Where no field says itself at what distance it begins, each part begins where
the part before it has ended.  Values that are laid out in one piece then follow
each other and never share a byte.
-/

/-- A kind without parts: it is laid out in one piece. -/
def Kind.isUndivided (kind : Kind) : Bool :=
  kind.undividedSize?.isSome || kind.isPointer

theorem Kind.isUndivided_of_structured {kind : Kind} (structured : kind.structName?.isSome) :
    kind.isUndivided = false := by
  cases kind with
  | inlineStruct name => rfl
  | composite name => rfl
  | entity name => rfl
  | _ => cases structured

theorem Kind.isEntity_of_isUndivided {kind : Kind} (undivided : kind.isUndivided = true) :
    kind.isEntity = false := by
  cases kind with
  | entity name => cases undivided
  | _ => rfl

theorem Kind.isUndivided_fixedArray {element : Kind} (divided : element.isScalar = false) (count : Nat) :
    (Kind.fixedArray element count).isUndivided = false := by
  cases element with
  | scalar s => cases divided
  | _ => rfl

/-! ## Steps that go forward -/

theorem foldl_advance {steps : List Step} (direct : steps.count .through = 0) (distance : Nat) :
    steps.foldl Step.advance distance = distance + steps.foldl Step.advance 0 := by
  induction steps generalizing distance with
  | nil => rfl
  | cons step rest inductionHypothesis =>
      cases step with
      | through => simp at direct
      | on bytes =>
          have directRest : rest.count .through = 0 := by simpa using direct
          rw [List.foldl_cons, List.foldl_cons, inductionHypothesis directRest,
            inductionHypothesis directRest (Step.advance 0 (.on bytes)), Step.advance, Step.advance]
          omega

theorem Address.toNat_part {base : Address} {n : Nat} (resolved : base ≠ 0)
    (fits : base.toNat + n < 2 ^ 64) : (Address.part base n).toNat = base.toNat + n := by
  rw [Address.part, if_neg resolved, Address.toNat_shift fits]

/-- Steps forward from a resolved address lead to that address and the distance,
if the address space reaches so far. -/
theorem toNat_foldl_take (m : Memory) {steps : List Step} (direct : steps.count .through = 0)
    {a : Address} (resolved : a ≠ 0) (fits : a.toNat + steps.foldl Step.advance 0 < 2 ^ 64) :
    (steps.foldl m.take a).toNat = a.toNat + steps.foldl Step.advance 0 := by
  induction steps generalizing a with
  | nil => rfl
  | cons step rest inductionHypothesis =>
      cases step with
      | through => simp at direct
      | on bytes =>
          have directRest : rest.count .through = 0 := by simpa using direct
          have distance : (Step.on bytes :: rest).foldl Step.advance 0 =
              bytes + rest.foldl Step.advance 0 := by
            rw [List.foldl_cons, foldl_advance directRest, Step.advance, Nat.zero_add]
          rw [distance] at fits ⊢
          have next := Address.toNat_part resolved (show a.toNat + bytes < 2 ^ 64 by omega)
          have resolvedNext : Address.part a bytes ≠ 0 := by
            have positive : a.toNat ≠ (0 : Address).toNat := mt UInt64.toNat_inj.mp resolved
            intro unresolved
            rw [unresolved] at next
            rw [UInt64.toNat_zero] at next positive
            omega
          rw [List.foldl_cons, Memory.take, inductionHypothesis directRest resolvedNext (by omega), next]
          omega

namespace Visit

@[simp] theorem depth_part (owner : Option String) (name : String) (offset : Nat) (v : Visit) :
    (v.part owner name offset).depth = v.depth := by
  simp [depth, part]

@[simp] theorem depth_behind (v : Visit) : v.behind.depth = v.depth + 1 := by
  simp [depth, behind]

theorem offset_part {v : Visit} (direct : v.depth = 0) (owner : Option String) (name : String)
    (offset : Nat) : (v.part owner name offset).offset = offset + v.offset := by
  show v.steps.foldl Step.advance (0 + offset) = offset + v.steps.foldl Step.advance 0
  rw [foldl_advance direct, Nat.zero_add]

/-- A value that no pointer leads to is at the same distance from every root. -/
theorem toNat_address {v : Visit} (direct : v.depth = 0) (m : Memory) {root : Address}
    (resolved : root ≠ 0) (fits : root.toNat + v.offset < 2 ^ 64) :
    (v.address m root).toNat = root.toNat + v.offset :=
  toNat_foldl_take m direct resolved fits

/-- The first value ends before the second one begins, where both are in one
piece and no pointer leads to either. -/
def Precedes (v w : Visit) : Prop :=
  v.depth = 0 -> w.depth = 0 -> v.kind.isUndivided = true -> w.kind.isUndivided = true ->
    v.offset + v.size ≤ w.offset

theorem Precedes.part {v w : Visit} (precedes : Precedes v w) (owner : Option String) (name : String)
    (offset : Nat) : Precedes (v.part owner name offset) (w.part owner name offset) := by
  intro direct direct' undivided undivided'
  rw [depth_part] at direct direct'
  have earlier := precedes direct direct' undivided undivided'
  rw [offset_part direct, offset_part direct']
  show offset + v.offset + v.size ≤ offset + w.offset
  omega

theorem precedes_behind (v w : Visit) : Precedes v w.behind := by
  intro _ direct
  rw [depth_behind] at direct
  omega

/-- What has parts comes before them without being one of the values in one piece. -/
theorem precedes_self_of_divided {kind : Kind} (divided : kind.isUndivided = false) (size : Nat)
    (w : Visit) : Precedes (.self kind size) w := by
  intro _ _ undivided
  rw [self, divided] at undivided
  cases undivided

end Visit

/-! ## Values end before their shape does -/

namespace Shape

mutual

theorem offset_add_size_le {shape : Shape} {v : Visit} (visited : v ∈ shape.visits)
    (direct : v.depth = 0) : v.offset + v.size ≤ shape.size := by
  match shape with
  | .gap bytes => cases visited
  | .atom kind bytes =>
      rw [List.mem_singleton.mp visited]
      exact Nat.le_of_eq (Nat.zero_add bytes)
  | .endless kind =>
      rw [List.mem_singleton.mp visited]
      exact Nat.le_refl 0
  | .array kind element count =>
      rcases List.mem_cons.mp visited with rfl | below
      · exact Nat.le_of_eq (Nat.zero_add _)
      · rcases List.mem_flatMap.mp below with ⟨i, listed, mapped⟩
        rcases List.mem_map.mp mapped with ⟨inner, reached, rfl⟩
        rw [Visit.depth_part] at direct
        have inside := offset_add_size_le reached direct
        have place : (i + 1) * element.size ≤ count * element.size :=
          Nat.mul_le_mul_right _ (List.mem_range.mp listed)
        rw [Visit.offset_part direct, size, Nat.mul_comm element.size]
        rw [Nat.succ_mul] at place
        show i * element.size + inner.offset + inner.size ≤ _
        omega
  | .record kind parts =>
      rcases List.mem_cons.mp visited with rfl | below
      · exact Nat.le_of_eq (Nat.zero_add _)
      · exact offset_add_size_le_extent below direct
  | .pointer kind target =>
      rcases List.mem_cons.mp visited with rfl | below
      · exact Nat.le_of_eq (Nat.zero_add _)
      · rcases List.mem_map.mp below with ⟨inner, reached, rfl⟩
        rw [Visit.depth_behind] at direct
        omega

theorem offset_add_size_le_extent {owner : Option String} {parts : List (String × Nat × Shape)}
    {v : Visit} (visited : v ∈ visitsOfParts owner parts) (direct : v.depth = 0) :
    v.offset + v.size ≤ extent parts := by
  match parts with
  | [] => cases visited
  | (name, offset, shape) :: rest =>
      rw [extent]
      rcases List.mem_append.mp visited with here | later
      · rcases List.mem_map.mp here with ⟨inner, reached, rfl⟩
        rw [Visit.depth_part] at direct
        have inside := offset_add_size_le reached direct
        rw [Visit.offset_part direct]
        show offset + inner.offset + inner.size ≤ _
        omega
      · have inside := offset_add_size_le_extent later direct
        omega

end

/-- Each part begins where all parts before it have ended. -/
def Successive (parts : List Part) : Prop :=
  parts.Pairwise (fun part later => part.2.1 + part.2.2.size ≤ later.2.1)

theorem successive_elementParts (element : Shape) (count : Nat) :
    Successive (elementParts element count) := by
  refine List.pairwise_map.mpr (List.Pairwise.imp ?_ List.pairwise_lt_range)
  intro i j before
  have place : (i + 1) * element.size ≤ j * element.size := Nat.mul_le_mul_right _ before
  rwa [Nat.succ_mul] at place

/-- In successive parts values follow each other, if they do so in each of them. -/
theorem Successive.pairwise_precedes {parts : List Part} (successive : Successive parts)
    (owner : Option String)
    (each : forall part, part ∈ parts -> part.2.2.visits.Pairwise Visit.Precedes) :
    (visitsOfParts owner parts).Pairwise Visit.Precedes := by
  refine pairwise_visitsOfParts ?_ (successive.imp ?_)
  · intro part listed
    exact List.pairwise_map.mpr ((each part listed).imp (fun precedes => precedes.part _ _ _))
  · intro part later apart v visited w visited' direct direct' _ _
    rw [Visit.depth_part] at direct direct'
    have inside := offset_add_size_le visited direct
    rw [Visit.offset_part direct, Visit.offset_part direct']
    show part.2.1 + v.offset + v.size ≤ later.2.1 + w.offset
    omega

end Shape

/-! ## The visits that are recorded -/

namespace Visit

/-- The visits of a walk without those that come to the path of an earlier one. -/
def firsts (under : String) (visits : List Visit) : List Visit :=
  visits.eraseDupsBy (fun v earlier => v.path under == earlier.path under)

theorem firsts_sublist (under : String) (visits : List Visit) : (firsts under visits).Sublist visits :=
  OffsetMap.eraseDupsBy_sublist _ visits

/-- The first visit to each path is recorded, wherever the walk is made. -/
theorem toList_ofEntries (m : Memory) (under : String) (a : Address) (visits : List Visit) :
    (OffsetMap.ofEntries (visits.map (entry m under a))).toList = (firsts under visits).map (entry m under a) :=
  OffsetMap.toList_ofEntries_of_items (entry m under a) visits

end Visit

namespace Catalog

/-! ## The room of a value is the size of its kind -/

section Sizes

variable {c : Catalog} (consistent : c.Consistent) (wellFounded : WellFounded c.Holds)
include consistent wellFounded

theorem sizeOf_of_undivided {kind : Kind} {size : Nat} (undivided : kind.undividedSize? = some size) :
    c.sizeOf kind = size := by
  have step := sizeOf_eq consistent wellFounded kind
  cases kind with
  | fixedArray element count =>
      cases element with
      | scalar s =>
          rw [step, sizeStep, sizeOf_eq consistent wellFounded]
          exact Option.some.inj undivided
      | _ => cases undivided
  | scalar s => exact step.trans (Option.some.inj undivided)
  | dynamicArray element => exact step.trans (Option.some.inj undivided)
  | orderedMap key value => exact step.trans (Option.some.inj undivided)
  | foreignString width => exact step.trans (Option.some.inj undivided)
  | slotTable owner => exact step.trans (Option.some.inj undivided)
  | _ => cases undivided

theorem sizeOf_of_isPointer {kind : Kind} (pointer : kind.isPointer = true) :
    c.sizeOf kind = pointerSize := by
  have step := sizeOf_eq consistent wellFounded kind
  cases kind with
  | pointerTo target => exact step
  | ownedPointer name => exact step
  | _ => cases pointer

/-- A grown shape takes the room that its kind takes. -/
theorem Grown.size_eq {reach : Nat} {kind : Kind} {shape : Shape} (grown : c.Grown reach kind shape) :
    shape.size = c.sizeOf kind := by
  induction grown with
  | gap reach bytes => exact (sizeOf_eq consistent wellFounded (.skip bytes)).symm
  | atom reach undivided => exact (sizeOf_of_undivided consistent wellFounded undivided).symm
  | @array reach element shape count divided grown inductionHypothesis =>
      rw [sizeOf_eq consistent wellFounded (.fixedArray element count), sizeStep, ← inductionHypothesis, size]
  | @record reach kind expand structured held inductionHypothesis =>
      rw [sizeOf_eq consistent wellFounded kind, size, extent_partsOf c expand structured]
      refine sizeStep_congr fun inner holds => ?_
      rw [heldKinds_eq c structured] at holds
      rcases List.mem_map.mp holds with ⟨field, member, rfl⟩
      exact inductionHypothesis field member
  | endless reach structured infinite => exact absurd wellFounded infinite
  | unfollowed pointer => exact (sizeOf_of_isPointer consistent wellFounded pointer).symm
  | followed expand leads held inductionHypothesis =>
      have pointer := Kind.isPointer_of_target? leads
      exact (sizeOf_of_isPointer consistent wellFounded pointer).symm
  | starred plain grown inductionHypothesis =>
      exact (sizeOf_of_isPointer consistent wellFounded rfl).symm

/-- So does every value in it that is not a class. -/
theorem Grown.visit_size_eq {reach : Nat} {kind : Kind} {shape : Shape} (grown : c.Grown reach kind shape)
    {v : Visit} (visited : v ∈ shape.visits) (plain : v.kind.isEntity = false) :
    v.size = c.sizeOf v.kind := by
  have hereditary : c.Hereditary (fun _ => True) :=
    ⟨fun _ => trivial, fun _ => trivial, fun _ _ => trivial, fun _ _ => trivial⟩
  rcases grown.arises hereditary trivial visited with ⟨-, ⟨reach, inner, grownInner, same⟩ | ⟨name, isClass⟩⟩
  · rw [same]
    exact grownInner.size_eq consistent wellFounded
  · rw [isClass] at plain
    cases plain

theorem size_of_mem_layFields {reach cursor : Nat} {fields : List Field} {owner : Option String} {v : Visit}
    (visited : v ∈ visitsOfParts owner (layFields (c.shape reach) cursor fields))
    (plain : v.kind.isEntity = false) : v.size = c.sizeOf v.kind := by
  rcases mem_visitsOfParts.mp visited with ⟨part, listed, inner, reached, rfl⟩
  rcases mem_layFields listed with ⟨field, declared, offset, rfl⟩
  have own : inner.size = c.sizeOf inner.kind :=
    (consistent.grown reach field.kind).visit_size_eq consistent wellFounded reached plain
  exact own

theorem size_of_mem_layClasses {reach cursor : Nat} {chain : List String} {owner : Option String} {v : Visit}
    (visited : v ∈ visitsOfParts owner (c.layClasses (c.shape reach) cursor chain))
    (plain : v.kind.isEntity = false) : v.size = c.sizeOf v.kind := by
  rcases mem_visitsOfParts.mp visited with ⟨part, listed, inner, reached, rfl⟩
  rcases mem_layClasses listed with ⟨name, above, offset, rfl⟩
  rcases List.mem_cons.mp reached with rfl | below
  · cases plain
  · have own : inner.size = c.sizeOf inner.kind :=
      size_of_mem_layFields consistent wellFounded below plain
    exact own

theorem size_of_mem_topParts {reach : Nat} {name : String} {owner : Option String} {v : Visit}
    (visited : v ∈ visitsOfParts owner (c.topParts reach name)) (plain : v.kind.isEntity = false) :
    v.size = c.sizeOf v.kind := by
  rw [topParts] at visited
  split at visited
  · exact size_of_mem_layClasses consistent wellFounded visited plain
  · exact size_of_mem_layFields consistent wellFounded visited plain

end Sizes

/-! ## Parts that follow each other -/

theorem le_of_mem_layFields {expand : Kind -> Shape} {cursor : Nat} {fields : List Field} {part : Part}
    (unplaced : forall field, field ∈ fields -> field.declaredOffset = none)
    (member : part ∈ layFields expand cursor fields) : cursor ≤ part.2.1 := by
  induction fields generalizing cursor with
  | nil => cases member
  | cons field rest inductionHypothesis =>
      rw [layFields, unplaced field List.mem_cons_self, Option.getD_none] at member
      rcases List.mem_cons.mp member with rfl | later
      · exact Nat.le_refl cursor
      · have bound := inductionHypothesis
          (fun other listed => unplaced other (List.mem_cons_of_mem field listed)) later
        omega

theorem successive_layFields {expand : Kind -> Shape} {fields : List Field}
    (unplaced : forall field, field ∈ fields -> field.declaredOffset = none) (cursor : Nat) :
    Successive (layFields expand cursor fields) := by
  induction fields generalizing cursor with
  | nil => exact .nil
  | cons field rest inductionHypothesis =>
      have unplacedRest := fun other listed => unplaced other (List.mem_cons_of_mem field listed)
      refine .cons (fun part later => ?_) (inductionHypothesis unplacedRest _)
      exact le_of_mem_layFields unplacedRest later

theorem le_of_mem_layClasses {c : Catalog} {expand : Kind -> Shape} {cursor : Nat} {chain : List String}
    {part : Part} (member : part ∈ c.layClasses expand cursor chain) : cursor ≤ part.2.1 := by
  induction chain generalizing cursor with
  | nil => cases member
  | cons name rest inductionHypothesis =>
      rcases List.mem_cons.mp member with rfl | later
      · exact Nat.le_refl cursor
      · have bound := inductionHypothesis later
        omega

theorem successive_layClasses (c : Catalog) (expand : Kind -> Shape) (cursor : Nat) (chain : List String) :
    Successive (c.layClasses expand cursor chain) := by
  induction chain generalizing cursor with
  | nil => exact .nil
  | cons name rest inductionHypothesis =>
      exact .cons (fun part later => le_of_mem_layClasses later) (inductionHypothesis _)

/-- No field that a kind has by value, at any depth, says where it begins. -/
def Unplaced (c : Catalog) (kind : Kind) : Prop :=
  forall inner, Relation.ReflTransGen c.Holds inner kind -> inner.structName?.isSome ->
    forall field, field ∈ c.partFields inner -> field.declaredOffset = none

theorem Unplaced.of_holds {c : Catalog} {kind inner : Kind} (unplaced : c.Unplaced kind)
    (held : c.Holds inner kind) : c.Unplaced inner :=
  fun other below => unplaced other (below.tail held)

theorem Unplaced.of_field {c : Catalog} {kind : Kind} (unplaced : c.Unplaced kind)
    (structured : kind.structName?.isSome) {field : Field} (member : field ∈ c.partFields kind) :
    c.Unplaced field.kind := by
  apply unplaced.of_holds
  rw [Holds, heldKinds_eq c structured]
  exact List.mem_map_of_mem member

/-- The values in the fields of one list follow each other, if they do so in
each field. -/
theorem pairwise_precedes_layFields {expand : Kind -> Shape} {fields : List Field}
    (unplaced : forall field, field ∈ fields -> field.declaredOffset = none)
    (each : forall field, field ∈ fields -> (expand field.kind).visits.Pairwise Visit.Precedes)
    (owner : Option String) (cursor : Nat) :
    (visitsOfParts owner (layFields expand cursor fields)).Pairwise Visit.Precedes := by
  refine (successive_layFields unplaced cursor).pairwise_precedes owner fun part listed => ?_
  rcases mem_layFields listed with ⟨field, member, offset, rfl⟩
  exact each field member

theorem pairwise_precedes_layClasses {c : Catalog} {expand : Kind -> Shape} {chain : List String}
    (unplaced : forall name, name ∈ chain -> forall field, field ∈ c.fieldsOf (.entity name) ->
      field.declaredOffset = none)
    (each : forall name, name ∈ chain -> forall field, field ∈ c.fieldsOf (.entity name) ->
      (expand field.kind).visits.Pairwise Visit.Precedes)
    (owner : Option String) (cursor : Nat) :
    (visitsOfParts owner (c.layClasses expand cursor chain)).Pairwise Visit.Precedes := by
  refine (successive_layClasses c expand cursor chain).pairwise_precedes owner fun part listed => ?_
  rcases mem_layClasses listed with ⟨name, above, offset, rfl⟩
  refine .cons (fun w _ => Visit.precedes_self_of_divided rfl _ w) ?_
  exact pairwise_precedes_layFields (unplaced name above) (each name above) _ 0

/-- In the shape of an unplaced kind values in one piece follow each other. -/
theorem Grown.pairwise_precedes {c : Catalog} {reach : Nat} {kind : Kind} {shape : Shape}
    (grown : c.Grown reach kind shape) (unplaced : c.Unplaced kind) :
    shape.visits.Pairwise Visit.Precedes := by
  have behind : forall {v : Visit} {visits : List Visit},
      (v :: visits.map Visit.behind).Pairwise Visit.Precedes := by
    intro v visits
    refine .cons (fun w listed => ?_) (List.pairwise_map.mpr ?_)
    · rcases List.mem_map.mp listed with ⟨inner, -, rfl⟩
      exact Visit.precedes_behind v inner
    · exact List.pairwise_of_forall (fun v w => Visit.precedes_behind v.behind w)
  induction grown with
  | gap reach bytes => exact .nil
  | atom reach undivided => exact List.pairwise_singleton _ _
  | @array reach element shape count divided grown inductionHypothesis =>
      have unplacedElement := unplaced.of_holds (List.mem_singleton.mpr rfl)
      rw [visits_array]
      refine .cons (fun w _ => ?_) ?_
      · exact Visit.precedes_self_of_divided (Kind.isUndivided_fixedArray divided count) _ w
      · refine (successive_elementParts shape count).pairwise_precedes none fun part listed => ?_
        rcases List.mem_map.mp listed with ⟨i, -, rfl⟩
        exact inductionHypothesis unplacedElement
  | @record reach kind expand structured held inductionHypothesis =>
      have own := unplaced kind .refl structured
      have each := fun field member =>
        inductionHypothesis field member (unplaced.of_field structured member)
      refine .cons (fun w _ => ?_) ?_
      · exact Visit.precedes_self_of_divided (Kind.isUndivided_of_structured structured) _ w
      · cases kind with
        | inlineStruct name => exact pairwise_precedes_layFields own each _ 0
        | composite name => exact pairwise_precedes_layFields own each _ 0
        | entity name =>
            exact pairwise_precedes_layClasses
              (fun ancestor above field member => own field (mem_partFields_of_ancestor above member))
              (fun ancestor above field member => each field (mem_partFields_of_ancestor above member)) _ 0
        | _ => cases structured
  | endless reach structured infinite => exact List.pairwise_singleton _ _
  | unfollowed pointer => exact List.pairwise_singleton _ _
  | followed expand leads held inductionHypothesis => exact behind
  | starred plain grown inductionHypothesis => exact behind

/-! ## Named types -/

/-- The size of a named type: the sizes of all classes in its chain if it is a
class, and of its fields if it is anything else. -/
def typeSize (c : Catalog) (name : String) : Nat :=
  if c.isClass name then
    ((c.ancestors name).map (fun ancestor => c.sizeOfFields (c.fieldsOf (.entity ancestor)))).sum
  else c.sizeOfFields (c.fieldsNamed name)

theorem extent_topParts {c : Catalog} (consistent : c.Consistent) (wellFounded : WellFounded c.Holds)
    (reach : Nat) (name : String) : extent (c.topParts reach name) = c.typeSize name := by
  have sizes : (fun kind => (c.shape reach kind).size) = fun kind => (c.shape 0 kind).size :=
    funext (size_shape consistent wellFounded reach)
  rw [topParts, typeSize]
  split
  · have total := extent_layClasses c (c.shape reach) 0 (c.ancestors name)
    simp only [sizeOfFields, extent_layFields, List.sum_eq_foldr, List.foldr_map, ← sizes]
    omega
  · rw [sizeOfFields, extent_layFields, extent_layFields, sizes]

theorem pairwise_precedes_typeVisits {c : Catalog} (consistent : c.Consistent) (reach : Nat) {name : String}
    (unplaced : forall field, field ∈ c.typeFields name ->
      field.declaredOffset = none ∧ c.Unplaced field.kind) :
    (c.typeVisits reach name).Pairwise Visit.Precedes := by
  have each := fun field member => (consistent.grown reach field.kind).pairwise_precedes (unplaced field member).2
  have own := fun field member => (unplaced field member).1
  rw [typeVisits, topParts]
  rw [typeFields] at each own
  split
  · rename_i isClass
    rw [if_pos isClass] at each own
    exact pairwise_precedes_layClasses
      (fun ancestor above field member => own field (mem_partFields_of_ancestor above member))
      (fun ancestor above field member => each field (mem_partFields_of_ancestor above member)) _ 0
  · rename_i stranger
    rw [if_neg stranger] at each own
    exact pairwise_precedes_layFields own each _ 0

/-- Of what is visited when a named type is laid out, what is recorded: the first
visit to each path. -/
def recordedVisits (c : Catalog) (reach : Nat) (name : String) : List Visit :=
  Visit.firsts (c.topPath name) (c.typeVisits reach name)

/-- Where sizes end, layouts agree with them.  The entries of a layout are the first
visits of its type to each path, which neither the root nor the memory has a part
in.  An entry that no pointer leads to is at a fixed distance from the root and, if
it is no class, ends within the size of the type.  If no field says where it begins,
entries in one piece never share a byte: each ends before the next one begins. -/
theorem typeOffsets_within_typeSize {host : Host} {document : Document} {c : Catalog}
    (loaded : load host document = .ok c) (terminates : forall kind, ∃ size, c.SizeRun kind size)
    (o : LayoutOptions) (name : String) :
    (c.recordedVisits o.reach name).Sublist (c.typeVisits o.reach name) ∧
    (forall m root, (c.typeOffsets o m root name).toList =
      (c.recordedVisits o.reach name).map (Visit.entry m (c.topPath name) root)) ∧
    (forall v, v ∈ c.recordedVisits o.reach name -> v.depth = 0 -> v.kind.isEntity = false ->
      v.offset + c.sizeOf v.kind ≤ c.typeSize name ∧
      forall m root, root ≠ 0 -> root.toNat + c.typeSize name < 2 ^ 64 ->
        (v.address m root).toNat = root.toNat + v.offset) ∧
    ((forall field, field ∈ c.typeFields name -> field.declaredOffset = none ∧ c.Unplaced field.kind) ->
      (c.recordedVisits o.reach name).Pairwise (fun v w => v.depth = 0 -> w.depth = 0 ->
        v.kind.isUndivided = true -> w.kind.isUndivided = true ->
        v.offset + c.sizeOf v.kind ≤ w.offset)) := by
  have consistent := load_consistent loaded
  have wellFounded := wellFounded_of_terminates terminates
  have within : forall v, v ∈ c.typeVisits o.reach name -> v.depth = 0 ->
      v.offset + v.size ≤ c.typeSize name := by
    intro v visited direct
    rw [← extent_topParts consistent wellFounded o.reach]
    exact offset_add_size_le_extent visited direct
  have selected := Visit.firsts_sublist (c.topPath name) (c.typeVisits o.reach name)
  refine ⟨selected, fun m root => ?_, fun v listed direct plain => ⟨?_, ?_⟩, fun unplaced => ?_⟩
  · rw [typeOffsets_eq]
    exact Visit.toList_ofEntries m _ root _
  · rw [← size_of_mem_topParts consistent wellFounded (selected.subset listed) plain]
    exact within v (selected.subset listed) direct
  · intro m root resolved fits
    have bound := within v (selected.subset listed) direct
    exact Visit.toNat_address direct m resolved (by omega)
  · have precedes := (pairwise_precedes_typeVisits consistent o.reach unplaced).sublist selected
    refine precedes.imp_of_mem fun {v w} listed _ before direct direct' undivided undivided' => ?_
    have plain := Kind.isEntity_of_isUndivided undivided
    rw [← size_of_mem_topParts consistent wellFounded (selected.subset listed) plain]
    exact before direct direct' undivided undivided'

/-- A catalog in which no field holds a class nests nothing without end. -/
theorem terminates_of_no_class_held {c : Catalog} (consistent : c.Consistent)
    (noClass : forall kind field, field ∈ c.fieldsOf kind -> field.kind.core.isEntity = false)
    (kind : Kind) : ∃ size, c.SizeRun kind size := by
  have none : forall name, ¬ c.InheritsItself name := by
    rintro name ⟨field, ⟨ancestor, -, -, member⟩, path⟩
    have below : forall inner, Relation.ReflTransGen c.Holds inner field.kind ->
        inner.core.isEntity = false := by
      intro inner path
      induction path using Relation.ReflTransGen.head_induction_on with
      | refl => exact noClass _ field member
      | @head inner outer held _ inductionHypothesis =>
          rcases holds_cases held with own | ⟨name, _, rfl, _, _⟩
          · cases own with
            | element kind count => exact inductionHypothesis
            | field record declared => exact noClass outer _ declared
          · cases inductionHypothesis
    cases below (.entity name) path
  exact ⟨_, sizeRun consistent (((holds_wellFounded_iff consistent).mpr none).apply kind)⟩

/-- An accepted document whose fields hold no class has sizes for all its kinds. -/
theorem terminates_of_no_class_filed {host : Host} {document : Document} {c : Catalog}
    (loaded : load host document = .ok c)
    (noClass : forall table, table ∈ c.tables -> forall entry, entry ∈ table ->
      forall field, field ∈ entry.2 -> field.kind.core.isEntity = false) (kind : Kind) :
    ∃ size, c.SizeRun kind size :=
  terminates_of_no_class_held (load_consistent loaded) (fun kind => forall_fieldsOf noClass kind) kind

/-- A class with a lock, two more locks and a pointer to one. -/
def doorWithLocks : Document :=
  { Document.empty with
    structs := [("Lock", [plainField "state" "State8", plainField "key" "Dword"])]
    hierarchy := [("Door", "Entity")]
    entities := [("Door", [.field (plainField "main" "Lock"),
      .field { plainField "others" "Lock" with count := some 2 },
      .field { plainField "next" "Lock" with pointer := true }])] }

/-- The catalog of that document. -/
def doorCatalog : Catalog :=
  { Catalog.empty with
    names := ⟨[], [], ["Lock"], ["Door", "Entity"]⟩
    composites := [("Lock", [⟨"state", .scalar ⟨1, .state⟩, "State8", none, none⟩,
      ⟨"key", .scalar ⟨4, .signed⟩, "Dword", none, none⟩])]
    entities := [("Door", [⟨"main", .composite "Lock", "Lock", none, none⟩,
      ⟨"others", .fixedArray (.composite "Lock") 2, "Lock", none, none⟩,
      ⟨"next", .pointerTo (.composite "Lock"), "Lock", none, none⟩]), ("Entity", [])]
    parents := [("Door", "Entity")] }

theorem load_doorWithLocks : load .standing doorWithLocks = .ok doorCatalog := by
  let c := doorCatalog
  let gathered : Gathered := ⟨[], [], []⟩
  have names : (c.tables.flatMap Table.names).Perm ["Door", "Entity", "Lock"] := by decide
  exact load_of_stages ⟨[], c.composites, gathered, gathered, gathered, rfl, rfl, rfl, rfl, rfl, rfl, rfl, rfl,
    rfl, rfl, rfl, checkEmbedding_of_perm names (by decide) rfl, rfl, rfl, rfl⟩

theorem typeOffsets_within_typeSize_at_doorWithLocks : load .standing doorWithLocks = .ok doorCatalog ∧
    (forall kind, ∃ size, doorCatalog.SizeRun kind size) ∧ doorCatalog.typeSize "Door" = 23 ∧
    (forall m root, (doorCatalog.typeOffsets {} m root "Door").toList =
      (doorCatalog.recordedVisits 8 "Door").map (Visit.entry m "" root)) ∧
    (forall v, v ∈ doorCatalog.recordedVisits 8 "Door" -> v.depth = 0 -> v.kind.isEntity = false ->
      v.offset + doorCatalog.sizeOf v.kind ≤ 23 ∧
      forall m root, root ≠ 0 -> root.toNat + 23 < 2 ^ 64 ->
        (v.address m root).toNat = root.toNat + v.offset) ∧
    (doorCatalog.recordedVisits 8 "Door").Pairwise (fun v w => v.depth = 0 -> w.depth = 0 ->
      v.kind.isUndivided = true -> w.kind.isUndivided = true ->
      v.offset + doorCatalog.sizeOf v.kind ≤ w.offset) := by
  have terminates : forall kind, ∃ size, doorCatalog.SizeRun kind size := by
    refine terminates_of_no_class_held (load_consistent load_doorWithLocks) (fun kind => ?_)
    exact forall_fieldsOf (by decide) kind
  have size : doorCatalog.typeSize "Door" = 23 := by decide
  have unplaced : forall kind field, field ∈ doorCatalog.fieldsOf kind -> field.declaredOffset = none :=
    fun kind => forall_fieldsOf (by decide) kind
  rcases typeOffsets_within_typeSize load_doorWithLocks terminates {} "Door" with
    ⟨-, recorded, within, disjoint⟩
  rw [size] at within
  refine ⟨load_doorWithLocks, terminates, size, recorded, within, disjoint fun field member => ?_⟩
  rcases mem_fieldsOf_of_mem_typeFields member with ⟨outer, own⟩
  refine ⟨unplaced outer field own, fun inner _ _ field member => ?_⟩
  rcases mem_fieldsOf_of_mem_partFields member with ⟨outer, own⟩
  exact unplaced outer field own

end Catalog
end MemoryAtlas
