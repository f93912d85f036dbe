import Mathlib
import MemoryAtlas.Proofs.Layout.Walk

namespace MemoryAtlas

open Schema Shape

/-!
# Which catalogs can be laid out

A run is a finished recursion: every call that a step makes has a run of its
own.  Runs are inductive, so a recursion that comes back to where it started
has none.

For a loaded catalog every size and every walk has a run precisely if no class
is held by a field that it inherits.  The memory has no part in the answer.  A
pointer uses up one of the pointers that may be followed, so a cycle in memory
ends; what does not end is a class inside its own ancestor, which the search at
loading time does not look for.
-/

namespace Catalog

/-- A finished computation of the size of a kind. -/
inductive SizeRun (c : Catalog) : Kind -> Nat -> Prop where
  | intro {kind : Kind} (sizes : Kind -> Nat)
      (sized : forall inner, inner ∈ c.heldKinds kind -> SizeRun c inner (sizes inner)) :
      SizeRun c kind (c.sizeStep sizes kind)

/-- A finished walk of a kind, from every path and address on, with the given
number of pointers that may be followed one behind the other. -/
inductive PlaceRun (c : Catalog) (m : Memory) :
    Nat -> Kind -> (String -> Address -> List Entry) -> Prop where
  | last {kind : Kind} (sizes : Kind -> Nat) (place : Placing)
      (sized : forall inner, inner ∈ c.heldKinds kind -> SizeRun c inner (sizes inner))
      (placed : forall inner, inner ∈ c.heldKinds kind -> PlaceRun c m 0 inner (place inner)) :
      PlaceRun c m 0 kind (c.placeStep m sizes place none kind)
  | onward {reach : Nat} {kind : Kind} (sizes : Kind -> Nat) (place behind : Placing)
      (sized : forall inner, inner ∈ c.heldKinds kind -> SizeRun c inner (sizes inner))
      (placed : forall inner, inner ∈ c.heldKinds kind ->
        PlaceRun c m (reach + 1) inner (place inner))
      (sizedBehind : forall inner, inner ∈ c.pointedKinds kind -> SizeRun c inner (sizes inner))
      (placedBehind : forall inner, inner ∈ c.pointedKinds kind ->
        PlaceRun c m reach inner (behind inner)) :
      PlaceRun c m (reach + 1) kind (c.placeStep m sizes place (some behind) kind)

/-- A size that is computed at all is computed to one number. -/
theorem SizeRun.unique {c : Catalog} {kind : Kind} {first second : Nat}
    (one : c.SizeRun kind first) (other : c.SizeRun kind second) : first = second := by
  induction one generalizing second with
  | intro sizes sized inductionHypothesis =>
      cases other with
      | intro sizes' sized' =>
          exact sizeStep_congr (fun inner held => inductionHypothesis inner held (sized' inner held))

/-- A walk that ends at all ends with one list of entries. -/
theorem PlaceRun.unique {c : Catalog} {m : Memory} {reach : Nat} {kind : Kind}
    {first second : String -> Address -> List Entry} (one : c.PlaceRun m reach kind first)
    (other : c.PlaceRun m reach kind second) : first = second := by
  induction one generalizing second with
  | last sizes place sized placed inductionHypothesis =>
      cases other with
      | last sizes' place' sized' placed' =>
          exact placeStep_congr (fun inner held => (sized inner held).unique (sized' inner held))
            (fun inner held => inductionHypothesis inner held (placed' inner held))
            (fun path base => rfl)
  | onward sizes place behind sized placed sizedBehind placedBehind heldHypothesis behindHypothesis =>
      cases other with
      | onward sizes' place' behind' sized' placed' sizedBehind' placedBehind' =>
          exact placeStep_congr (fun inner held => (sized inner held).unique (sized' inner held))
            (fun inner held => heldHypothesis inner held (placed' inner held))
            (walkTarget_congr
              (fun inner pointed => (sizedBehind inner pointed).unique (sizedBehind' inner pointed))
              (fun inner pointed => behindHypothesis inner pointed (placedBehind' inner pointed)))

theorem SizeRun.accessible {c : Catalog} {kind : Kind} {size : Nat} (run : c.SizeRun kind size) :
    Acc c.Holds kind := by
  induction run with
  | intro sizes sized inductionHypothesis => exact Acc.intro _ inductionHypothesis

theorem PlaceRun.accessible {c : Catalog} {m : Memory} {reach : Nat} {kind : Kind}
    {place : String -> Address -> List Entry} (run : c.PlaceRun m reach kind place) :
    Acc c.Holds kind := by
  induction run with
  | last sizes place sized placed inductionHypothesis => exact Acc.intro _ inductionHypothesis
  | onward sizes place behind sized placed sizedBehind placedBehind inductionHypothesis _ =>
      exact Acc.intro _ inductionHypothesis

theorem wellFounded_of_terminates {c : Catalog} (terminates : forall kind, ∃ size, c.SizeRun kind size) :
    WellFounded c.Holds := by
  refine ⟨fun kind => ?_⟩
  rcases terminates kind with ⟨size, run⟩
  exact run.accessible

/-- A class that inherits itself is not accessible, so nothing about it ends. -/
theorem not_accessible_of_inheritsItself {c : Catalog} {name : String}
    (inherits : c.InheritsItself name) : ¬ Acc c.Holds (.entity name) := by
  rcases inherits with ⟨field, inherited, path⟩
  have cycle := Relation.TransGen.tail' path (holds_of_inherited inherited)
  exact fun accessible => not_transGen_self_of_acc accessible cycle

/-! ## Where runs exist -/

theorem sizeRun {c : Catalog} (consistent : c.Consistent) {kind : Kind} (accessible : Acc c.Holds kind) :
    c.SizeRun kind (c.sizeOf kind) := by
  induction accessible with
  | intro kind below inductionHypothesis =>
      rw [sizeOf_eq_of_acc consistent (.intro kind below)]
      exact .intro c.sizeOf inductionHypothesis

/-- A finished computation of a size arrives at the size. -/
theorem SizeRun.eq_sizeOf {c : Catalog} (consistent : c.Consistent) {kind : Kind} {size : Nat}
    (run : c.SizeRun kind size) : size = c.sizeOf kind :=
  run.unique (sizeRun consistent run.accessible)

theorem placeRun {c : Catalog} (consistent : c.Consistent) (wellFounded : WellFounded c.Holds)
    (m : Memory) (reach : Nat) (kind : Kind) : c.PlaceRun m reach kind (c.placed m reach kind) := by
  induction reach generalizing kind with
  | zero =>
      induction kind using wellFounded.induction with
      | _ kind held =>
        rw [placed_eq consistent wellFounded]
        exact .last c.sizeOf (c.placed m 0) (fun inner _ => sizeRun consistent (wellFounded.apply inner)) held
  | succ reach behind =>
      induction kind using wellFounded.induction with
      | _ kind held =>
        rw [placed_eq consistent wellFounded]
        exact .onward c.sizeOf (c.placed m (reach + 1)) (c.placed m reach)
          (fun inner _ => sizeRun consistent (wellFounded.apply inner)) held
          (fun inner _ => sizeRun consistent (wellFounded.apply inner)) (fun inner _ => behind inner)

/-- Every size and every layout of the catalog is the result of a run. -/
structure Ends (c : Catalog) : Prop where
  sizes : forall kind size, c.SizeRun kind size <-> size = c.sizeOf kind
  fieldSizes : forall fields, c.sizeOfFields fields = fieldsEnd c.sizeOf 0 fields
  valueSizes : forall name shape, c.valueShape name = some shape -> c.SizeRun shape.kind shape.size
  walks : forall m reach kind place, c.PlaceRun m reach kind place <-> place = c.placed m reach kind
  fieldWalks : forall o m root under fields, c.fieldOffsets o m root under fields =
    .ofEntries (walkFields c.sizeOf (c.placed m o.reach) under root 0 fields)
  chainWalks : forall o m root under chain, c.chainOffsets o m root under chain =
    .ofEntries (c.walkChain c.sizeOf (c.placed m o.reach) under root 0 chain)

theorem Consistent.ends {c : Catalog} (consistent : c.Consistent)
    (wellFounded : WellFounded c.Holds) : c.Ends where
  sizes := by
    intro kind size
    have run := sizeRun consistent (wellFounded.apply kind)
    exact ⟨fun other => other.eq_sizeOf consistent, fun same => same ▸ run⟩
  fieldSizes := fun fields => extent_layFields (c.shape 0) 0 fields
  valueSizes := by
    intro name shape found
    rcases Option.map_eq_some_iff.mp found with ⟨kind, -, rfl⟩
    exact sizeRun consistent (wellFounded.apply kind)
  walks := by
    intro m reach kind place
    have run := placeRun consistent wellFounded m reach kind
    exact ⟨fun other => other.unique run, fun same => same ▸ run⟩
  fieldWalks := fun o m root under fields => congrArg OffsetMap.ofEntries
    (entries_layFields (size_shape consistent wellFounded o.reach) m under root 0 fields)
  chainWalks := fun o m root under chain => congrArg OffsetMap.ofEntries
    (entries_layClasses (size_shape consistent wellFounded o.reach) m under root 0 chain)

theorem Ends.wellFounded {c : Catalog} (ends : c.Ends) : WellFounded c.Holds :=
  ⟨fun kind => ((ends.sizes kind _).mpr rfl).accessible⟩

/-- Of the catalogs that loading accepts, those in which no class is held by a
field that it inherits are the ones whose sizes and layouts all end, whatever
the memory holds.  In any other the size of such a class has no run, and neither
has its layout. -/
theorem ends_iff_none_inheritsItself {host : Host} {document : Document} {c : Catalog}
    (loaded : load host document = .ok c) :
    (WellFounded c.Holds <-> forall name, ¬ c.InheritsItself name) ∧
    (c.Ends <-> forall name, ¬ c.InheritsItself name) ∧
    forall name, c.InheritsItself name ->
      (forall size, ¬ c.SizeRun (.entity name) size) ∧
      forall m reach place, ¬ c.PlaceRun m reach (.entity name) place := by
  have consistent := load_consistent loaded
  have wellFounded := holds_wellFounded_iff consistent
  refine ⟨wellFounded, ⟨fun ends => wellFounded.mp ends.wellFounded, fun none => ?_⟩, ?_⟩
  · exact consistent.ends (wellFounded.mpr none)
  · intro name inherits
    have stuck := not_accessible_of_inheritsItself inherits
    exact ⟨fun size run => stuck run.accessible, fun m reach place run => stuck run.accessible⟩

/-- The declaration of a field that holds one value of a named type. -/
def plainField (name typeName : String) : FieldDecl where
  name := name
  typeName := typeName
  comment := none
  pointer := false
  offset := none
  declaredOffset := none
  count := none
  flags := none
  states := none
  titles := none
  keyType := none
  valueType := none
  elementType := none
  functions := none

/-- A class whose parent holds it: `Door` is a `Room`, and every room has a
door. -/
def doorInRoom : Document :=
  { Document.empty with
    hierarchy := [("Door", "Room"), ("Room", "Entity")]
    entities := [("Room", [.field (plainField "door" "Door")])] }

/-- The same house with the door behind a wall of its own: nothing inherits
itself, and doors are counted. -/
def doorInHouse : Document :=
  { Document.empty with
    hierarchy := [("Door", "Room"), ("House", "Room"), ("Room", "Entity")]
    entities := [("House", [.field { plainField "doors" "Door" with count := some 2 }]),
      ("Room", [.field (plainField "area" "Dword")])] }

theorem ends_iff_at_doorInHouse : ∃ c, load .standing doorInHouse = .ok c ∧
    (c.Ends <-> forall name, ¬ c.InheritsItself name) := by
  cases loaded : load .standing doorInHouse with
  | ok c => exact ⟨c, rfl, (ends_iff_none_inheritsItself loaded).2.1⟩
  | error fault =>
      have accepted : (load .standing doorInHouse).isOk = true := by cbv
      rw [loaded] at accepted
      cases accepted

/-- Loading accepts a class that its own parent holds, and neither its size nor
its layout ends. -/
theorem accepted_not_wellFounded : ∃ c, load .standing doorInRoom = .ok c ∧
    ¬ WellFounded c.Holds ∧ (forall size, ¬ c.SizeRun (.entity "Door") size) ∧
    forall m reach place, ¬ c.PlaceRun m reach (.entity "Door") place := by
  let c : Catalog :=
    { Catalog.empty with
      names := ⟨[], [], [], ["Door", "Entity", "Room"]⟩
      entities := [("Door", []), ("Entity", []), ("Room", [⟨"door", .entity "Door", "Door", none, none⟩])]
      parents := [("Door", "Room"), ("Room", "Entity")] }
  have loaded : load .standing doorInRoom = .ok c := by cbv
  have inherits : c.InheritsItself "Door" := by
    refine ⟨⟨"door", .entity "Door", "Door", none, none⟩, ⟨"Room", ?_, by decide, ?_⟩, .refl⟩
    · decide
    · decide
  have stuck := not_accessible_of_inheritsItself inherits
  exact ⟨c, loaded, fun wellFounded => stuck (wellFounded.apply _),
    fun size run => stuck run.accessible, fun m reach place run => stuck run.accessible⟩

end Catalog
end MemoryAtlas
