import MemoryAtlas.Proofs.Layout.Extent
import MemoryAtlas.Proofs.Layout.Standing
import MemoryAtlas.Proofs.Layout.Uniform

namespace MemoryAtlas

open Schema Shape

/-!
# Unresolved places

Address 0 stands for a place that was not found, and no step leads away from it:
nothing is counted on from there, and no pointer is read there.  So what is laid
out at address 0 stays there as a whole.  The same holds below a pointer that
leads nowhere, because its own place was not found, because it cannot be read or
because it holds 0.

The walk takes no notice of any of this.  It goes the same way over every memory
and from every address, and records the same paths; only the addresses beside
them differ.
-/

/-- No place is found behind the pointer at an address: there is no such
address, it cannot be read, or a null pointer is stored there. -/
def Memory.LeadsNowhere (m : Memory) (a : Address) : Prop :=
  a = 0 ∨ (∃ fault, m.readPointer a = .error fault) ∨ m.readPointer a = .ok 0

theorem Memory.follow_eq_zero_iff {m : Memory} {a : Address} : m.follow a = 0 <-> m.LeadsNowhere a := by
  unfold follow LeadsNowhere
  by_cases unresolved : a = 0
  · simp [unresolved]
  · cases stored : m.readPointer a <;> simp [unresolved]

theorem Memory.follow_of_readPointer {m : Memory} {a target : Address} (resolved : a ≠ 0)
    (stored : m.readPointer a = .ok target) : m.follow a = target := by
  rw [follow, if_neg resolved, stored]

/-- A pointer that leads somewhere can be read. -/
theorem Memory.readPointer_of_follow_ne_zero {m : Memory} {a : Address} (leads : m.follow a ≠ 0) :
    m.readPointer a = .ok (m.follow a) := by
  have somewhere := mt follow_eq_zero_iff.mpr leads
  cases stored : m.readPointer a with
  | error fault => exact absurd (.inr (.inl ⟨fault, stored⟩)) somewhere
  | ok target => rw [follow_of_readPointer (fun unresolved => somewhere (.inl unresolved)) stored]

/-- No step leads away from address 0. -/
theorem Memory.take_zero (m : Memory) (step : Step) : m.take 0 step = 0 := by
  cases step <;> rfl

namespace Visit

/-- From address 0 every value is at address 0. -/
theorem address_zero (v : Visit) (m : Memory) : v.address m 0 = 0 :=
  List.foldl_fixed' m.take_zero v.steps

/-- The way to a value goes through a pointer: it goes on where the pointer leads. -/
structure Behind (pointer v : Visit) : Prop where
  isPointer : pointer.kind.isPointer = true
  route : ∃ names, v.route = pointer.route ++ names
  steps : ∃ steps, v.steps = pointer.steps ++ .through :: steps

theorem Behind.address_eq {pointer v : Visit} {steps : List Step}
    (onward : v.steps = pointer.steps ++ .through :: steps) (m : Memory) (root : Address) :
    v.address m root = steps.foldl m.take (m.follow (pointer.address m root)) := by
  rw [address, onward, List.foldl_append]
  rfl

theorem Behind.address_eq_zero {pointer v : Visit} (behind : pointer.Behind v) {m : Memory}
    {root : Address} (nowhere : m.LeadsNowhere (pointer.address m root)) : v.address m root = 0 := by
  rcases behind.steps with ⟨steps, onward⟩
  rw [address_eq onward, Memory.follow_eq_zero_iff.mpr nowhere]
  exact List.foldl_fixed' m.take_zero steps

end Visit

namespace Catalog

/-- What can be laid out: any list of fields and any chain of classes below a
path, and whatever a name stands for. -/
inductive Subject where
  | ofFields (under : String) (fields : List Field)
  | ofChain (under : String) (chain : List String)
  | ofName (name : String)

namespace Subject

def under (c : Catalog) : Subject -> String
  | .ofFields under _ | .ofChain under _ => under
  | .ofName name => c.topPath name

def parts (c : Catalog) (reach : Nat) : Subject -> List Part
  | .ofFields _ fields => layFields (c.shape reach) 0 fields
  | .ofChain _ chain => c.layClasses (c.shape reach) 0 chain
  | .ofName name => c.topParts reach name

/-- The layout of a subject. -/
def offsets (c : Catalog) (o : LayoutOptions) (m : Memory) (root : Address) : Subject -> OffsetMap
  | .ofFields under fields => c.fieldOffsets o m root under fields
  | .ofChain under chain => c.chainOffsets o m root under chain
  | .ofName name => c.typeOffsets o m root name

/-- What is visited while a subject is laid out. -/
def visits (c : Catalog) (reach : Nat) (subject : Subject) : List Visit :=
  visitsOfParts none (subject.parts c reach)

theorem offsets_eq (c : Catalog) (o : LayoutOptions) (m : Memory) (root : Address) (subject : Subject) :
    subject.offsets c o m root =
      .ofEntries ((subject.visits c o.reach).map (Visit.entry m (subject.under c) root)) := by
  rw [visits, ← entriesOfParts_eq]
  cases subject with
  | ofFields under fields => rfl
  | ofChain under chain => rfl
  | ofName name =>
      rw [offsets, typeOffsets, under, topPath, parts, topParts]
      split <;> rfl

/-- What is recorded of it: the first visit to each path. -/
def recorded (c : Catalog) (reach : Nat) (subject : Subject) : List Visit :=
  Visit.firsts (subject.under c) (subject.visits c reach)

theorem recorded_sublist (c : Catalog) (reach : Nat) (subject : Subject) :
    (subject.recorded c reach).Sublist (subject.visits c reach) :=
  Visit.firsts_sublist _ _

/-- A layout records the same visits over every memory and at every root. -/
theorem toList_offsets (c : Catalog) (o : LayoutOptions) (m : Memory) (root : Address) (subject : Subject) :
    (subject.offsets c o m root).toList =
      (subject.recorded c o.reach).map (Visit.entry m (subject.under c) root) := by
  rw [offsets_eq]
  exact Visit.toList_ofEntries m _ root _

end Subject

theorem placed_eq_visits (c : Catalog) (m : Memory) (reach : Nat) (kind : Kind) (path : String)
    (a : Address) :
    c.placed m reach kind path a = (c.shape reach kind).visits.map (Visit.entry m path a) :=
  entries_eq m path a _

/-- Unresolved places stay unresolved.  A walk of a kind ends over every memory.
At address 0 it records nothing but address 0; from a pointer that leads nowhere
everything behind the pointer is at 0; and the recorded paths depend neither on
the memory nor on the address.  The same is true of whole layouts, which record the
first visit to each path, and there of everything that is recorded behind a pointer,
however deep it stands. -/
theorem unresolved_stays_unresolved {host : Host} {document : Document} {c : Catalog}
    (loaded : load host document = .ok c)
    (terminates : forall kind, ∃ size, c.SizeRun kind size) :
    (forall m reach kind, ∃ place, c.PlaceRun m reach kind place ∧
      (forall path entry, entry ∈ place path 0 -> entry.address = 0) ∧
      (forall path a, kind.isPointer = true -> m.LeadsNowhere a ->
        forall entry, entry ∈ (place path a).tail -> entry.address = 0) ∧
      forall m' place', c.PlaceRun m' reach kind place' -> forall path a a',
        (place path a).map Entry.path = (place' path a').map Entry.path) ∧
    forall (subject : Subject) (o : LayoutOptions),
      (forall m entry, entry ∈ (subject.offsets c o m 0).toList -> entry.address = 0) ∧
      (forall m m' root root', (subject.offsets c o m root).toList.map Entry.path =
        (subject.offsets c o m' root').toList.map Entry.path) ∧
      (subject.recorded c o.reach).Sublist (subject.visits c o.reach) ∧
      (forall m root, (subject.offsets c o m root).toList =
        (subject.recorded c o.reach).map (Visit.entry m (subject.under c) root)) ∧
      forall m root v pointer, v ∈ subject.recorded c o.reach -> pointer ∈ subject.visits c o.reach ->
        pointer.Behind v -> m.LeadsNowhere (pointer.address m root) -> v.address m root = 0 := by
  have consistent := load_consistent loaded
  have wellFounded := wellFounded_of_terminates terminates
  refine ⟨fun m reach kind => ?_, fun subject o => ?_⟩
  · have run := placeRun consistent wellFounded m reach kind
    refine ⟨c.placed m reach kind, run, fun path entry member => ?_, fun path a pointer nowhere entry member => ?_,
      fun m' place' run' path a a' => ?_⟩
    · rw [placed_eq_visits] at member
      rcases List.mem_map.mp member with ⟨v, -, rfl⟩
      exact v.address_zero m
    · rw [placed_eq_visits, shape_of_isPointer consistent pointer, visits, List.map_cons, List.tail_cons,
        List.map_map] at member
      rcases List.mem_map.mp member with ⟨v, -, rfl⟩
      show v.address m (m.follow a) = 0
      rw [Memory.follow_eq_zero_iff.mpr nowhere, v.address_zero]
    · rw [run'.unique (placeRun consistent wellFounded m' reach kind), placed_eq_visits, placed_eq_visits,
        List.map_map, List.map_map]
      rfl
  · refine ⟨fun m entry member => ?_, fun m m' root root' => ?_, subject.recorded_sublist c o.reach,
      fun m root => subject.toList_offsets c o m root,
      fun m root v pointer _ _ behind nowhere => behind.address_eq_zero nowhere⟩
    · rw [subject.toList_offsets] at member
      rcases List.mem_map.mp member with ⟨v, -, rfl⟩
      exact v.address_zero m
    · rw [subject.toList_offsets, subject.toList_offsets, List.map_map, List.map_map]
      rfl

theorem doorCatalog_terminates : forall kind, ∃ size, doorCatalog.SizeRun kind size :=
  terminates_of_no_class_filed load_doorWithLocks (by decide)

/-- At the end of a memory of eight bytes, the pointer of a door to its next lock
cannot be read. -/
theorem unresolved_stays_unresolved_at_doorWithLocks : load .standing doorWithLocks = .ok doorCatalog ∧
    (forall kind, ∃ size, doorCatalog.SizeRun kind size) ∧
    (∃ place, doorCatalog.PlaceRun selfPointer 8 (.pointerTo (.composite "Lock")) place ∧
      forall path entry, entry ∈ (place path 0x1f).tail -> entry.address = 0) ∧
    forall m entry, entry ∈ (doorCatalog.typeOffsets {} m 0 "Door").toList -> entry.address = 0 := by
  have nowhere : selfPointer.LeadsNowhere 0x1f := Memory.follow_eq_zero_iff.mp (by decide)
  rcases unresolved_stays_unresolved load_doorWithLocks doorCatalog_terminates with ⟨kinds, layouts⟩
  rcases kinds selfPointer 8 (.pointerTo (.composite "Lock")) with ⟨place, run, -, behind, -⟩
  exact ⟨load_doorWithLocks, doorCatalog_terminates,
    ⟨place, run, fun path => behind path 0x1f rfl nowhere⟩, (layouts (.ofName "Door") {}).1⟩

end Catalog
end MemoryAtlas
