import Mathlib.Data.List.Basic
import MemoryAtlas.Layout.Placement

namespace MemoryAtlas

/-!
# What a walk visits

A walk over a shape visits its values one after the other.  A visit says which
names lead to the value, which steps lead to its address, what the value is and
which declaration holds it.  All of this follows from the shape; memory and the
root come in only when the steps are taken.

`Shape.entries_eq` is the link to layouts: the entries of a shape are its
visits, with the names spelled as a path and the steps taken in memory.  What is
to be known of paths, addresses and owners can then be proved of visits, where
no memory stands in the way.
-/

/-- One step on the way to a value. -/
inductive Step where
  /-- To a part that begins some bytes further on. -/
  | on (bytes : Nat)
  /-- To where a pointer leads. -/
  | through
deriving Repr, DecidableEq

/-- Where a step leads from an address. -/
def Memory.take (m : Memory) (a : Address) : Step -> Address
  | .on bytes => Address.part a bytes
  | .through => m.follow a

/-- The distance from where the last pointer led to. -/
def Step.advance (distance : Nat) : Step -> Nat
  | .on bytes => distance + bytes
  | .through => 0

/-- A value as a walk comes to it. -/
structure Visit where
  route : List String
  steps : List Step
  kind : Kind
  /-- The room that the value takes where it stands. -/
  size : Nat
  /-- The declaration whose part the value is, with the name of the part.  What
  an array or a pointer to a plain value consists of belongs to that part too. -/
  holder : Option (String × String)
deriving Repr, DecidableEq

/-- The declaration whose parts stand below a value. -/
def Kind.declaration? : Kind -> Option String
  | .ownedPointer name => some name
  | .pointerTo target => target.structName?
  | kind => kind.structName?

namespace Visit

/-- The visit of the value that a walk begins with. -/
def self (kind : Kind) (size : Nat) : Visit :=
  ⟨[], [], kind, size, none⟩

/-- The visit as it is reached through a part of the given name and distance. -/
def part (owner : Option String) (name : String) (offset : Nat) (v : Visit) : Visit :=
  { v with
    route := name :: v.route
    steps := .on offset :: v.steps
    holder := v.holder.or (owner.map (fun declaration => (declaration, name))) }

/-- The visit as it is reached through a pointer. -/
def behind (v : Visit) : Visit :=
  { v with steps := .through :: v.steps }

/-- The route written out below a path. -/
def path (v : Visit) (under : String) : String :=
  v.route.foldl joinPath under

def address (v : Visit) (m : Memory) (a : Address) : Address :=
  v.steps.foldl m.take a

/-- What the visit records below a path, when it starts from an address. -/
def entry (m : Memory) (under : String) (a : Address) (v : Visit) : Entry :=
  ⟨v.path under, v.address m a, v.kind⟩

/-- How many pointers have been followed on the way. -/
def depth (v : Visit) : Nat :=
  v.steps.count .through

/-- The distance from the root, or from where the last pointer led to. -/
def offset (v : Visit) : Nat :=
  v.steps.foldl Step.advance 0

end Visit

namespace Shape

mutual

/-- The visits of a shape, in the order of the walk. -/
def visits : Shape -> List Visit
  | .gap _ => []
  | .atom kind size => [.self kind size]
  | .endless kind => [.self kind 0]
  | .array kind element count =>
    .self kind (element.size * count) ::
      (List.range count).flatMap (fun i =>
        element.visits.map (Visit.part none (toString i) (i * element.size)))
  | .record kind parts => .self kind (extent parts) :: visitsOfParts kind.declaration? parts
  | .pointer kind target =>
    .self kind pointerSize :: (visitsOfParts kind.declaration? target).map Visit.behind

/-- The visits of the parts of a declaration. -/
def visitsOfParts (owner : Option String) : List (String × Nat × Shape) -> List Visit
  | [] => []
  | (name, offset, shape) :: rest =>
    shape.visits.map (Visit.part owner name offset) ++ visitsOfParts owner rest

end

theorem mem_visitsOfParts {owner : Option String} {parts : List Part} {v : Visit} :
    v ∈ visitsOfParts owner parts <->
      ∃ part ∈ parts, ∃ inner ∈ part.2.2.visits, v = inner.part owner part.1 part.2.1 := by
  induction parts with
  | nil => simp [visitsOfParts]
  | cons part rest inductionHypothesis =>
      rcases part with ⟨name, offset, shape⟩
      rw [visitsOfParts, List.mem_append, inductionHypothesis, List.exists_mem_cons_iff, List.mem_map]
      simp only [eq_comm]

/-- The elements of an array are parts like any others, named by their places. -/
def elementParts (element : Shape) (count : Nat) : List Part :=
  (List.range count).map (fun i => (toString i, i * element.size, element))

theorem visits_array (kind : Kind) (element : Shape) (count : Nat) :
    (Shape.array kind element count).visits =
      .self kind (element.size * count) :: visitsOfParts none (elementParts element count) := by
  rw [visits, elementParts]
  refine congrArg (List.cons _) ?_
  induction List.range count with
  | nil => rfl
  | cons i rest inductionHypothesis =>
      rw [List.flatMap_cons, List.map_cons, visitsOfParts, inductionHypothesis]

/-- What holds between any two visits of one part, and between the visits of
any two parts, holds between any two visits. -/
theorem pairwise_visitsOfParts {Apart : Visit -> Visit -> Prop} {owner : Option String} {parts : List Part}
    (within : forall part, part ∈ parts ->
      (part.2.2.visits.map (Visit.part owner part.1 part.2.1)).Pairwise Apart)
    (between : parts.Pairwise (fun part later => forall v, v ∈ part.2.2.visits ->
      forall w, w ∈ later.2.2.visits ->
        Apart (v.part owner part.1 part.2.1) (w.part owner later.1 later.2.1))) :
    (visitsOfParts owner parts).Pairwise Apart := by
  induction parts with
  | nil => exact .nil
  | cons part rest inductionHypothesis =>
      rcases part with ⟨name, offset, shape⟩
      rcases List.pairwise_cons.mp between with ⟨first, others⟩
      rw [visitsOfParts, List.pairwise_append]
      refine ⟨within _ List.mem_cons_self, ?_, ?_⟩
      · exact inductionHypothesis (fun part member => within part (List.mem_cons_of_mem _ member)) others
      · intro v reached w after
        rcases List.mem_map.mp reached with ⟨inner, visited, rfl⟩
        rcases mem_visitsOfParts.mp after with ⟨later, listed, other, visited', rfl⟩
        exact first later listed inner visited other visited'

mutual

/-- The entries of a shape are its visits, carried out. -/
theorem entries_eq (m : Memory) (path : String) (a : Address) (shape : Shape) :
    shape.entries m path a = shape.visits.map (Visit.entry m path a) := by
  match shape with
  | .gap bytes => rfl
  | .atom kind size => rfl
  | .endless kind => rfl
  | .array kind element count =>
      rw [entries, visits, List.map_cons, List.map_flatMap]
      refine congr (congrArg List.cons rfl) (congrArg (fun f => List.flatMap f _) (funext fun i => ?_))
      rw [entries_eq m _ _ element, List.map_map]
      rfl
  | .record kind parts =>
      rw [entries, visits, List.map_cons]
      exact congr (congrArg List.cons rfl) (entriesOfParts_eq m path a kind.declaration? parts)
  | .pointer kind target =>
      have carried : (if target.isEmpty then [] else entriesOfParts m path (m.follow a) target) =
          entriesOfParts m path (m.follow a) target := by
        cases target <;> rfl
      rw [entries, visits, List.map_cons, List.map_map, carried,
        entriesOfParts_eq m path (m.follow a) kind.declaration? target]
      rfl

theorem entriesOfParts_eq (m : Memory) (under : String) (base : Address) (owner : Option String)
    (parts : List (String × Nat × Shape)) :
    entriesOfParts m under base parts = (visitsOfParts owner parts).map (Visit.entry m under base) := by
  match parts with
  | [] => rfl
  | (name, offset, shape) :: rest =>
      rw [entriesOfParts, visitsOfParts, List.map_append, List.map_map,
        entries_eq m (joinPath under name) (Address.part base offset) shape,
        entriesOfParts_eq m under base owner rest]
      rfl

end

end Shape

/-! ## Named types -/

namespace Catalog

/-- The path below which a named type is laid out: a class stands at the top
with all its ancestors, anything else stands below its own name. -/
def topPath (c : Catalog) (name : String) : String :=
  if c.isClass name then "" else name

/-- The parts that a named type is laid out as. -/
def topParts (c : Catalog) (reach : Nat) (name : String) : List Part :=
  if c.isClass name then c.layClasses (c.shape reach) 0 (c.ancestors name)
  else layFields (c.shape reach) 0 (c.fieldsNamed name)

/-- What is visited when a named type is laid out with the given number of
pointers followed one behind the other. -/
def typeVisits (c : Catalog) (reach : Nat) (name : String) : List Visit :=
  Shape.visitsOfParts (some name) (c.topParts reach name)

/-- The layout of a named type records its visits one after the other. -/
theorem typeOffsets_eq (c : Catalog) (o : LayoutOptions) (m : Memory) (root : Address) (name : String) :
    c.typeOffsets o m root name =
      .ofEntries ((c.typeVisits o.reach name).map (Visit.entry m (c.topPath name) root)) := by
  rw [typeOffsets, typeVisits, topParts, topPath]
  split
  · exact congrArg OffsetMap.ofEntries (Shape.entriesOfParts_eq m "" root (some name) _)
  · exact congrArg OffsetMap.ofEntries (Shape.entriesOfParts_eq m name root (some name) _)

end Catalog
end MemoryAtlas
