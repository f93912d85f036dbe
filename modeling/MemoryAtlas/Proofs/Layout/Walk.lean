import MemoryAtlas.Proofs.Layout.Unfolding

namespace MemoryAtlas

open Schema Shape

/-!
# Layouts as walks

A layout can be described without shapes, as a walk: record the kind that one
has arrived at, then go through its fields, its classes or its elements, and
read a pointer only to go on behind it.  One step of the walk is written here
with its recursive calls as parameters.

Where nesting is well founded the entries of a shape satisfy the equation of
the walk.  So the two descriptions agree, and what is proved about shapes is
proved about walks.
-/

/-- The place no bytes behind a base is the base, resolved or not. -/
theorem Address.part_zero (base : Address) : Address.part base 0 = base := by
  unfold Address.part
  split
  · rename_i unresolved
    exact unresolved.symm
  · exact UInt64.add_zero base

namespace Catalog

/-- What a walk records below a path, from an address on. -/
abbrev Placing := Kind -> String -> Address -> List Entry

/-- The kinds that are laid out where a pointer leads. -/
def pointedKinds (c : Catalog) : Kind -> List Kind
  | .ownedPointer name => (c.fieldsOf (.ownedPointer name)).map Field.kind
  | .pointerTo target => if target.structName?.isSome then c.heldKinds target else [target]
  | _ => []

/-! ## Steps -/

/-- The fields of a whole that begins at `base`, one after the other. -/
def walkFields (sizes : Kind -> Nat) (place : Placing) (under : String) (base : Address) :
    Nat -> List Field -> List Entry
  | _, [] => []
  | cursor, field :: rest =>
    let start := field.declaredOffset.getD cursor
    place field.kind (joinPath under field.name) (Address.part base start)
      ++ walkFields sizes place under base (start + sizes field.kind) rest

/-- The classes of a chain, each recorded under its own name. -/
def walkChain (c : Catalog) (sizes : Kind -> Nat) (place : Placing) (under : String)
    (base : Address) : Nat -> List String -> List Entry
  | _, [] => []
  | cursor, name :: rest =>
    let path := joinPath under name
    let start := Address.part base cursor
    let fields := c.fieldsOf (.entity name)
    ⟨path, start, .entity name⟩ :: walkFields sizes place path start 0 fields
      ++ walkChain c sizes place under base (cursor + fieldsEnd sizes 0 fields) rest

/-- The inside of a structure, a class or the target of an owned pointer. -/
def walkInside (c : Catalog) (sizes : Kind -> Nat) (place : Placing) (under : String)
    (base : Address) : Kind -> List Entry
  | .entity name => walkChain c sizes place under base 0 (c.ancestors name)
  | kind => walkFields sizes place under base 0 (c.fieldsOf kind)

/-- What a pointer leads to. -/
def walkTarget (c : Catalog) (sizes : Kind -> Nat) (place : Placing) (under : String)
    (base : Address) : Kind -> List Entry
  | .ownedPointer name => walkInside c sizes place under base (.ownedPointer name)
  | .pointerTo target =>
    if target.structName?.isSome then walkInside c sizes place under base target
    else place target (joinPath under "*") base
  | _ => []

/-- What a pointer leads to if it is followed. -/
def walkBehind (c : Catalog) (sizes : Kind -> Nat) (behind : Option Placing) (under : String)
    (base : Address) (kind : Kind) : List Entry :=
  match behind with
  | none => []
  | some place => walkTarget c sizes place under base kind

/-- One step of a walk.  `place` stands for what is recorded of kinds held by
value, `behind` for what is recorded behind a pointer. -/
def placeStep (c : Catalog) (m : Memory) (sizes : Kind -> Nat) (place : Placing)
    (behind : Option Placing) (kind : Kind) (path : String) (address : Address) : List Entry :=
  match kind with
  | .skip _ => []
  | .inlineStruct _ | .composite _ | .entity _ =>
    ⟨path, address, kind⟩ :: walkInside c sizes place path address kind
  | .pointerTo _ | .ownedPointer _ =>
    ⟨path, address, kind⟩ :: walkBehind c sizes behind path (m.follow address) kind
  | .fixedArray element count =>
    ⟨path, address, kind⟩ ::
      if element.isScalar then []
      else (List.range count).flatMap (fun i =>
        place element (joinPath path (toString i)) (Address.part address (i * sizes element)))
  | _ => [⟨path, address, kind⟩]

/-! ## A step depends on its recursive calls only -/

theorem walkFields_congr {sizes sizes' : Kind -> Nat} {place place' : Placing} {fields : List Field}
    (sized : forall field, field ∈ fields -> sizes field.kind = sizes' field.kind)
    (agree : forall field, field ∈ fields -> place field.kind = place' field.kind)
    (under : String) (base : Address) (cursor : Nat) :
    walkFields sizes place under base cursor fields =
      walkFields sizes' place' under base cursor fields := by
  induction fields generalizing cursor with
  | nil => rfl
  | cons field rest inductionHypothesis =>
      rw [walkFields, walkFields, agree field List.mem_cons_self, sized field List.mem_cons_self,
        inductionHypothesis (fun other member => sized other (List.mem_cons_of_mem field member))
          (fun other member => agree other (List.mem_cons_of_mem field member))]

theorem walkChain_congr {c : Catalog} {sizes sizes' : Kind -> Nat} {place place' : Placing}
    {names : List String}
    (sized : forall name, name ∈ names -> forall field, field ∈ c.fieldsOf (.entity name) ->
      sizes field.kind = sizes' field.kind)
    (agree : forall name, name ∈ names -> forall field, field ∈ c.fieldsOf (.entity name) ->
      place field.kind = place' field.kind)
    (under : String) (base : Address) (cursor : Nat) :
    c.walkChain sizes place under base cursor names =
      c.walkChain sizes' place' under base cursor names := by
  induction names generalizing cursor with
  | nil => rfl
  | cons name rest inductionHypothesis =>
      rw [walkChain, walkChain, fieldsEnd_congr (sized name List.mem_cons_self),
        walkFields_congr (sized name List.mem_cons_self) (agree name List.mem_cons_self),
        inductionHypothesis (fun other member => sized other (List.mem_cons_of_mem name member))
          (fun other member => agree other (List.mem_cons_of_mem name member))]

theorem walkInside_congr {c : Catalog} {sizes sizes' : Kind -> Nat} {place place' : Placing}
    {kind : Kind} (structured : kind.structName?.isSome)
    (sized : forall inner, inner ∈ c.heldKinds kind -> sizes inner = sizes' inner)
    (agree : forall inner, inner ∈ c.heldKinds kind -> place inner = place' inner)
    (under : String) (base : Address) :
    c.walkInside sizes place under base kind = c.walkInside sizes' place' under base kind := by
  cases kind with
  | inlineStruct name =>
      exact walkFields_congr (fun field member => sized _ (List.mem_map_of_mem member))
        (fun field member => agree _ (List.mem_map_of_mem member)) under base 0
  | composite name =>
      exact walkFields_congr (fun field member => sized _ (List.mem_map_of_mem member))
        (fun field member => agree _ (List.mem_map_of_mem member)) under base 0
  | entity name =>
      have held : forall ancestor, ancestor ∈ c.ancestors name -> forall field,
          field ∈ c.fieldsOf (.entity ancestor) -> field.kind ∈ c.heldKinds (.entity name) :=
        fun ancestor above field member =>
          List.mem_flatMap.mpr ⟨ancestor, above, List.mem_map_of_mem member⟩
      exact walkChain_congr (fun ancestor above field member => sized _ (held ancestor above field member))
        (fun ancestor above field member => agree _ (held ancestor above field member)) under base 0
  | _ => cases structured

theorem walkTarget_congr {c : Catalog} {sizes sizes' : Kind -> Nat} {place place' : Placing}
    {kind : Kind} (sized : forall inner, inner ∈ c.pointedKinds kind -> sizes inner = sizes' inner)
    (agree : forall inner, inner ∈ c.pointedKinds kind -> place inner = place' inner)
    (under : String) (base : Address) :
    c.walkTarget sizes place under base kind = c.walkTarget sizes' place' under base kind := by
  cases kind with
  | ownedPointer name =>
      exact walkFields_congr (fun field member => sized _ (List.mem_map_of_mem member))
        (fun field member => agree _ (List.mem_map_of_mem member)) under base 0
  | pointerTo target =>
      rw [walkTarget, walkTarget]
      rw [pointedKinds] at sized agree
      split
      · rename_i structured
        rw [if_pos structured] at sized agree
        exact walkInside_congr structured sized agree under base
      · rename_i plain
        rw [if_neg plain] at agree
        rw [agree target List.mem_cons_self]
  | _ => rfl

theorem placeStep_congr {c : Catalog} {m : Memory} {sizes sizes' : Kind -> Nat}
    {place place' : Placing} {behind behind' : Option Placing} {kind : Kind}
    (sized : forall inner, inner ∈ c.heldKinds kind -> sizes inner = sizes' inner)
    (agree : forall inner, inner ∈ c.heldKinds kind -> place inner = place' inner)
    (agreeBehind : forall path base,
      c.walkBehind sizes behind path base kind = c.walkBehind sizes' behind' path base kind) :
    c.placeStep m sizes place behind kind = c.placeStep m sizes' place' behind' kind := by
  funext path address
  cases kind with
  | inlineStruct name => exact congrArg (List.cons _) (walkInside_congr rfl sized agree path address)
  | composite name => exact congrArg (List.cons _) (walkInside_congr rfl sized agree path address)
  | entity name => exact congrArg (List.cons _) (walkInside_congr rfl sized agree path address)
  | pointerTo target => exact congrArg (List.cons _) (agreeBehind path (m.follow address))
  | ownedPointer name => exact congrArg (List.cons _) (agreeBehind path (m.follow address))
  | fixedArray element count =>
      rw [placeStep, placeStep, sized element List.mem_cons_self, agree element List.mem_cons_self]
  | _ => rfl

/-! ## Shapes are walks -/

/-- What a shape records. -/
def placed (c : Catalog) (m : Memory) (reach : Nat) : Placing :=
  fun kind path address => (c.shape reach kind).entries m path address

/-- What a shape records behind a pointer. -/
def placedBehind (c : Catalog) (m : Memory) : Nat -> Option Placing
  | 0 => none
  | reach + 1 => some (c.placed m reach)

theorem entries_layFields {sizes : Kind -> Nat} {expand : Kind -> Shape}
    (agree : forall kind, (expand kind).size = sizes kind) (m : Memory) (under : String)
    (base : Address) (cursor : Nat) (fields : List Field) :
    entriesOfParts m under base (layFields expand cursor fields) =
      walkFields sizes (fun kind path address => (expand kind).entries m path address)
        under base cursor fields := by
  induction fields generalizing cursor with
  | nil => rfl
  | cons field rest inductionHypothesis =>
      rw [layFields, entriesOfParts, walkFields, agree, inductionHypothesis]

theorem entries_layClasses {c : Catalog} {sizes : Kind -> Nat} {expand : Kind -> Shape}
    (agree : forall kind, (expand kind).size = sizes kind) (m : Memory) (under : String)
    (base : Address) (cursor : Nat) (names : List String) :
    entriesOfParts m under base (c.layClasses expand cursor names) =
      c.walkChain sizes (fun kind path address => (expand kind).entries m path address)
        under base cursor names := by
  have same : (fun kind => (expand kind).size) = sizes := funext agree
  induction names generalizing cursor with
  | nil => rfl
  | cons name rest inductionHypothesis =>
      rw [layClasses, entriesOfParts, walkChain, entries, entries_layFields agree,
        extent_layFields, same, inductionHypothesis]

theorem entries_partsOf {c : Catalog} {sizes : Kind -> Nat} {expand : Kind -> Shape}
    (agree : forall kind, (expand kind).size = sizes kind) (m : Memory) (under : String)
    (base : Address) (kind : Kind) :
    entriesOfParts m under base (c.partsOf expand kind) =
      c.walkInside sizes (fun kind path address => (expand kind).entries m path address)
        under base kind := by
  cases kind with
  | entity name => exact entries_layClasses agree m under base 0 _
  | _ => exact entries_layFields agree m under base 0 _

theorem entries_targetParts {c : Catalog} {sizes : Kind -> Nat} {expand : Kind -> Shape}
    (agree : forall kind, (expand kind).size = sizes kind) (m : Memory) (under : String)
    (base : Address) (kind : Kind) :
    entriesOfParts m under base (c.targetParts expand kind) =
      c.walkTarget sizes (fun kind path address => (expand kind).entries m path address)
        under base kind := by
  cases kind with
  | ownedPointer name => exact entries_partsOf agree m under base (.ownedPointer name)
  | pointerTo target =>
      rw [targetParts, walkTarget]
      split
      · exact entries_partsOf agree m under base target
      · rw [entriesOfParts, entriesOfParts, Address.part_zero, List.append_nil]
  | _ => rfl

/-- What a shape records is one step of a walk. -/
theorem placed_eq {c : Catalog} (consistent : c.Consistent) (wellFounded : WellFounded c.Holds)
    (m : Memory) (reach : Nat) (kind : Kind) :
    c.placed m reach kind =
      c.placeStep m c.sizeOf (c.placed m reach) (c.placedBehind m reach) kind := by
  have agree := size_shape consistent wellFounded reach
  have pointer : forall (target : List Part) (path : String) (base : Address),
      (if target.isEmpty then [] else entriesOfParts m path base target) =
        entriesOfParts m path base target := by
    intro target path base
    cases target <;> rfl
  have behind : forall (path : String) (base : Address),
      entriesOfParts m path base (c.targetsAt reach kind) =
        c.walkBehind c.sizeOf (c.placedBehind m reach) path base kind := by
    intro path base
    cases reach with
    | zero => rfl
    | succ reach => exact entries_targetParts (size_shape consistent wellFounded reach) m path base kind
  funext path address
  rw [placed, shape_eq consistent (wellFounded.apply kind)]
  cases kind with
  | inlineStruct name => exact congrArg (List.cons _) (entries_partsOf agree m path address _)
  | composite name => exact congrArg (List.cons _) (entries_partsOf agree m path address _)
  | entity name => exact congrArg (List.cons _) (entries_partsOf agree m path address _)
  | pointerTo target =>
      rw [shapeWith, entries, pointer, behind]
      rfl
  | ownedPointer name =>
      rw [shapeWith, entries, pointer, behind]
      rfl
  | fixedArray element count =>
      rw [shapeWith, ← shape_eq consistent (wellFounded.apply element), placeStep]
      by_cases scalar : element.isScalar = true
      · simp only [scalar, if_true, entries]
      · simp only [scalar, if_false, entries, agree, Bool.false_eq_true]
        rfl
  | _ => rfl

end Catalog
end MemoryAtlas
