import MemoryAtlas.Layout.OffsetMap
import MemoryAtlas.Layout.Shape

namespace MemoryAtlas

/-!
Placing a shape at an address.

Placing goes through a shape once and gives every value in it an address.
Distances are added around the end of the address space, but nothing is ever
found below an unresolved place: from address 0 every part is at address 0.
Memory is asked only for the pointers that the shape follows, and a pointer
that cannot be read counts as 0.
-/

/-- The place `n` bytes behind a base; an unresolved base has no such place. -/
def Address.part (base : Address) (n : Nat) : Address :=
  if base = 0 then 0 else base.shift n

/-- Where the pointer at an address leads. -/
def Memory.follow (m : Memory) (a : Address) : Address :=
  if a = 0 then 0
  else
    match m.readPointer a with
    | .ok target => target
    | .error _ => 0

namespace Shape

mutual

/-- The entries of a shape placed at an address under a path. -/
def entries (m : Memory) (path : String) (a : Address) : Shape -> List Entry
  | .gap _ => []
  | .atom kind _ => [⟨path, a, kind⟩]
  | .endless kind => [⟨path, a, kind⟩]
  | .array kind element count =>
    ⟨path, a, kind⟩ ::
      (List.range count).flatMap (fun i =>
        element.entries m (joinPath path (toString i)) (Address.part a (i * element.size)))
  | .record kind parts => ⟨path, a, kind⟩ :: entriesOfParts m path a parts
  | .pointer kind target =>
    ⟨path, a, kind⟩ ::
      (if target.isEmpty then [] else entriesOfParts m path (m.follow a) target)

/-- The entries of parts of a whole that starts at an address. -/
def entriesOfParts (m : Memory) (under : String) (base : Address) :
    List (String × Nat × Shape) -> List Entry
  | [] => []
  | (name, offset, shape) :: rest =>
    shape.entries m (joinPath under name) (Address.part base offset)
      ++ entriesOfParts m under base rest

end

end Shape

/-- How far pointers are followed. -/
structure LayoutOptions where
  /-- How many pointers are followed one behind the other. -/
  pointerDepth : Nat := 8
  /-- Whether pointers are followed at all. -/
  follow : Bool := true
deriving Repr, DecidableEq

/-- The number of pointers that may be followed one behind the other. -/
def LayoutOptions.reach (o : LayoutOptions) : Nat :=
  if o.follow then o.pointerDepth else 0

namespace Catalog

/-- A list of fields laid out at a root under a path. -/
def fieldOffsets (c : Catalog) (o : LayoutOptions) (m : Memory) (root : Address) (under : String)
    (fields : List Field) : OffsetMap :=
  .ofEntries (Shape.entriesOfParts m under root (layFields (c.shape o.reach) 0 fields))

/-- A chain of classes laid out at a root under a path. -/
def chainOffsets (c : Catalog) (o : LayoutOptions) (m : Memory) (root : Address) (under : String)
    (chain : List String) : OffsetMap :=
  .ofEntries (Shape.entriesOfParts m under root (c.layClasses (c.shape o.reach) 0 chain))

/-- The fields of a named type, none if the name stands for nothing. -/
def fieldsNamed (c : Catalog) (name : String) : List Field :=
  ((c.resolve name).map c.fieldsOf).getD []

/-- A named type laid out at a root: a class with its whole chain, anything
else under its own name. -/
def typeOffsets (c : Catalog) (o : LayoutOptions) (m : Memory) (root : Address) (name : String) :
    OffsetMap :=
  if c.isClass name then c.chainOffsets o m root "" (c.ancestors name)
  else c.fieldOffsets o m root name (c.fieldsNamed name)

end Catalog
end MemoryAtlas
