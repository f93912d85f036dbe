import MemoryAtlas.Schema.Catalog

namespace MemoryAtlas

/-!
Shapes: types with every declaration filled in.

The shape of a type is a finite tree.  It says which values the type consists
of, under which names and at which distances from each other, and which
pointers are followed to what.  It is worked out from the catalog alone;
memory comes in only when a shape is placed at an address.

Filling in declarations ends because a declaration that contains itself by
value would need infinite room.  The number of declarations bounds how many
can be nested before one comes back; a type that nests deeper has no finite
shape, and the tree marks the place where it was cut.  Following a pointer
starts the count anew and uses up one of the allowed steps instead.
-/

/-- The tree of a type. -/
inductive Shape where
  /-- Room that no entry is made for. -/
  | gap (bytes : Nat)
  /-- A value without parts of its own. -/
  | atom (kind : Kind) (size : Nat)
  /-- Equal elements one after the other. -/
  | array (kind : Kind) (element : Shape) (count : Nat)
  /-- A structure or class: named parts with their distances from its start. -/
  | record (kind : Kind) (parts : List (String × Nat × Shape))
  /-- A pointer with the parts of what it points to; none if it is not
  followed. -/
  | pointer (kind : Kind) (target : List (String × Nat × Shape))
  /-- A structure that contains itself by value. -/
  | endless (kind : Kind)
deriving Repr

/-- A named part and its distance from the start of the whole. -/
abbrev Part := String × Nat × Shape

/-- The room that a pointer takes. -/
def pointerSize : Nat := 8

/-- The room that the head of a vector takes. -/
def vectorHeadSize : Nat := 24

/-- The room that the head of a map or set takes. -/
def treeHeadSize : Nat := 16

/-- The room that the head of a text takes. -/
def stringHeadSize : Nat := 32

namespace Shape

mutual

/-- The room that a value takes, as an exact integer.  No sum and no product
wraps here; the number that the program computes is the same
where `Catalog.TotalsFit` holds. -/
def size : Shape -> Nat
  | .gap bytes => bytes
  | .atom _ size => size
  | .array _ element count => element.size * count
  | .record _ parts => extent parts
  | .pointer .. => pointerSize
  | .endless _ => 0

/-- Where the last of the parts ends. -/
def extent : List (String × Nat × Shape) -> Nat
  | [] => 0
  | (_, offset, shape) :: rest => max (offset + shape.size) (extent rest)

end

mutual

/-- Whether nothing in the tree was cut. -/
def isFinite : Shape -> Bool
  | .array _ element _ => element.isFinite
  | .record _ parts => allFinite parts
  | .pointer _ target => allFinite target
  | .endless _ => false
  | _ => true

def allFinite : List (String × Nat × Shape) -> Bool
  | [] => true
  | (_, _, shape) :: rest => shape.isFinite && allFinite rest

end

end Shape

namespace Catalog

/-- The parts of a list of fields.  A field without a declared offset follows
the one before it. -/
def layFields (expand : Kind -> Shape) : Nat -> List Field -> List Part
  | _, [] => []
  | cursor, field :: rest =>
    let shape := expand field.kind
    let start := field.declaredOffset.getD cursor
    (field.name, start, shape) :: layFields expand (start + shape.size) rest

/-- The parts of a class chain: each class under its own name, one after the
other. -/
def layClasses (c : Catalog) (expand : Kind -> Shape) : Nat -> List String -> List Part
  | _, [] => []
  | cursor, name :: rest =>
    let parts := layFields expand 0 (c.fieldsOf (.entity name))
    (name, cursor, .record (.entity name) parts)
      :: c.layClasses expand (cursor + Shape.extent parts) rest

/-- The parts of a declared kind: the whole chain of a class, the fields of
anything else. -/
def partsOf (c : Catalog) (expand : Kind -> Shape) : Kind -> List Part
  | .entity name => c.layClasses expand 0 (c.ancestors name)
  | kind => layFields expand 0 (c.fieldsOf kind)

/-- The parts of what a pointer points to.  What is no structure becomes one
part named by a star. -/
def targetParts (c : Catalog) (expand : Kind -> Shape) : Kind -> List Part
  | .ownedPointer name => c.partsOf expand (.ownedPointer name)
  | .pointerTo target =>
    if target.structName?.isSome then c.partsOf expand target
    else [("*", 0, expand target)]
  | _ => []

/-- The shape of a kind, given the shapes of declared structures and the
targets of pointers. -/
def shapeWith (record : Kind -> Shape) (target : Kind -> List Part) : Kind -> Shape
  | .scalar s => .atom (.scalar s) s.width
  | .pointerTo inner => .pointer (.pointerTo inner) (target (.pointerTo inner))
  | .ownedPointer name => .pointer (.ownedPointer name) (target (.ownedPointer name))
  | .inlineStruct name => record (.inlineStruct name)
  | .entity name => record (.entity name)
  | .composite name => record (.composite name)
  | .fixedArray element count =>
    let inner := shapeWith record target element
    if element.isScalar then .atom (.fixedArray element count) (inner.size * count)
    else .array (.fixedArray element count) inner count
  | .skip bytes => .gap bytes
  | .dynamicArray element => .atom (.dynamicArray element) vectorHeadSize
  | .orderedMap key value => .atom (.orderedMap key value) treeHeadSize
  | .foreignString width => .atom (.foreignString width) stringHeadSize
  | .slotTable owner => .atom (.slotTable owner) pointerSize

/-- The shape of a kind with at most the given number of structures nested in
each other by value. -/
def shapeWithin (c : Catalog) (target : Kind -> List Part) : Nat -> Kind -> Shape
  | 0, kind => shapeWith .endless target kind
  | depth + 1, kind =>
    shapeWith (fun inner => .record inner (c.partsOf (c.shapeWithin target depth) inner)) target kind

/-- The shape of a kind with the given number of pointers followed one behind
the other. -/
def shape (c : Catalog) : Nat -> Kind -> Shape
  | 0, kind => c.shapeWithin (fun _ => []) c.nesting kind
  | reach + 1, kind => c.shapeWithin (c.targetParts (c.shape reach)) c.nesting kind

/-- The size of a kind, as an exact integer. -/
def sizeOf (c : Catalog) (kind : Kind) : Nat :=
  (c.shape 0 kind).size

/-- The size of a list of fields laid out one after the other, as an exact
integer. -/
def sizeOfFields (c : Catalog) (fields : List Field) : Nat :=
  Shape.extent (layFields (c.shape 0) 0 fields)

/-- Kind, size and alignment of a named type. -/
structure ValueShape where
  kind : Kind
  size : Nat
  alignment : Nat
deriving Repr

/-- What a container needs to know of the type of its elements. -/
def valueShape (c : Catalog) (name : String) : Option ValueShape :=
  (c.resolve name).map (fun kind => ⟨kind, c.sizeOf kind, c.alignmentOf name⟩)

end Catalog
end MemoryAtlas
