import MemoryAtlas.Layout.Placement

namespace MemoryAtlas

/-!
Differences between two objects of one shape.

Two offset maps are joined by path.  Of the values that occur in both, those
that are read as they stand are compared byte by byte.  A value that cannot be
read differs from every value that can.
-/

/-- The path under which a second object is laid out. -/
def comparisonPath : String := "comparison"

/-- A value whose bytes differ. -/
structure Difference where
  path : String
  first : Address
  second : Address
  firstBytes : Option (List UInt8)
  secondBytes : Option (List UInt8)
deriving Repr, DecidableEq

/-- Whether values of a kind are compared by their own bytes. -/
def Kind.isLeaf : Kind -> Bool
  | .scalar _ | .pointerTo _ | .ownedPointer _ | .slotTable _ => true
  | .fixedArray element _ => element.isScalar
  | _ => false

/-- The bytes of a resolved range that can be read. -/
def Memory.bytes? (m : Memory) (a : Address) (n : Nat) : Option (List UInt8) :=
  if a = 0 then none else (m.read a n).toOption

/-- The entry for a path in the map of a second object. -/
def OffsetMap.counterpart? (map : OffsetMap) (path : String) : Option Entry :=
  (map.entry? path).orElse (fun _ => map.entry? (comparisonPath ++ "." ++ path))

/-- The difference at one entry, if there is one. -/
def differenceAt (m : Memory) (c : Catalog) (other : OffsetMap) (e : Entry) : Option Difference :=
  if e.kind.isLeaf then
    match other.counterpart? e.path with
    | none => none
    | some twin =>
      let size := c.sizeOf e.kind
      let firstBytes := m.bytes? e.address size
      let secondBytes := m.bytes? twin.address size
      if firstBytes = secondBytes then none
      else some ⟨e.path, e.address, twin.address, firstBytes, secondBytes⟩
  else none

/-- The differences between two objects, in the order of the first. -/
def OffsetMap.differences (map other : OffsetMap) (m : Memory) (c : Catalog) : List Difference :=
  map.toList.filterMap (differenceAt m c other)

end MemoryAtlas
