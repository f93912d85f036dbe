import MemoryAtlas.Foreign.ForeignString

namespace MemoryAtlas

/-!
Vectors of the observed program.

The head of a vector holds the addresses where its elements begin, where they
end and where its room ends.  A head whose limits are reversed or too far
apart is not believed.
-/

/-- A vector with its head at a base and elements of some size. -/
structure ForeignVector where
  base : Address
  elementSize : Nat
deriving Repr, DecidableEq

namespace ForeignVector

def begin (v : ForeignVector) (m : Memory) : Except MemoryFault Address :=
  m.readPointer (v.base.shift 0)

def finish (v : ForeignVector) (m : Memory) : Except MemoryFault Address :=
  m.readPointer (v.base.shift 8)

/-- The number of elements between the beginning and the limit that the head
holds at an offset.  There are no elements without size. -/
def spanLength (v : ForeignVector) (m : Memory) (offset : Nat) : Except MemoryFault Nat :=
  if v.elementSize = 0 then .ok 0
  else do
    let first <- v.begin m
    let last <- m.readPointer (v.base.shift offset)
    let span := last.toNat - first.toNat
    if last < first || readLimit < span then
      throw (.unreadable v.base (.implausibleSpan first last))
    else return span / v.elementSize

/-- The number of elements. -/
def length (v : ForeignVector) (m : Memory) : Except MemoryFault Nat :=
  v.spanLength m 8

/-- The number of elements there is room for. -/
def capacity (v : ForeignVector) (m : Memory) : Except MemoryFault Nat :=
  v.spanLength m 0x10

def isEmpty (v : ForeignVector) (m : Memory) : Except MemoryFault Bool := do
  let first <- v.begin m
  let last <- v.finish m
  return first == last

/-- Where an element is, if there is one of that number. -/
def elementAddress (v : ForeignVector) (m : Memory) (i : Nat) :
    Except MemoryFault (Option Address) := do
  if (<- v.length m) <= i then return none
  else return some ((<- v.begin m).shift (i * v.elementSize))

/-- The addresses of the first elements, at most `limit` of them. -/
def elements (v : ForeignVector) (m : Memory) (limit : Nat) : Except MemoryFault (List Address) := do
  let first <- v.begin m
  let length <- v.length m
  return (List.range (min length limit)).map (fun i => first.shift (i * v.elementSize))

end ForeignVector
end MemoryAtlas
