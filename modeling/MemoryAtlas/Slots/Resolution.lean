import MemoryAtlas.Schema.Catalog
import MemoryAtlas.Slots.Directory

namespace MemoryAtlas

/-!
Declared virtual functions of a live object.
-/

/-- A declared function with the place where an object keeps it. -/
structure ResolvedFunction where
  function : VirtualFunction
  /-- Where the object's table has the function. -/
  slotAddress : Address
  /-- What stands there. -/
  codeAddress : Address
  /-- The slot of the directory at that place, if it has one. -/
  slot : Option Nat
  names : List String
deriving Repr, DecidableEq

/-- One function of the object whose table begins at `table`. -/
def VirtualFunction.resolve (f : VirtualFunction) (m : Memory) (table : Address) (d : Directory) :
    Except MemoryFault ResolvedFunction := do
  let slotAddress := table.shift (f.index * slotSize)
  let codeAddress <- m.readPointer slotAddress
  let slot := d.slotAt? slotAddress
  let names := (slot.map (fun i => (d.slot i).names)).getD []
  return ⟨f, slotAddress, codeAddress, slot, names⟩

/-- The functions of the object at an address, in the given order. -/
def resolveFunctions (m : Memory) (object : Address) (functions : List VirtualFunction)
    (d : Directory) : Except MemoryFault (List ResolvedFunction) := do
  let table <- m.readPointer object
  functions.mapM (fun f => f.resolve m table d)

end MemoryAtlas
