import MemoryAtlas.Schema.Fault
import MemoryAtlas.Schema.Host
import MemoryAtlas.Table

namespace MemoryAtlas
namespace Schema

/-!
Class hierarchies.

A hierarchy gives each class a parent.  An entry that names a class as its own
parent says nothing.  Every class has to reach the root, or a class without a
parent, within a fixed number of steps and without passing a class twice.
-/

/-- The class at the start of every chain. -/
def rootClass : String := "Entity"

/-- The greatest number of classes in a chain, the root not counted. -/
def chainLimit : Nat := 32

/-- The entries that say something. -/
def parentsOf (hierarchy : Table String) : Table String :=
  hierarchy.filter (fun entry => entry.1 != entry.2)

/-- The first entry whose parent is neither the root nor a class. -/
def strayEntry? (hierarchy : Table String) : Option (String × String) :=
  List.find? (fun entry => entry.2 != rootClass && !hierarchy.contains entry.2)
    (parentsOf hierarchy)

/-- Follows the parents of `className` upward from `current`, having passed the
classes in `seen` and with `left` steps to go. -/
def checkChain (parents : Table String) (className : String) :
    Nat -> List String -> String -> Except Fault Unit
  | left, seen, current =>
    if current = rootClass then .ok ()
    else if seen.contains current then .error (.cyclicHierarchy className)
    else
      match left with
      | 0 => .error (.hierarchyTooDeep className chainLimit)
      | left + 1 =>
        match parents.find? current with
        | none => .ok ()
        | some parent => checkChain parents className left (current :: seen) parent

/-- The parents of a well-formed hierarchy.  The classes are looked at in the
given order. -/
def checkHierarchy (order : VisitingOrder) (hierarchy : Table String) :
    Except Fault (Table String) := do
  match strayEntry? hierarchy with
  | some (className, parent) => throw (.unknownParent className parent)
  | none =>
    let parents := parentsOf hierarchy
    for className in order.arrange parents.names do
      checkChain parents className chainLimit [] className
    return parents

/-- The classes from `current` upward, the root left out, at most `fuel`. -/
def climb (parents : Table String) : Nat -> String -> List String
  | 0, _ => []
  | fuel + 1, current =>
    if current = rootClass then []
    else
      current ::
        match parents.find? current with
        | none => []
        | some parent => climb parents fuel parent

end Schema
end MemoryAtlas
