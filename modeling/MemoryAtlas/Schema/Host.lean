import MemoryAtlas.Regex.Automaton

namespace MemoryAtlas
namespace Schema

/-!
What loading takes from outside the library.

The patterns of the class rules are left to an engine, and the names that are
kept in unordered sets are met in an order that nobody chooses.  Which fault of
a document with several is reported depends on that order, and so does which of
two titles registered under one path stays.
-/

/-- An order in which the members of an unordered set are visited. -/
structure VisitingOrder where
  arrange : List String -> List String
  perm : forall names, (arrange names).Perm names

/-- The order that the names are kept in. -/
def VisitingOrder.ascending : VisitingOrder :=
  ⟨id, fun _ => .refl _⟩

/-- The engine for patterns, and the orders in which the classes and those of
them with a parent are visited. -/
structure Host where
  engine : Regex.Engine
  classes : VisitingOrder
  parents : VisitingOrder

/-- The host that the program runs on. -/
def Host.standing : Host :=
  ⟨Regex.engine, .ascending, .ascending⟩

end Schema
end MemoryAtlas
