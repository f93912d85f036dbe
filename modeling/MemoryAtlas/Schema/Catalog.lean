import MemoryAtlas.Schema.Hierarchy
import MemoryAtlas.Types.Kind

namespace MemoryAtlas

/-!
Catalogs: what a loaded schema knows.

A catalog answers questions about names.  It never refers to the document it
was loaded from and never reads memory.
-/

/-- A virtual function and the type that declared it. -/
structure VirtualFunction where
  index : Nat
  name : String
  params : String
  returns : String
  owner : String
deriving Repr, DecidableEq

/-- A rule that gives a class to the entities whose whole name it matches. -/
structure ClassRule where
  pattern : String
  /-- Whether the compiled pattern occurs in a name. -/
  occursIn : String -> Bool
  className : String

/-- The titles of flags or states by number, in ascending order. -/
abbrev TitleTable := List (Int × String)

namespace TitleTable

/-- The table with a number bound to a title. -/
def insert (key : Int) (title : String) : TitleTable -> TitleTable
  | [] => [(key, title)]
  | (other, old) :: rest =>
    if key = other then (key, title) :: rest
    else if key < other then (key, title) :: (other, old) :: rest
    else (other, old) :: TitleTable.insert key title rest

end TitleTable

/-- The declared names by category. -/
structure TypeNames where
  pointers : List String
  inlines : List String
  structs : List String
  entities : List String
deriving Repr, DecidableEq

/-- What a type name stands for.  A standard name comes before every declared
one, and the standard names that need a field to complete them stand for
nothing alone. -/
def TypeNames.resolve (names : TypeNames) (name : String) : Option Kind :=
  match StandardType.ofName? name with
  | some (.scalar s) => some (.scalar s)
  | some .string => some (.foreignString 1)
  | some .wideString => some (.foreignString 2)
  | some _ => none
  | none =>
    if names.pointers.contains name then some (.ownedPointer name)
    else if names.inlines.contains name then some (.inlineStruct name)
    else if names.structs.contains name then some (.composite name)
    else if names.entities.contains name then some (.entity name)
    else none

/-- The types of the observed program. -/
structure Catalog where
  names : TypeNames
  composites : Table (List Field)
  pointers : Table (List Field)
  inlines : Table (List Field)
  entities : Table (List Field)
  parents : Table String
  rules : List ClassRule
  /-- `Type.field` to the name of its title table. -/
  titleNames : Table String
  titleTables : Table TitleTable
  functions : Table (List VirtualFunction)
  alignments : Table Nat

namespace Catalog

/-- The catalog before anything is loaded: it knows no declared name. -/
def empty : Catalog where
  names := ⟨[], [], [], []⟩
  composites := []
  pointers := []
  inlines := []
  entities := []
  parents := []
  rules := []
  titleNames := []
  titleTables := []
  functions := []
  alignments := []

/-- What a type name stands for. -/
def resolve (c : Catalog) (name : String) : Option Kind :=
  c.names.resolve name

/-- The fields declared for a kind.  For a class these are its own fields. -/
def fieldsOf (c : Catalog) : Kind -> List Field
  | .composite name => (c.composites.find? name).getD []
  | .ownedPointer name => (c.pointers.find? name).getD []
  | .inlineStruct name => (c.inlines.find? name).getD []
  | .entity name => (c.entities.find? name).getD []
  | _ => []

/-- Whether a name is the root class or has a parent. -/
def isClass (c : Catalog) (name : String) : Bool :=
  name == Schema.rootClass || c.parents.contains name

/-- The chain of classes from the root down to `name`. -/
def ancestors (c : Catalog) (name : String) : List String :=
  if c.isClass name then
    Schema.rootClass :: (Schema.climb c.parents Schema.chainLimit name).reverse
  else [Schema.rootClass]

/-- The class that the first fitting rule gives to an entity. -/
def classFor (c : Catalog) (entity : String) : Option String :=
  (c.rules.find? (fun rule => rule.occursIn entity)).map ClassRule.className

/-- The class chain of an entity.  Where no rule fits it is the root alone. -/
def chainFor (c : Catalog) (entity : String) : List String :=
  match c.classFor entity with
  | some className => c.ancestors className
  | none => [Schema.rootClass]

/-- The virtual functions of a type.  A class has those of all its ancestors,
root first. -/
def functionsOf (c : Catalog) (name : String) : List VirtualFunction :=
  let own := fun name => (c.functions.find? name).getD []
  if c.isClass name then (c.ancestors name).flatMap own else own name

/-- The titles registered for a field. -/
def titlesOf (c : Catalog) (typeName field : String) : Option TitleTable := do
  let table <- c.titleNames.find? (typeName ++ "." ++ field)
  c.titleTables.find? table

/-- The title of a number in the table of a field. -/
def title? (c : Catalog) (typeName field : String) (key : Int) : Option String :=
  (c.titlesOf typeName field).bind (List.lookup key)

/-- The title of a flag, flags being counted from 1. -/
def flagTitle (c : Catalog) (typeName field : String) (flag : Int) : String :=
  (c.title? typeName field flag).getD "Unknown"

/-- The title of a state. -/
def stateTitle (c : Catalog) (typeName field : String) (state : Int) : String :=
  (c.title? typeName field state).getD "UNKNOWN STATE"

/-- The alignment of types that declare none. -/
def standingAlignment : Nat := 8

/-- The alignment of a named type. -/
def alignmentOf (c : Catalog) (name : String) : Nat :=
  match c.resolve name with
  | some (.scalar s) => s.width
  | some (.ownedPointer _) => standingAlignment
  | some (.foreignString _) => standingAlignment
  | _ => (c.alignments.find? name).getD standingAlignment

def structCount (c : Catalog) : Nat :=
  c.composites.length + c.pointers.length + c.inlines.length

def classCount (c : Catalog) : Nat :=
  c.parents.length + 1

/-- How many declarations can be nested in each other by value before one of
them has to come back. -/
def nesting (c : Catalog) : Nat :=
  c.composites.length + c.inlines.length + c.entities.length

end Catalog
end MemoryAtlas
