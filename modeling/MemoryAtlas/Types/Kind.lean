import MemoryAtlas.Types.Standard

namespace MemoryAtlas

/-!
Kinds: what a field holds.

The composite kinds carry the name of their declaration only, so a kind is
finite whatever the declarations say about each other.
-/

/-- What one field of a structure holds. -/
inductive Kind where
  | scalar (s : Scalar)
  /-- A pointer that the field marks as one. -/
  | pointerTo (target : Kind)
  /-- A value of a declared pointer type. -/
  | ownedPointer (name : String)
  | inlineStruct (name : String)
  | entity (name : String)
  /-- A structure that is neither a pointer type nor an inline one. -/
  | composite (name : String)
  | fixedArray (element : Kind) (count : Nat)
  | skip (bytes : Nat)
  | dynamicArray (element : String)
  | orderedMap (key : String) (value : Option String)
  | foreignString (width : Nat)
  /-- The address of a function table, with the type it belongs to. -/
  | slotTable (owner : String)
deriving Repr, DecidableEq

namespace Kind

/-- The declaration that a kind embeds as it stands. -/
def structName? : Kind -> Option String
  | .inlineStruct name | .entity name | .composite name => some name
  | _ => none

/-- The declaration that a kind embeds, also when it embeds several copies. -/
def embeddedName? : Kind -> Option String
  | .fixedArray element _ => element.embeddedName?
  | kind => kind.structName?

def scalar? : Kind -> Option Scalar
  | .scalar s => some s
  | _ => none

def isScalar (k : Kind) : Bool :=
  k.scalar?.isSome

/-- The written form of a kind. -/
def text : Kind -> String
  | .scalar s => s.text
  | .pointerTo target => target.text ++ "*"
  | .ownedPointer name => name ++ "*"
  | .inlineStruct name | .composite name => name
  | .entity name => "entity " ++ name
  | .fixedArray element count => element.text ++ "[" ++ toString count ++ "]"
  | .skip bytes => "skip " ++ toString bytes
  | .dynamicArray element => "vector<" ++ element ++ ">"
  | .orderedMap key (some value) => "map<" ++ key ++ ", " ++ value ++ ">"
  | .orderedMap key none => "set<" ++ key ++ ">"
  | .foreignString width => if width == 1 then "string" else "wstring"
  | .slotTable owner => "vtable<" ++ owner ++ ">"

end Kind

/-- One field of a structure. -/
structure Field where
  name : String
  kind : Kind
  /-- The type name as it was declared. -/
  typeName : String
  /-- The distance from the start of the structure, if it was declared. -/
  declaredOffset : Option Nat
  comment : Option String
deriving Repr, DecidableEq

end MemoryAtlas
