import MemoryAtlas.Text.Numeral

namespace MemoryAtlas

/-!
JSON documents as trees.

A tree keeps what a consumer may want to refuse later.  Members of an object
stand in their written order, repeated names included.  A string literal whose
escapes name half a surrogate pair stands for no text.  Numbers are told apart
by how they are written: whole numbers of sixty-four bits on the one side, all
others on the other.
-/

/-- A JSON value. -/
inductive Json where
  | null
  | bool (value : Bool)
  | natural (value : Nat)
  /-- The whole number below zero whose size is given. -/
  | negative (size : Nat)
  /-- Any other number, and whether a double can hold it. -/
  | fraction (finite : Bool)
  | string (value : Option String)
  | array (items : List Json)
  | object (members : List (Option String × Json))
deriving Repr

namespace Json

/-- A string value. -/
def text (s : String) : Json :=
  .string (some s)

/-- An object with the given members. -/
def record (members : List (String × Json)) : Json :=
  .object (members.map (fun m => (some m.1, m.2)))

/-- A whole number. -/
def integer (n : Int) : Json :=
  if n < 0 then .negative n.natAbs else .natural n.toNat

/-- A value or `null`. -/
def option {α : Type} (f : α -> Json) (value : Option α) : Json :=
  value.elim .null f

/-- A list of values. -/
def list {α : Type} (f : α -> Json) (values : List α) : Json :=
  .array (values.map f)

/-- The value of the last member with a given name. -/
def member? (name : String) : Json -> Option Json
  | .object members => (members.reverse.find? (fun m => m.1 == some name)).map Prod.snd
  | _ => none

mutual

/-- How deeply arrays and objects are nested in each other. -/
def depth : Json -> Nat
  | .array items => 1 + depthItems items
  | .object members => 1 + depthMembers members
  | _ => 0

def depthItems : List Json -> Nat
  | [] => 0
  | item :: rest => max item.depth (depthItems rest)

def depthMembers : List (Option String × Json) -> Nat
  | [] => 0
  | (_, value) :: rest => max value.depth (depthMembers rest)

end

mutual

/-- Whether every literal in the tree stands for a text or a number. -/
def isSound : Json -> Bool
  | .fraction finite => finite
  | .string value => value.isSome
  | .array items => soundItems items
  | .object members => soundMembers members
  | _ => true

def soundItems : List Json -> Bool
  | [] => true
  | item :: rest => item.isSound && soundItems rest

def soundMembers : List (Option String × Json) -> Bool
  | [] => true
  | (name, value) :: rest => name.isSome && value.isSound && soundMembers rest

end

mutual

/-- The tree in which the last of several members with one name stands for all
of them. -/
def withoutRepeats : Json -> Json
  | .array items => .array (withoutRepeatsItems items)
  | .object members => .object (withoutRepeatsMembers members)
  | other => other

def withoutRepeatsItems : List Json -> List Json
  | [] => []
  | item :: rest => item.withoutRepeats :: withoutRepeatsItems rest

def withoutRepeatsMembers : List (Option String × Json) -> List (Option String × Json)
  | [] => []
  | (name, value) :: rest =>
    let later := withoutRepeatsMembers rest
    if later.any (fun m => m.1 == name) then later else (name, value.withoutRepeats) :: later

end

end Json
end MemoryAtlas
