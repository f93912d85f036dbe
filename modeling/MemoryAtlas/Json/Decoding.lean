import MemoryAtlas.Json.Value
import MemoryAtlas.Table

namespace MemoryAtlas
namespace Json

/-!
Records, lists and tables written as JSON.

A record is an object, in which unknown members are passed over and a known
one may not be repeated, or an array of its fields in order.  In a table of
names the last of several equal names counts.
-/

/-- The number of known fields with a name among the members of an object. -/
def occurrences (name : String) (members : List (Option String × Json)) : Nat :=
  (members.filter (fun m => m.1 == some name)).length

/-- The fields of a record in the order of `names`.  An array gives at least
`least` of them. -/
def recordFields (names : List String) (least : Nat) : Json -> Option (List (Option Json))
  | .object members =>
    if members.all (fun m => m.1.isSome) && names.all (fun name => occurrences name members <= 1) then
      some (names.map (fun name => (Json.object members).member? name))
    else none
  | .array items =>
    if least <= items.length && items.length <= names.length then
      some ((List.range names.length).map (fun i => items[i]?))
    else none
  | _ => none

def decodeText : Json -> Option String
  | .string value => value
  | _ => none

def decodeFlag : Json -> Option Bool
  | .bool value => some value
  | _ => none

/-- A whole number below a limit. -/
def decodeNatural (limit : Nat) : Json -> Option Nat
  | .natural n => if n < limit then some n else none
  | _ => none

def decodeList {α : Type} (decode : Json -> Option α) : Json -> Option (List α)
  | .array items => items.mapM decode
  | _ => none

def decodeTable {α : Type} (decode : Json -> Option α) : Json -> Option (Table α)
  | .object members => do
    let bindings <- members.mapM (fun m => do return (<- m.1, <- decode m.2))
    return Table.ofBindings bindings
  | _ => none

/-- A field that may be missing or `null`. -/
def optionally {α : Type} (decode : Json -> Option α) : Option Json -> Option (Option α)
  | none => some none
  | some .null => some none
  | some value => (decode value).map some

/-- A field that has a value when it is missing. -/
def otherwise {α : Type} (standing : α) (decode : Json -> Option α) : Option Json -> Option α
  | none => some standing
  | some value => decode value

/-- A field that has to be there. -/
def required {α : Type} (decode : Json -> Option α) (value : Option Json) : Option α :=
  value.bind decode

end Json
end MemoryAtlas
