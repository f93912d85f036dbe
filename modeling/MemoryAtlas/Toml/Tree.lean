import MemoryAtlas.Json.Value

namespace MemoryAtlas
namespace Toml

/-!
Configuration trees under construction.

A table may be opened once by a header, or grow through dotted keys; it may not
be both.  Headers open the tables above theirs without defining them, so those
can still be defined later.  A name in a header that stands for a list of
tables means the last table of the list.
-/

/-- A node of a configuration. -/
inductive Node where
  | value (json : Json)
  /-- A table.  `implicit` until a header defines it, `dotted` if it grew
  through dotted keys. -/
  | table (implicit dotted : Bool) (members : List (String × Node))
  /-- A list of tables, the last one first. -/
  | tables (last : List (String × Node)) (before : List (List (String × Node)))

/-- The members of a table. -/
abbrev Members := List (String × Node)

/-- The members with a name bound to a node, in its old place if it had one. -/
def Members.bind (name : String) (node : Node) (members : Members) : Members :=
  if members.any (fun m => m.1 == name) then
    members.map (fun m => if m.1 == name then (name, node) else m)
  else members ++ [(name, node)]

/-- Changes the members of the table that a path leads to.  The change also
sees whether that table grew through dotted keys.  Tables on the way that do
not exist are made, `dotted` or not as the path is. -/
def alter (dotted : Bool) (change : Bool -> Members -> Option Members) :
    List String -> Bool -> Members -> Option Members
  | [], isDotted, members => change isDotted members
  | name :: path, _, members =>
    match members.lookup name with
    | none => (alter dotted change path dotted []).map (fun inner =>
        Members.bind name (.table true dotted inner) members)
    | some (.value _) => none
    | some (.tables last before) => (alter dotted change path false last).map (fun inner =>
        Members.bind name (.tables inner before) members)
    | some (.table implicit isDotted inner) =>
      if dotted && !implicit then none
      else (alter dotted change path isDotted inner).map (fun inner =>
        Members.bind name (.table implicit isDotted inner) members)

/-- Binds a new name in a table.  A path of several names has to end in a
table that grew through dotted keys, a single name in one that did not. -/
def define (path : List String) (node : Node) (members : Members) : Option Members :=
  match path.reverse with
  | [] => none
  | name :: above =>
    alter true (fun isDotted members =>
        if isDotted == above.isEmpty then none
        else if members.any (fun m => m.1 == name) then none
        else some (members ++ [(name, node)]))
      above.reverse false members

/-- Opens the table of a header. -/
def openTable (path : List String) (members : Members) : Option Members :=
  match path.reverse with
  | [] => none
  | name :: above =>
    alter false (fun _ members =>
        match members.lookup name with
        | none => some (members ++ [(name, .table false false [])])
        | some (.table true false inner) => some (Members.bind name (.table false false inner) members)
        | _ => none)
      above.reverse false members

/-- Opens a new table at the end of the list of a header. -/
def openNext (path : List String) (members : Members) : Option Members :=
  match path.reverse with
  | [] => none
  | name :: above =>
    alter false (fun _ members =>
        match members.lookup name with
        | none => some (members ++ [(name, .tables [] [])])
        | some (.tables last before) => some (Members.bind name (.tables [] (last :: before)) members)
        | _ => none)
      above.reverse false members

/-- Binds a name in the table of a header. -/
def defineIn (header path : List String) (node : Node) (members : Members) : Option Members :=
  alter false (fun _ members => define path node members) header false members

mutual

/-- The finished value of a node. -/
def Node.toJson : Node -> Json
  | .value json => json
  | .table _ _ members => .object (membersToJson members)
  | .tables last before => .array (tablesToJson before ++ [.object (membersToJson last)])

def membersToJson : List (String × Node) -> List (Option String × Json)
  | [] => []
  | (name, node) :: rest => (some name, node.toJson) :: membersToJson rest

def tablesToJson : List (List (String × Node)) -> List Json
  | [] => []
  | members :: before => tablesToJson before ++ [.object (membersToJson members)]

end

end Toml
end MemoryAtlas
