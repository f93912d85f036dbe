import MemoryAtlas.Image.Memory
import MemoryAtlas.Types.Kind
import Std.Data.HashMap

namespace MemoryAtlas

/-!
Qualified paths and the addresses they stand for.

An offset map keeps its entries in the order in which they were recorded and
has an index from paths to positions for looking them up.  The first entry
recorded under a path stays.
-/

/-- A recorded value: where it is and what it is.  Address 0 means that the
place could not be resolved. -/
structure Entry where
  path : String
  address : Address
  kind : Kind
deriving Repr, DecidableEq

/-- The path of a part below another path; at the top the name alone. -/
def joinPath (under name : String) : String :=
  if under.isEmpty then name else under ++ "." ++ name

/-- Entries in recorded order with an index by path. -/
structure OffsetMap where
  entries : Array Entry
  index : Std.HashMap String Nat

namespace OffsetMap

/-- The map without entries. -/
def empty : OffsetMap where
  entries := #[]
  index := ∅

/-- Whether a path is recorded. -/
def contains (map : OffsetMap) (path : String) : Bool :=
  map.index.contains path

/-- Records an entry, unless its path is taken.  Says whether it did. -/
def insert (map : OffsetMap) (entry : Entry) : Bool × OffsetMap :=
  if map.contains entry.path then (false, map)
  else
    (true, { entries := map.entries.push entry
             index := map.index.insert entry.path map.entries.size })

/-- The map of a list of entries recorded one after the other. -/
def ofEntries (entries : List Entry) : OffsetMap :=
  entries.foldl (fun map entry => (map.insert entry).2) empty

/-- The entry of a path. -/
def entry? (map : OffsetMap) (path : String) : Option Entry :=
  match map.index.get? path with
  | some i => map.entries[i]?
  | none => none

/-- The address of a path. -/
def address? (map : OffsetMap) (path : String) : Option Address :=
  (map.entry? path).map Entry.address

/-- The entries in recorded order. -/
def toList (map : OffsetMap) : List Entry :=
  map.entries.toList

/-- A label for every resolved entry, below a common path. -/
def labels (map : OffsetMap) (under : String) : List (Address × String) :=
  (map.toList.filter (fun e => e.address != 0)).map (fun e => (e.address, joinPath under e.path))

end OffsetMap
end MemoryAtlas
