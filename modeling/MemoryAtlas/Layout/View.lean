import MemoryAtlas.Layout.Difference

namespace MemoryAtlas

/-!
Views: objects under observation.

A view says where an object is, what it is laid out as and what it is compared
with.  Its gate lets one refresh through at a time.  Whoever passes the gate
holds a ticket until giving it back, and a refresh gives its own back at its
end.
-/

/-- What an observed object is laid out as. -/
inductive Target where
  /-- A named type. -/
  | struct (name : String)
  /-- A chain of classes, root first. -/
  | entity (chain : List String)
deriving Repr, DecidableEq

/-- The only reason for a refresh to fail. -/
inductive RefreshFault where
  | inFlight (address : Address)
deriving Repr, DecidableEq

def RefreshFault.message : RefreshFault -> String
  | .inFlight address => "Refresh already in flight for object at " ++ address.text

/-- The guard of an observed object. -/
structure Gate where
  inFlight : Bool
deriving Repr, DecidableEq

namespace Gate

/-- The gate that nobody holds. -/
def idle : Gate := ⟨false⟩

/-- Takes the ticket, if nobody holds it. -/
def tryBegin (g : Gate) (address : Address) : Except RefreshFault Gate :=
  if g.inFlight then .error (.inFlight address) else .ok ⟨true⟩

/-- Gives the ticket back. -/
def release (_ : Gate) : Gate := idle

end Gate

/-- An observed object. -/
structure View where
  root : Address
  target : Target
  comparisonRoot : Option Address
  gate : Gate
deriving Repr

/-- What a refresh finds. -/
structure Observation where
  offsets : OffsetMap
  comparison : Option OffsetMap
  differences : List Difference

namespace View

/-- A view of a root as a target. -/
def of (root : Address) (target : Target) : View :=
  ⟨root, target, none, .idle⟩

/-- The view of a named type. -/
def ofStruct (root : Address) (name : String) : View :=
  of root (.struct name)

/-- The view of an entity whose class follows from its name. -/
def ofEntity (root : Address) (c : Catalog) (name : String) : View :=
  of root (.entity (c.chainFor name))

/-- The view of an entity as a given class. -/
def ofClass (root : Address) (c : Catalog) (name : String) : View :=
  of root (.entity (c.ancestors name))

/-- The view with another object to compare with. -/
def comparedWith (v : View) (other : Address) : View :=
  { v with comparisonRoot := some other }

/-- The object itself laid out. -/
def offsets (v : View) (c : Catalog) (o : LayoutOptions) (m : Memory) : OffsetMap :=
  match v.target with
  | .entity chain => c.chainOffsets o m v.root "" chain
  | .struct name => c.typeOffsets o m v.root name

/-- Another object laid out as the target of the view. -/
def otherOffsets (v : View) (c : Catalog) (o : LayoutOptions) (m : Memory) (root : Address) :
    OffsetMap :=
  match v.target with
  | .entity chain => c.chainOffsets o m root comparisonPath chain
  | .struct name => c.fieldOffsets o m root (comparisonPath ++ "." ++ name) (c.fieldsNamed name)

/-- What there is to see at the moment. -/
def observe (v : View) (c : Catalog) (o : LayoutOptions) (m : Memory) : Observation :=
  let offsets := v.offsets c o m
  match v.comparisonRoot with
  | none => ⟨offsets, none, []⟩
  | some root =>
    let other := v.otherOffsets c o m root
    ⟨offsets, some other, offsets.differences other m c⟩

/-- Looks at the object again and gives the view as it is afterwards. -/
def refresh (v : View) (c : Catalog) (o : LayoutOptions) (m : Memory) :
    Except RefreshFault Observation × View :=
  match v.gate.tryBegin v.root with
  | .error fault => (.error fault, v)
  | .ok gate =>
    let busy := { v with gate := gate }
    (.ok (busy.observe c o m), { busy with gate := busy.gate.release })

end View
end MemoryAtlas
