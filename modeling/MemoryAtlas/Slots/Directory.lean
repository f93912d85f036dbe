import MemoryAtlas.Image.Memory

namespace MemoryAtlas

/-!
The directory of function slots.

The observed program keeps the addresses of its virtual functions in one flat
table of slots.  The directory holds a copy of the table together with the
names known for each slot: names that came with the load, and names that an
observer has attached since.
-/

/-- Names known for code addresses before anything is attached. -/
abbrev Symbols := Address -> Option String

/-- A slot: what it holds and what it is called. -/
structure Slot where
  number : Nat
  value : Address
  /-- Whether the stored address can be read. -/
  isValid : Bool
  /-- Whether a name came with the load. -/
  isImported : Bool
  /-- The names in ascending order, each once. -/
  names : List String
deriving Repr, DecidableEq

/-- The slot that stands for no slot. -/
def Slot.none : Slot :=
  ⟨0, 0, false, false, []⟩

/-- A name added to names in ascending order. -/
def insertName (name : String) : List String -> List String
  | [] => [name]
  | other :: rest =>
    if name = other then other :: rest
    else if name < other then name :: other :: rest
    else other :: insertName name rest

/-- Why a slot table could not be loaded. -/
inductive SlotFault where
  | emptyTable (start : Address) (count : Nat)
  | unreadable (fault : MemoryFault)
  | signatureNotFound (pattern : String)
deriving Repr, DecidableEq

def SlotFault.message (fault : SlotFault) : String :=
  "Failed to load virtual table: " ++
    match fault with
    | .emptyTable start count => "empty table at " ++ start.text ++ " (" ++ toString count ++ " slots)"
    | .unreadable fault => fault.message
    | .signatureNotFound pattern => "signature `" ++ pattern ++ "` not found"

/-- The room that a slot takes. -/
def slotSize : Nat := 8

/-- A copy of the slot table; empty while nothing is loaded. -/
structure Directory where
  start : Address
  slots : Array Slot
deriving Repr, DecidableEq

namespace Directory

/-- The directory before any load. -/
def empty : Directory :=
  ⟨0, #[]⟩

/-- A row of bytes in eights. -/
def words : List UInt8 -> List (List UInt8)
  | a :: b :: c :: d :: e :: f :: g :: h :: rest => [a, b, c, d, e, f, g, h] :: words rest
  | _ => []

/-- A slot as it is after a load. -/
def loadSlot (m : Memory) (symbols : Symbols) (number : Nat) (bytes : List UInt8) : Slot :=
  let value := UInt64.ofNat (littleEndian bytes)
  let isValid := m.isValid value
  match isValid, symbols value with
  | true, some name => ⟨number, value, true, true, [name]⟩
  | _, _ => ⟨number, value, isValid, false, []⟩

/-- The directory of the table of `count` slots that begins at `start`. -/
def load (m : Memory) (start : Address) (count : Nat) (symbols : Symbols) :
    Except SlotFault Directory :=
  if start = 0 || count = 0 then .error (.emptyTable start count)
  else
    match m.read start (count * slotSize) with
    | .error fault => .error (.unreadable fault)
    | .ok bytes =>
      .ok ⟨start, ((words bytes).zipIdx.map (fun (w, i) => loadSlot m symbols i w)).toArray⟩

def isLoaded (d : Directory) : Bool :=
  !d.slots.isEmpty

def size (d : Directory) : Nat :=
  d.slots.size

/-- The slot of a number, or the slot that stands for none. -/
def slot (d : Directory) (number : Nat) : Slot :=
  d.slots[number]?.getD .none

/-- Where a slot of some number is, 0 while nothing is loaded. -/
def addressOf (d : Directory) (s : Slot) : Address :=
  if d.isLoaded then d.start.shift (s.number * slotSize) else 0

/-- The number of the slot at exactly this address. -/
def slotAt? (d : Directory) (a : Address) : Option Nat :=
  if d.isLoaded && d.start <= a then
    let distance := a.toNat - d.start.toNat
    if distance % slotSize = 0 && distance / slotSize < d.size then some (distance / slotSize)
    else none
  else none

/-- The numbers of the slots that hold an address, in ascending order. -/
def slotsHolding (d : Directory) (value : Address) : List Nat :=
  (d.slots.toList.filter (fun s => s.value == value)).map Slot.number

/-- The directory with a name attached to the slot at an address, if there is
one.  An imported slot stays imported. -/
def attach? (d : Directory) (a : Address) (name : String) : Option Directory :=
  (d.slotAt? a).map (fun i =>
    { d with slots := d.slots.modify i (fun s => { s with names := insertName name s.names }) })

/-- Whether a slot points at code and has a name that an observer gave it. -/
def isLabeled (s : Slot) : Bool :=
  s.isValid && !s.isImported && !s.names.isEmpty

/-- The labeled slot with the greatest number from `number` down to 1. -/
def labeledBelow (d : Directory) : Nat -> Slot
  | 0 => .none
  | number + 1 =>
    match d.slots[number + 1]? with
    | some s => if isLabeled s then s else d.labeledBelow number
    | none => d.labeledBelow number

/-- The nearest labeled slot at or below a number.  Slot 0 is never looked
at. -/
def nearestLabeled (d : Directory) (number : Nat) : Slot :=
  d.labeledBelow (min number (d.size - 1))

end Directory
end MemoryAtlas
