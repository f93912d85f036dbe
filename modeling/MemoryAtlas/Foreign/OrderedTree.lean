import MemoryAtlas.Layout.Shape
import MemoryAtlas.Types.Scalar

namespace MemoryAtlas

/-!
Ordered maps and sets of the observed program.

They are red-black trees with one head node.  The head is the parent of the
root, has the smallest and the largest node as its children, and stands for
every missing child.  A head holds pointers to its children and parent, a
colour and a mark that says it is the head; key and value follow at places
that depend on their alignment.  A balanced tree is never as deep as the limit
on descents, so that limit only ends walks through damaged memory.
-/

/-! ## Nodes -/

/-- The first value of a table row whose alignment is large enough, or the
last row's. -/
def alignmentRow (rows : List (Nat × Nat)) (alignment : Nat) : Nat :=
  match List.find? (fun row => max alignment 1 <= row.1) rows with
  | some row => row.2
  | none => (rows.getLast?.map Prod.snd).getD 0

/-- Where the key of a node begins, for the larger alignment of key and
value. -/
def keyOffset (alignment : Nat) : Nat :=
  alignmentRow [(2, 0x1A), (4, 0x1C), (8, 0x20)] alignment

/-- The alignment at which a value is placed: the power of two that is large
enough. -/
def valueAlignment (alignment : Nat) : Nat :=
  max (alignmentRow [(1, 1), (2, 2), (4, 4), (8, 8)] alignment) 1

/-- The least multiple of a positive alignment that is not below a number, as an
exact integer. -/
def roundUp (n alignment : Nat) : Nat :=
  (n + alignment - 1) / alignment * alignment

/-- Where key and value stand in the nodes of a tree. -/
structure NodeLayout where
  keyOffset : Nat
  keySize : Nat
  /-- The width and reading with which keys are compared. -/
  key : Scalar
  /-- Sets have no value. -/
  valueOffset : Option Nat
  valueSize : Nat
deriving Repr, DecidableEq

namespace NodeLayout

/-- The layout for a key and perhaps a value, each with size and alignment.
Offsets are exact integers.  They are the words of the program as long as the
end of the key, rounded up, is one. -/
def of (key : Scalar) (keySize keyAlignment : Nat) (value : Option (Nat × Nat)) : NodeLayout :=
  let offset := MemoryAtlas.keyOffset (max keyAlignment ((value.map Prod.snd).getD 1))
  { keyOffset := offset
    keySize := keySize
    key := key
    valueOffset := value.map (fun v => roundUp (offset + keySize) (valueAlignment v.2))
    valueSize := (value.map Prod.fst).getD 0 }

/-- The layout of a map of scalars. -/
def ofScalars (key : Scalar) (value : Option Scalar) : NodeLayout :=
  of key key.width key.width (value.map (fun s => (s.width, s.width)))

/-- The layout for named types.  Keys that are no scalars are compared as
words of at most eight bytes. -/
def ofTypes (c : Catalog) (keyType : String) (valueType : Option String) : Option NodeLayout := do
  let key <- c.valueShape keyType
  let value <-
    match valueType with
    | none => some none
    | some name => (c.valueShape name).map some
  let scalar := key.kind.scalar?.getD ⟨min (max key.size 1) 8, .unsigned⟩
  return of scalar key.size key.alignment (value.map (fun v => (v.size, v.alignment)))

end NodeLayout

/-- The greatest number of steps up or down a tree. -/
def descentLimit : Nat := 128

namespace Memory

def leftOf (m : Memory) (node : Address) : Except MemoryFault Address :=
  m.readPointer (node.shift 0)

def parentOf (m : Memory) (node : Address) : Except MemoryFault Address :=
  m.readPointer (node.shift 8)

def rightOf (m : Memory) (node : Address) : Except MemoryFault Address :=
  m.readPointer (node.shift 0x10)

/-- The colour of a node: 0 is red and 1 is black. -/
def colorOf (m : Memory) (node : Address) : Except MemoryFault Nat :=
  m.readByte (node.shift 0x18)

/-- Whether a node is marked as the head. -/
def isHead (m : Memory) (node : Address) : Except MemoryFault Bool :=
  (m.readByte (node.shift 0x19)).map (· != 0)

/-- Goes down left children to the last that is no head, on behalf of `node`. -/
def leftmost (m : Memory) (node : Address) : Nat -> Address -> Except MemoryFault Address
  | 0, _ => .error (.unreadable node .treeTooDeepBelow)
  | fuel + 1, current => do
    let left <- m.leftOf current
    if <- m.isHead left then return current else m.leftmost node fuel left

/-- Goes up while coming from a right child, on behalf of `node`, until the
head is met. -/
def firstAbove (m : Memory) (node head : Address) :
    Nat -> Address -> Address -> Except MemoryFault Address
  | 0, _, _ => .error (.unreadable node .treeTooDeepAbove)
  | fuel + 1, child, parent =>
    if parent = head then .ok parent
    else do
      let right <- m.rightOf parent
      if right != child then return parent
      else m.firstAbove node head fuel parent (<- m.parentOf parent)

/-- The next node in order.  The head follows itself. -/
def successor (m : Memory) (node : Address) : Except MemoryFault Address := do
  if <- m.isHead node then return node
  let right <- m.rightOf node
  if <- m.isHead right then
    m.firstAbove node right descentLimit node (<- m.parentOf node)
  else m.leftmost node descentLimit right

end Memory

/-! ## Trees -/

namespace NodeLayout

def keyAddress (layout : NodeLayout) (node : Address) : Address :=
  node.shift layout.keyOffset

def valueAddress (layout : NodeLayout) (node : Address) : Option Address :=
  layout.valueOffset.map node.shift

/-- The key of a node as a number. -/
def readKey (layout : NodeLayout) (m : Memory) (node : Address) : Except MemoryFault Int :=
  (m.read (layout.keyAddress node) layout.key.width).map layout.key.decode

end NodeLayout

/-- An ordered map or set whose control block is at a base. -/
structure OrderedTree where
  base : Address
  layout : NodeLayout
deriving Repr

namespace OrderedTree

/-- The number of elements that the control block claims. -/
def size (t : OrderedTree) (m : Memory) : Except MemoryFault Nat :=
  m.readWord (t.base.shift 8)

/-- The head node, which stands for the end. -/
def finish (t : OrderedTree) (m : Memory) : Except MemoryFault Address :=
  m.readPointer (t.base.shift 0)

/-- The first node in order, or the end. -/
def first (t : OrderedTree) (m : Memory) : Except MemoryFault Address := do
  m.leftOf (<- t.finish m)

def root (t : OrderedTree) (m : Memory) : Except MemoryFault Address := do
  m.parentOf (<- t.finish m)

/-- The last node in order, or the end. -/
def last (t : OrderedTree) (m : Memory) : Except MemoryFault Address := do
  m.rightOf (<- t.finish m)

def isEmpty (t : OrderedTree) (m : Memory) : Except MemoryFault Bool := do
  let first <- t.first m
  let finish <- t.finish m
  return first == finish

/-- Goes down from a node in search of a key.  A miss ends at the head, and so
does a search that goes on for too long. -/
def search (t : OrderedTree) (m : Memory) (key : Int) (head : Address) :
    Nat -> Address -> Except MemoryFault Address
  | 0, _ => .ok head
  | fuel + 1, node =>
    if node = head then .ok head
    else do
      let found <- t.layout.readKey m node
      if found = key then return node
      else if key < found then t.search m key head fuel (<- m.leftOf node)
      else t.search m key head fuel (<- m.rightOf node)

/-- The node of a key, or the end. -/
def find (t : OrderedTree) (m : Memory) (key : Int) : Except MemoryFault Address := do
  let head <- t.finish m
  t.search m key head descentLimit (<- t.root m)

def contains (t : OrderedTree) (m : Memory) (key : Int) : Except MemoryFault Bool := do
  let found <- t.find m key
  return found != (<- t.finish m)

/-- Where the value of a key is.  Misses and sets have none. -/
def valueAddressOf (t : OrderedTree) (m : Memory) (key : Int) :
    Except MemoryFault (Option Address) := do
  let found <- t.find m key
  if found = (<- t.finish m) then return none else return t.layout.valueAddress found

/-- The nodes from a node on, at most `fuel`.  Where the next node cannot be
found the reason takes the place of the node, and nothing follows. -/
def walk (m : Memory) (head : Address) : Nat -> Address -> List (Except MemoryFault Address)
  | 0, _ => []
  | fuel + 1, node =>
    if node = head then []
    else
      match m.successor node with
      | .ok next => .ok node :: walk m head fuel next
      | .error fault => [.error fault]

/-- The first nodes in order, as many as the tree claims to have and no more
than `limit`. -/
def nodes (t : OrderedTree) (m : Memory) (limit : Nat) :
    Except MemoryFault (List (Except MemoryFault Address)) := do
  let head <- t.finish m
  let first <- m.leftOf head
  let size <- t.size m
  return walk m head (min size limit) first

end OrderedTree
end MemoryAtlas
