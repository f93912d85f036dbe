import MemoryAtlas.Image.Memory
import MemoryAtlas.Text.Unicode

namespace MemoryAtlas

/-!
Texts of the observed program.

The head of a text holds its length and capacity in characters.  A text whose
capacity is small stands in the head itself, any other behind the pointer
there.  Which of the two applies follows from the capacity alone.
-/

/-- The most bytes that are ever read out of one container. -/
def readLimit : Nat := 0x100000

/-- The room for a short text inside the head, in bytes. -/
def inlineRoom : Nat := 16

/-- A text with its head at a base and characters of some width. -/
structure ForeignString where
  base : Address
  width : Nat
deriving Repr, DecidableEq

namespace ForeignString

/-- The text at a base.  Characters are at least one byte wide. -/
def of (base : Address) (width : Nat) : ForeignString :=
  ⟨base, max width 1⟩

/-- The number of characters. -/
def length (s : ForeignString) (m : Memory) : Except MemoryFault Nat :=
  m.readWord (s.base.shift 0x10)

/-- The number of characters there is room for. -/
def capacity (s : ForeignString) (m : Memory) : Except MemoryFault Nat :=
  m.readWord (s.base.shift 0x18)

def isEmpty (s : ForeignString) (m : Memory) : Except MemoryFault Bool :=
  (s.length m).map (· == 0)

/-- The largest capacity of a text inside the head; one character of the room
is for the terminator. -/
def inlineCapacity (s : ForeignString) : Nat :=
  inlineRoom / s.width - 1

def isInline (s : ForeignString) (m : Memory) : Except MemoryFault Bool :=
  (s.capacity m).map (· <= s.inlineCapacity)

/-- Where the characters are. -/
def dataAddress (s : ForeignString) (m : Memory) : Except MemoryFault Address := do
  if <- s.isInline m then return s.base.shift 0 else m.readPointer (s.base.shift 0)

/-- The bytes of the characters. -/
def bytes (s : ForeignString) (m : Memory) : Except MemoryFault (List UInt8) := do
  let size := min ((<- s.length m) * s.width) (wordCount 64 - 1)
  if size = 0 then return []
  else if readLimit < size then throw (.unreadable s.base (.implausibleLength size))
  else m.read (<- s.dataAddress m) size

/-- The characters, undecodable stretches replaced. -/
def text (s : ForeignString) (decoders : Text.Decoders) (m : Memory) : Except MemoryFault String :=
  (s.bytes m).map (if s.width = 2 then decoders.utf16 else decoders.utf8)

/-- Whether two texts are in the same place or have the same characters. -/
def equals (s t : ForeignString) (m : Memory) : Except MemoryFault Bool := do
  let here <- s.dataAddress m
  let there <- t.dataAddress m
  if here = there then return true
  let length <- s.length m
  let other <- t.length m
  if length != other then return false
  let bytes <- s.bytes m
  let others <- t.bytes m
  return bytes == others

end ForeignString
end MemoryAtlas
