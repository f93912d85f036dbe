import MemoryAtlas.Image.Fault

namespace MemoryAtlas

/-!
Memory as its observers see it.

An observer can ask for a range of bytes, and whether an address is a place to
look at.  An answer has exactly the length that was asked for; that is part of
the type, so that no typed read ever meets a short answer.
-/

/-- A memory that can be read. -/
structure Memory where
  read : Address -> Nat -> Except MemoryFault (List UInt8)
  length_read : forall {a n bytes}, read a n = .ok bytes -> bytes.length = n
  /-- Whether the address points into readable memory.  A memory that knows no
  better tries to read there, and address 0 is no such place. -/
  isValid : Address -> Bool := fun a => a != 0 && (read a 1).isOk

namespace Memory

/-- The unsigned number stored in `width` bytes. -/
def readNat (m : Memory) (a : Address) (width : Nat) : Except MemoryFault Nat :=
  (m.read a width).map littleEndian

/-- The two's-complement number stored in `width` bytes. -/
def readInt (m : Memory) (a : Address) (width : Nat) : Except MemoryFault Int :=
  (m.readNat a width).map (asSigned width)

/-- The byte stored at an address. -/
def readByte (m : Memory) (a : Address) : Except MemoryFault Nat :=
  m.readNat a 1

/-- The eight-byte count or size stored at an address. -/
def readWord (m : Memory) (a : Address) : Except MemoryFault Nat :=
  m.readNat a 8

/-- The address stored at an address. -/
def readPointer (m : Memory) (a : Address) : Except MemoryFault Address :=
  (m.readNat a 8).map UInt64.ofNat

end Memory
end MemoryAtlas
