import MemoryAtlas.Image.Pattern
import MemoryAtlas.Slots.Directory

namespace MemoryAtlas

/-!
Finding the slot table by the code that refers to it.

Somewhere in the code an instruction refers to the table by its distance from
the instruction after it.  A signature describes the bytes around such an
instruction and says where in them the distance stands.
-/

/-- The surroundings of an instruction that refers to the slot table. -/
structure Signature where
  pattern : String
  /-- Where in a match the instruction begins. -/
  instruction : Nat
  /-- Where in the instruction the distance stands, in four bytes. -/
  displacement : Nat
  /-- How long the instruction is. -/
  length : Nat
deriving Repr, DecidableEq

/-- Why a slot table could not be located. -/
inductive LocateFault where
  | pattern (fault : PatternFault)
  | memory (fault : MemoryFault)
  | slots (fault : SlotFault)
deriving Repr, DecidableEq

def LocateFault.message : LocateFault -> String
  | .pattern fault => fault.message
  | .memory fault => fault.message
  | .slots fault => fault.message

/-- An address moved by a signed distance, around the end of the address
space. -/
def Address.displace (a : Address) (distance : Int) : Address :=
  UInt64.ofNat ((a.toNat + distance) % wordCount 64).toNat

/-- The address that the first match of the signature in a range refers to. -/
def Signature.locate (s : Signature) (m : Memory) (start : Address) (size : Nat) :
    Except LocateFault Address := do
  let pattern <- (Pattern.parse s.pattern.toList).mapError .pattern
  match <- (m.findPattern start size pattern).mapError .memory with
  | none => throw (.slots (.signatureNotFound s.pattern))
  | some found =>
    let instruction := found.shift s.instruction
    let distance <- (m.readInt (instruction.shift s.displacement) 4).mapError .memory
    return (instruction.shift s.length).displace distance

end MemoryAtlas
