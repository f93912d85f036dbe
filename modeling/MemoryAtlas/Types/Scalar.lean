import MemoryAtlas.Image.Memory

namespace MemoryAtlas

/-!
Scalars: values that fit into one machine word.

A scalar is a width in bytes and a reading of those bytes.  The integer that a
scalar stores is decoded low byte first and, for the signed readings, as two's
complement of the stored width.
-/

/-- A table of the observed program that identifiers point into. -/
inductive IdTable where
  | entityDb
  | entityUid
  | particleDb
  | textureDb
  | stringsTable
  | characterDb
deriving Repr, DecidableEq

namespace IdTable

def all : List IdTable :=
  [.entityDb, .entityUid, .particleDb, .textureDb, .stringsTable, .characterDb]

def name : IdTable -> String
  | .entityDb => "EntityDb"
  | .entityUid => "EntityUid"
  | .particleDb => "ParticleDb"
  | .textureDb => "TextureDb"
  | .stringsTable => "StringsTable"
  | .characterDb => "CharacterDb"

end IdTable

/-- How the bytes of a scalar are read. -/
inductive Reading where
  | signed
  | unsigned
  | float
  | bool
  /-- Bit flags, each with a title of its own. -/
  | flags
  /-- One of a list of states, each with a title. -/
  | state
  | foreignId (table : IdTable)
  | char16
  | ipv4
  /-- An address that is shown but never followed. -/
  | address
deriving Repr, DecidableEq

namespace Reading

/-- The word for a reading.  An identifier says which table it points into. -/
def name : Reading -> String
  | .signed => "Signed"
  | .unsigned => "Unsigned"
  | .float => "Float"
  | .bool => "Bool"
  | .flags => "Flags"
  | .state => "State"
  | .foreignId table => "ForeignId(" ++ table.name ++ ")"
  | .char16 => "Char16"
  | .ipv4 => "Ipv4"
  | .address => "Address"

/-- The readings that take no table. -/
def plain : List Reading :=
  [.signed, .unsigned, .float, .bool, .flags, .state, .char16, .ipv4, .address]

/-- Whether negative values are possible. -/
def isSigned : Reading -> Bool
  | .signed | .state => true
  | .foreignId table => table == .entityUid || table == .textureDb
  | _ => false

end Reading

/-- A width in bytes and a reading. -/
structure Scalar where
  width : Nat
  reading : Reading
deriving Repr, DecidableEq

namespace Scalar

def isSigned (s : Scalar) : Bool :=
  s.reading.isSigned

/-- The integer stored in the first bytes.  At most eight bytes take part. -/
def decode (s : Scalar) (bytes : List UInt8) : Int :=
  let bytes := bytes.take (min s.width 8)
  let raw := littleEndian bytes
  if s.isSigned && !bytes.isEmpty then asSigned bytes.length raw else raw

/-- The written form: the reading and the width in bits. -/
def text (s : Scalar) : String :=
  s.reading.name ++ toString (s.width * 8)

end Scalar
end MemoryAtlas
