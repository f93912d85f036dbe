import MemoryAtlas.Image.Memory
import MemoryAtlas.Image.RegionTable

namespace MemoryAtlas

/-!
A dump seen as a memory.

The dump is one row of bytes and the regions say which addresses its parts
were captured from.  The first region in the table that holds a whole range
answers for it.  Writing changes the row of bytes in this value only.
-/

/-- A captured memory. -/
structure Snapshot where
  data : Array UInt8
  regions : List Region
deriving Repr

/-- Why a dump could not be opened. -/
inductive FileFault where
  | notFound
  | regions (fault : RegionFault)
deriving Repr, DecidableEq

def FileFault.reason : FileFault -> String
  | .notFound => "No such file or directory (os error 2)"
  | .regions fault => fault.message

def FileFault.message (fault : FileFault) : String :=
  "IO error: " ++ fault.reason

namespace Snapshot

/-- The snapshot of one region that starts at an address. -/
def ofRegion (base : Address) (data : Array UInt8) : Snapshot where
  data := data
  regions := [⟨base, base.shift data.size, 0⟩]

/-- The snapshot of a dump with a region table.  Both files have to exist, and
every region has to lie inside the dump. -/
def ofFiles (dump : Option (Array UInt8)) (table : Option String) : Except FileFault Snapshot :=
  match dump, table with
  | none, _ => .error .notFound
  | some _, none => .error .notFound
  | some data, some table =>
    match RegionTable.parse table with
    | .error fault => .error (.regions fault)
    | .ok regions =>
      match regions.find? (fun r => data.size < min (r.offset + r.size) (wordCount 64 - 1)) with
      | some r => .error (.regions (.pastEnd r.first r.last data.size))
      | none => .ok ⟨data, regions⟩

/-- The snapshot of a dump that was captured as one region at an address. -/
def ofFlatFile (dump : Option (Array UInt8)) (base : Address) : Except FileFault Snapshot :=
  match dump with
  | none => .error .notFound
  | some data => .ok (ofRegion base data)

/-- The start of the lowest region. -/
def base (s : Snapshot) : Address :=
  (s.regions.map Region.first).min?.getD 0

/-- Where in the dump a range of memory is kept.  A region that ends at the last
address also holds ranges that reach beyond it, and so past the end of the dump.
Taking such a slice is a panic of the program; here the range counts as not
captured, for reading and for writing. -/
def position? (s : Snapshot) (a : Address) (n : Nat) : Option Nat :=
  match s.regions.find? (fun r => r.contains a n) with
  | none => none
  | some r =>
    let start := r.offset + (a.toNat - r.first.toNat)
    if start + n <= s.data.size then some start else none

/-- The bytes of a range of memory. -/
def read (s : Snapshot) (a : Address) (n : Nat) : Except MemoryFault (List UInt8) :=
  match s.position? a n with
  | none => .error (.unreadable a (.notCaptured n))
  | some start => .ok (s.data.extract start (start + n)).toList

/-- The snapshot with a range of memory replaced. -/
def write (s : Snapshot) (a : Address) (bytes : List UInt8) : Except MemoryFault Snapshot :=
  match s.position? a bytes.length with
  | none => .error (.unwritable a bytes.length)
  | some start =>
    .ok { s with data := s.data.extract 0 start ++ bytes.toArray
                   ++ s.data.extract (start + bytes.length) s.data.size }

/-- The snapshot with a number of `width` bytes stored at an address. -/
def writeNat (s : Snapshot) (a : Address) (width n : Nat) : Except MemoryFault Snapshot :=
  s.write a (toLittleEndian width n)

theorem position?_le {s : Snapshot} {a : Address} {n start : Nat}
    (h : s.position? a n = some start) : start + n <= s.data.size := by
  unfold position? at h
  split at h
  · cases h
  · dsimp only at h
    split at h
    · cases h; assumption
    · cases h

theorem length_read {s : Snapshot} {a : Address} {n : Nat} {bytes : List UInt8}
    (h : s.read a n = .ok bytes) : bytes.length = n := by
  unfold read at h
  split at h
  · cases h
  · rename_i start found
    have := position?_le found
    cases h
    simp
    omega

/-- The snapshot as a memory to read from. -/
def memory (s : Snapshot) : Memory where
  read := s.read
  length_read := length_read

end Snapshot
end MemoryAtlas
