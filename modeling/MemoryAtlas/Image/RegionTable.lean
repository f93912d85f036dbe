import MemoryAtlas.Image.Address
import MemoryAtlas.Text.Blank

namespace MemoryAtlas

/-!
Captured regions and the text that lists them.

A region table has one region a line: start, end, size and the offset of its
first byte in the dump, all hexadecimal.  The size column has to be there but
says nothing new.  Lines that begin with a number sign are remarks.
-/

/-- A captured stretch of memory, `first` included and `last` not. -/
structure Region where
  first : Address
  last : Address
  offset : Nat
deriving Repr, DecidableEq

namespace Region

def size (r : Region) : Nat :=
  r.last.toNat - r.first.toNat

/-- Whether `n` bytes from `a` on lie in the region. -/
def contains (r : Region) (a : Address) (n : Nat) : Bool :=
  r.first <= a && a.rangeEnd n <= r.last.toNat

end Region

/-- What can be wrong with a region table.  Lines are counted from 1. -/
inductive RegionFault where
  | shortLine (line : Nat)
  | badNumeral (line : Nat) (token : String) (cause : Text.NumeralFault)
  | emptyRegion (line : Nat) (first last : Address)
  | noRegions
  | pastEnd (first last : Address) (size : Nat)
deriving Repr, DecidableEq

def RegionFault.message : RegionFault -> String
  | .shortLine line =>
    "maps line " ++ toString line ++ ": expected `start end size file_offset`"
  | .badNumeral line token cause =>
    "maps line " ++ toString line ++ ": `" ++ token ++ "`: " ++ cause.message
  | .emptyRegion line first last =>
    "maps line " ++ toString line ++ ": empty region " ++ first.text ++ "-" ++ last.text
  | .noRegions => "maps file lists no regions"
  | .pastEnd first last size =>
    "region " ++ first.text ++ "-" ++ last.text ++ " extends past the end of the dump ("
      ++ toString size ++ " bytes)"

namespace RegionTable

/-- The digits of a table entry, without the one `0x` that may lead them. -/
def digits (token : List Char) : List Char :=
  match token with
  | '0' :: 'x' :: rest => rest
  | '0' :: 'X' :: rest => rest
  | other => other

/-- One number of a table line. -/
def readEntry (line : Nat) (token : List Char) : Except RegionFault Nat :=
  match Text.readWord 16 64 (digits token) with
  | .ok n => .ok n
  | .error cause => .error (.badNumeral line (String.ofList token) cause)

/-- The region of one line, or nothing for a blank line or a remark. -/
def readLine (line : Nat) (text : List Char) : Except RegionFault (Option Region) :=
  let text := Text.trim text
  if text.isEmpty || text.head? == some '#' then .ok none
  else
    match Text.words text with
    | first :: last :: _ :: offset :: _ => do
      let first := UInt64.ofNat (<- readEntry line first)
      let last := UInt64.ofNat (<- readEntry line last)
      let offset <- readEntry line offset
      if last <= first then .error (.emptyRegion line first last)
      else .ok (some ⟨first, last, offset⟩)
    | _ => .error (.shortLine line)

/-- The regions of a table, in the order of its lines. -/
def parse (text : String) : Except RegionFault (List Region) := do
  let found <- (Text.lines text.toList).zipIdx.mapM (fun (line, i) => readLine (i + 1) line)
  let regions := found.filterMap id
  if regions.isEmpty then .error .noRegions else .ok regions

end RegionTable
end MemoryAtlas
