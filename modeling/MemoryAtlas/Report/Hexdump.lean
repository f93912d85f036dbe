import MemoryAtlas.Report.Input

namespace MemoryAtlas
namespace Report

/-!
Raw bytes in rows.

A row holds sixteen bytes: its address, the bytes as digits in two groups of
eight, and the bytes as characters.  A short last row keeps its columns.
-/

/-- The bytes in a row. -/
def rowSize : Nat := 16

/-- The cell of a byte, blank past the end of the bytes. -/
def cell (bytes : List UInt8) (i : Nat) : String :=
  (if i = rowSize / 2 then " " else "") ++
    match bytes[i]? with
    | some b => Text.byteHex b ++ " "
    | none => "   "

/-- The character that stands for a byte. -/
def glyph (b : UInt8) : Char :=
  if 0x20 <= b.toNat && b.toNat < 0x7F then Char.ofNat b.toNat else '.'

/-- One row. -/
def row (a : Address) (bytes : List UInt8) : String :=
  Text.columnHex a.toNat ++ ": "
    ++ String.join ((List.range rowSize).map (cell bytes))
    ++ " |" ++ String.ofList (bytes.map glyph) ++ "|"

/-- The rows of bytes that begin at an address. -/
def rows (a : Address) (bytes : List UInt8) : List String :=
  (List.range ((bytes.length + rowSize - 1) / rowSize)).map (fun i =>
    row (a.shift (i * rowSize)) ((bytes.drop (i * rowSize)).take rowSize))

/-- The bytes of a range of memory with a heading. -/
def hexdump (m : Memory) (a : Address) (size : Nat) : Except Failure (List String) := do
  let bytes <- liftMemory (m.read a size)
  return ("Hexdump at " ++ addressText a ++ " (" ++ toString size ++ " bytes):") :: rows a bytes

end Report
end MemoryAtlas
