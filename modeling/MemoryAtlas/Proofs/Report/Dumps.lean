import Mathlib.Algebra.Order.Floor.Div
import MemoryAtlas.Proofs.Report.Spellings
import MemoryAtlas.Proofs.Sequence
import MemoryAtlas.Report.Hexdump

namespace MemoryAtlas
namespace Report

/-!
# What the rows of a dump show

A row has three columns.  The first one ends at the colon and the second one at the first
bar, because an address has no colon in it and cells have no bar.  The third one goes on to
the end of the row and can have bars in it: a byte can be one.

Nothing is lost in this form.  The address of a row can be read from its first column and
the bytes from its second one, whether the row is full or not.  Missing cells are as wide
as the others, so only the width of the address moves the third column.
-/

theorem rowSize_eq : rowSize = 16 :=
  rfl

/-! ## Reading a row -/

/-- What stands in front of the first colon. -/
def addressColumn (row : String) : List Char :=
  row.toList.takeWhile (· != ':')

/-- What stands between the first colon and the first bar. -/
def digitColumn (row : String) : List Char :=
  ((row.toList.dropWhile (· != ':')).drop 1).takeWhile (· != '|')

/-- The place behind the first bar. -/
def textPlace (row : String) : Nat :=
  row.toList.idxOf '|' + 1

/-- The byte that two digits stand for. -/
def readByte (digits : List Char) : Except Text.NumeralFault UInt8 :=
  (Text.readWord 16 8 digits).map UInt8.ofNat

theorem readByte_byteHex (b : UInt8) : readByte (Text.byteHex b).toList = .ok b := by
  rw [readByte, Text.readWord_byteHex]
  simp [Except.map]

/-! ## Cutting at a character -/

section Cut

variable {c : Char} {front : List Char} (absent : c ∉ front) (rest : List Char)
include absent

theorem bne_of_mem_front (d : Char) (member : d ∈ front) : (d != c) = true :=
  bne_iff_ne.mpr fun same => absent (same ▸ member)

theorem takeWhile_front : (front ++ c :: rest).takeWhile (· != c) = front := by
  rw [List.takeWhile_append_of_pos (bne_of_mem_front absent)]
  simp

theorem dropWhile_front : (front ++ c :: rest).dropWhile (· != c) = c :: rest := by
  rw [List.dropWhile_append_of_pos (bne_of_mem_front absent)]
  simp

theorem idxOf_front : (front ++ c :: rest).idxOf c = front.length := by
  rw [List.idxOf_append_of_notMem absent, List.idxOf_cons_self, Nat.add_zero]

end Cut

/-! ## Cells -/

section Cells

variable (bytes : List UInt8)

theorem toList_cell (i : Nat) : (cell bytes i).toList = (if i = rowSize / 2 then [' '] else []) ++
    bytes[i]?.elim [' ', ' ', ' '] fun b => (Text.byteHex b).toList ++ [' '] := by
  rw [cell, String.toList_append]
  congr 1
  · split <;> rfl
  · cases bytes[i]? with
    | none => rfl
    | some b => exact String.toList_append

/-- A cell is as wide without its byte as with it. -/
theorem length_cell (i : Nat) : (cell bytes i).toList.length = if i = rowSize / 2 then 4 else 3 := by
  rw [toList_cell, List.length_append]
  cases bytes[i]? <;> split <;> simp [Text.length_byteHex]

/-- Cells consist of digits and spaces. -/
theorem not_mem_cell {c : Char} (noDigit : Text.digitValue? 16 c = none) (other : c ≠ ' ') (i : Nat) :
    c ∉ (cell bytes i).toList := by
  have digits (b : UInt8) : c ∉ (Text.byteHex b).toList :=
    (Text.spells_byteHex b).not_mem (by decide) (by decide) noDigit
  rw [toList_cell]
  cases bytes[i]? <;> split <;> simp [digits, other]

/-- A cell with its byte adds one word, and an empty one none. -/
theorem words_cell (i : Nat) (rest : List Char) : Text.words ((cell bytes i).toList ++ rest) =
    (bytes[i]?.toList.map fun b => (Text.byteHex b).toList) ++ Text.words rest := by
  have space : Text.isBlank ' ' = true := by decide
  have gap : Text.Blank (if i = rowSize / 2 then [' '] else []) := by
    split <;> decide
  rw [toList_cell, List.append_assoc, Text.words_append_of_blank gap]
  cases bytes[i]? with
  | none =>
      have blank : Text.Blank [' ', ' ', ' '] := by decide
      exact Text.words_append_of_blank blank rest
  | some b =>
      have spells := Text.spells_byteHex b
      have solid : Text.Solid (Text.byteHex b).toList := spells.solid (by decide) (by decide)
      rw [Option.elim_some, List.append_assoc]
      exact Text.words_append_cons solid spells.ne_nil space rest

/-- The cells of a row with a space in front and one behind. -/
def cells : List Char :=
  ' ' :: ((List.range rowSize).flatMap (fun i => (cell bytes i).toList) ++ [' '])

theorem length_cells : (cells bytes).length = 51 := by
  rw [cells, List.length_cons, List.length_append, List.length_flatMap]
  simp only [length_cell]
  rfl

theorem not_mem_cells {c : Char} (noDigit : Text.digitValue? 16 c = none) (other : c ≠ ' ') :
    c ∉ cells bytes := by
  simp [cells, other, not_mem_cell bytes noDigit other]

theorem words_places (places : List Nat) (rest : List Char) :
    Text.words (places.flatMap (fun i => (cell bytes i).toList) ++ rest) =
      ((places.filterMap (bytes[·]?)).map fun b => (Text.byteHex b).toList) ++ Text.words rest := by
  induction places with
  | nil => rfl
  | cons i places inductionHypothesis =>
      rw [List.flatMap_cons, List.append_assoc, words_cell, inductionHypothesis, List.filterMap_cons]
      cases bytes[i]? <;> rfl

end Cells

/-- The first places of a list hold its first items. -/
theorem filterMap_range {α : Type} (items : List α) (count : Nat) :
    (List.range count).filterMap (items[·]?) = items.take count := by
  induction count with
  | zero => rfl
  | succ count inductionHypothesis =>
      have last : [count].filterMap (items[·]?) = items[count]?.toList := by
        rw [List.filterMap_cons, List.filterMap_nil]
        cases items[count]? <;> rfl
      rw [List.range_succ, List.filterMap_append, inductionHypothesis, last, List.take_add_one]

theorem words_cells {bytes : List UInt8} (short : bytes.length ≤ rowSize) :
    Text.words (cells bytes) = bytes.map fun b => (Text.byteHex b).toList := by
  have space : Text.isBlank ' ' = true := by decide
  have last : Text.words [' '] = [] := Text.words_cons_of_blank space []
  rw [cells, Text.words_cons_of_blank space, words_places, filterMap_range,
    List.take_of_length_le short, last, List.append_nil]

/-! ## Rows -/

theorem toList_columnHex (n : Nat) : (Text.columnHex n).toList =
    '0' :: 'x' :: (Text.padZeros 12 (Text.hexDigits n)).toList :=
  String.toList_append

/-- An address in a column consists of its mark and digits. -/
theorem not_mem_columnHex {c : Char} (noDigit : Text.digitValue? 16 c = none) (other : c ≠ 'x') (n : Nat) :
    c ∉ (Text.columnHex n).toList := by
  have digits := ((Text.spells_hexDigits n).padZeros 12).not_mem (by decide) (by decide) noDigit
  have zero : c ≠ '0' := by
    rintro rfl
    exact absurd noDigit (by decide)
  rw [toList_columnHex]
  simp [zero, other, digits]

section Row

variable (a : Address) (bytes : List UInt8)

theorem toList_row : (row a bytes).toList = (Text.columnHex a.toNat).toList ++
    ':' :: (cells bytes ++ '|' :: (bytes.map glyph ++ ['|'])) := by
  have colon : ": ".toList = [':', ' '] := rfl
  have bar : " |".toList = [' ', '|'] := rfl
  have last : "|".toList = ['|'] := rfl
  simp only [row, cells, String.toList_append, String.toList_join, String.toList_ofList, List.flatMap_map,
    colon, bar, last, List.append_assoc, List.cons_append, List.nil_append]

theorem colon_not_mem_columnHex : ':' ∉ (Text.columnHex a.toNat).toList :=
  not_mem_columnHex (Text.digitValue?_eq 16 ':') (by decide) a.toNat

theorem bar_not_mem_cells : '|' ∉ cells bytes :=
  not_mem_cells bytes (Text.digitValue?_eq 16 '|') (by decide)

theorem addressColumn_row : addressColumn (row a bytes) = (Text.columnHex a.toNat).toList := by
  rw [addressColumn, toList_row, takeWhile_front (colon_not_mem_columnHex a)]

theorem digitColumn_row : digitColumn (row a bytes) = cells bytes := by
  rw [digitColumn, toList_row, dropWhile_front (colon_not_mem_columnHex a), List.drop_succ_cons, List.drop_zero,
    takeWhile_front (bar_not_mem_cells bytes)]

/-- The words of the second column are the digits of the bytes. -/
theorem words_digitColumn (short : bytes.length ≤ rowSize) : Text.words (digitColumn (row a bytes)) =
    bytes.map fun b => (Text.byteHex b).toList := by
  rw [digitColumn_row, words_cells short]

theorem bar_not_mem_front : '|' ∉ (Text.columnHex a.toNat).toList ++ ':' :: cells bytes := by
  have address : '|' ∉ (Text.columnHex a.toNat).toList :=
    not_mem_columnHex (Text.digitValue?_eq 16 '|') (by decide) a.toNat
  simp [address, bar_not_mem_cells bytes]

/-- The row cut at the bar in front of its third column. -/
theorem toList_row_front : (row a bytes).toList =
    ((Text.columnHex a.toNat).toList ++ ':' :: cells bytes) ++ '|' :: (bytes.map glyph ++ ['|']) := by
  rw [toList_row, List.append_assoc, List.cons_append]

/-- The third column stands as far to the right as the address is wide, and 53 places
more. -/
theorem textPlace_row : textPlace (row a bytes) = (addressColumn (row a bytes)).length + 53 := by
  rw [addressColumn_row, textPlace, toList_row_front, idxOf_front (bar_not_mem_front a bytes), List.length_append,
    List.length_cons, length_cells]

theorem drop_textPlace_row : (row a bytes).toList.drop (textPlace (row a bytes)) = bytes.map glyph ++ ['|'] := by
  rw [textPlace, toList_row_front, idxOf_front (bar_not_mem_front a bytes), List.drop_length_add_append,
    List.drop_succ_cons, List.drop_zero]

/-- The address of a row is read back from its column. -/
theorem readAddress_addressColumn : readAddress (String.ofList (addressColumn (row a bytes))) = .ok a := by
  rw [addressColumn_row, toList_columnHex]
  exact (SpellsAddress.of_digits ((Text.spells_hexDigits a.toNat).padZeros 12)).readAddress_eq

end Row

/-! ## Dumps -/

/-- Pieces of one width make up the list. -/
theorem flatMap_pieces {α : Type} (items : List α) (width count : Nat) :
    (List.range count).flatMap (fun i => (items.drop (i * width)).take width) = items.take (count * width) := by
  induction count with
  | zero => simp
  | succ count inductionHypothesis =>
      rw [List.range_succ, List.flatMap_append, inductionHypothesis, List.flatMap_singleton, Nat.succ_mul,
        List.take_add]

section Rows

variable {a : Address} {bytes : List UInt8}

theorem length_rows : (rows a bytes).length = bytes.length ⌈/⌉ rowSize := by
  rw [rows, List.length_map, List.length_range, Nat.ceilDiv_eq_add_pred_div]

/-- The bytes of a row. -/
def rowBytes (bytes : List UInt8) (i : Nat) : List UInt8 :=
  (bytes.drop (i * rowSize)).take rowSize

theorem length_rowBytes_le (i : Nat) : (rowBytes bytes i).length ≤ rowSize :=
  List.length_take_le _ _

/-- The last row is cut off at the end of the bytes. -/
theorem rowBytes_eq_extract (i : Nat) :
    rowBytes bytes i = bytes.extract (16 * i) (min (16 * i + 16) bytes.length) := by
  rw [rowBytes, List.extract, rowSize_eq, Nat.mul_comm, List.take_eq_take_iff, List.length_drop]
  omega

/-- A row of a dump shows the bytes from where it begins, and it begins within them. -/
theorem getElem?_rows {i : Nat} {line : String} (listed : (rows a bytes)[i]? = some line) :
    i * rowSize < bytes.length ∧ line = row (a.shift (i * rowSize)) (rowBytes bytes i) := by
  rw [rows, List.getElem?_map, Option.map_eq_some_iff] at listed
  rcases listed with ⟨j, place, shown⟩
  rcases List.getElem?_eq_some_iff.mp place with ⟨below, same⟩
  rw [List.getElem_range] at same
  rw [List.length_range] at below
  subst same
  refine ⟨?_, shown.symm⟩
  rw [rowSize_eq] at below ⊢
  omega

/-- The digits in all rows, one after the other, are those of all bytes. -/
theorem flatMap_words : (rows a bytes).flatMap (fun line => Text.words (digitColumn line)) =
    bytes.map fun b => (Text.byteHex b).toList := by
  have each (i : Nat) : Text.words (digitColumn (row (a.shift (i * rowSize)) (rowBytes bytes i))) =
      (rowBytes bytes i).map fun b => (Text.byteHex b).toList :=
    words_digitColumn _ _ (length_rowBytes_le i)
  have enough : bytes.length ≤ (bytes.length + rowSize - 1) / rowSize * rowSize := by
    rw [rowSize_eq]
    omega
  calc
    _ = (List.range ((bytes.length + rowSize - 1) / rowSize)).flatMap fun i =>
        (rowBytes bytes i).map fun b => (Text.byteHex b).toList := by
      rw [rows, List.flatMap_map]
      exact congrArg (List.flatMap · _) (funext each)
    _ = (bytes.take ((bytes.length + rowSize - 1) / rowSize * rowSize)).map fun b => (Text.byteHex b).toList := by
      rw [← flatMap_pieces, List.map_flatMap]
      rfl
    _ = bytes.map fun b => (Text.byteHex b).toList := by rw [List.take_of_length_le enough]

/-- The bytes are read back from all rows together. -/
theorem mapM_readByte_words :
    ((rows a bytes).flatMap fun line => Text.words (digitColumn line)).mapM readByte = .ok bytes := by
  have read : bytes.mapM (readByte ∘ fun b => (Text.byteHex b).toList) = .ok (bytes.map id) := by
    refine Except.mapM_eq_ok fun b _ => ?_
    rw [Function.comp_apply, readByte_byteHex, id]
  rw [flatMap_words, List.mapM_map, read, List.map_id]

theorem textPlace_of_mem {line : String} (member : line ∈ rows a bytes) :
    textPlace line = (addressColumn line).length + 53 := by
  rcases List.mem_map.mp member with ⟨i, -, rfl⟩
  exact textPlace_row _ _

/-- A row within the address space begins with the address of its first byte. -/
theorem toNat_shift_row {i : Nat} (within : a.toNat + bytes.length ≤ wordCount 64)
    (begins : i * rowSize < bytes.length) : (a.shift (i * rowSize)).toNat = a.toNat + 16 * i := by
  rw [Address.toNat_shift (by omega), Nat.mul_comm]
  rfl

end Rows

/-- A dump loses nothing.  It has as few rows as have room for the bytes.  A row begins
with its address, which is read back from it, and has exactly its bytes as digits and one
character for each of them.  The digits in all rows are read as the bytes.  Where addresses
are equally wide, the characters stand at the same place. -/
theorem rows_read_back {a : Address} {bytes : List UInt8} (within : a.toNat + bytes.length ≤ wordCount 64) :
    (rows a bytes).length = bytes.length ⌈/⌉ 16 ∧
    (forall i line, (rows a bytes)[i]? = some line ->
      let shown := bytes.extract (16 * i) (min (16 * i + 16) bytes.length)
      (Text.columnHex (a.toNat + 16 * i)).toList ++ [':'] <+: line.toList ∧
      (∃ b, readAddress (String.ofList (addressColumn line)) = .ok b ∧ b.toNat = a.toNat + 16 * i) ∧
      Text.words (digitColumn line) = (shown.map fun b => (Text.byteHex b).toList) ∧
      line.toList.drop (textPlace line) = shown.map glyph ++ ['|']) ∧
    ((rows a bytes).flatMap fun line => Text.words (digitColumn line)).mapM readByte = .ok bytes ∧
    forall first second, first ∈ rows a bytes -> second ∈ rows a bytes ->
      (addressColumn first).length = (addressColumn second).length -> textPlace first = textPlace second := by
  refine ⟨length_rows, ?_, mapM_readByte_words, ?_⟩
  · intro i line listed shown
    rcases getElem?_rows listed with ⟨begins, rfl⟩
    have place := toNat_shift_row within begins
    have cut : rowBytes bytes i = shown := rowBytes_eq_extract i
    rw [← cut, ← place]
    refine ⟨?_, ⟨_, readAddress_addressColumn _ _, rfl⟩, words_digitColumn _ _ (length_rowBytes_le i),
      drop_textPlace_row _ _⟩
    rw [toList_row]
    exact ⟨_, (List.append_cons _ _ _).symm⟩
  · intro first second one other wide
    rw [textPlace_of_mem one, textPlace_of_mem other, wide]

/-- The last eighteen bytes of the address space, with a bar and a colon among them. -/
theorem rows_read_back_at_last_bytes :
    let a : Address := 0xFFFFFFFFFFFFFFEE
    let bytes : List UInt8 :=
      [0x7C, 0x3A, 0x20, 0x7F, 0x00, 0x41, 0x42, 0x43, 0x44, 0x0A, 0xFF, 0x30, 0x31, 0x7C, 0x7E, 0x1F, 0x3A, 0x7C]
    a.toNat + bytes.length ≤ wordCount 64 ∧
      rows a bytes =
        ["0xffffffffffffffee: 7C 3A 20 7F 00 41 42 43  44 0A FF 30 31 7C 7E 1F  ||: ..ABCD..01|~.|",
          "0xfffffffffffffffe: 3A 7C                                             |:||"] ∧
      (rows a bytes).length = bytes.length ⌈/⌉ 16 ∧
      ((rows a bytes).flatMap fun line => Text.words (digitColumn line)).mapM readByte = .ok bytes := by
  intro a bytes
  have within : a.toNat + bytes.length ≤ wordCount 64 := by decide
  have shown := rows_read_back within
  exact ⟨within, by decide +kernel, shown.1, shown.2.2.1⟩

end Report
end MemoryAtlas
