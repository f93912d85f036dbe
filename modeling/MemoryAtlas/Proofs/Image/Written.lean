import Mathlib.Data.List.Induction
import MemoryAtlas.Proofs.Image.Captured

namespace MemoryAtlas

/-!
# Writing to a snapshot of one region

A snapshot of one region is a row of bytes with an address.  Reading and writing
ask the same question, whether a range lies inside the region.  As long as the
region ends before the last address, the question is answered in exact numbers:
nothing that is cut off at the last address can pass for a range inside.

A write replaces a window of the row.  After any number of writes each address
holds what the last write that covered it and went through has put there, or its
original byte.  A write that does not fit is refused at either end of the region
and leaves no trace, not even at those of its addresses that are inside.
-/

namespace Snapshot

variable {s : Snapshot} {base a : Address} {size n : Nat}

/-- A row of bytes with a window replaced. -/
theorem getElem?_splice {row : Array UInt8} {bytes : List UInt8} {start : Nat}
    (fits : start + bytes.length ≤ row.size) (i : Nat) :
    (row.extract 0 start ++ bytes.toArray ++ row.extract (start + bytes.length) row.size)[i]? =
      if start ≤ i ∧ i < start + bytes.length then bytes[i - start]? else row[i]? := by
  have front : (row.extract 0 start).size = start := by simp; omega
  have window : (row.extract 0 start ++ bytes.toArray).size = start + bytes.length := by simp; omega
  rcases Nat.lt_or_ge i (start + bytes.length) with within | behind
  · rw [Array.getElem?_append_left (by omega)]
    rcases Nat.lt_or_ge i start with before | inside
    · rw [if_neg (by omega), Array.getElem?_append_left (by omega), Array.getElem?_extract,
        if_pos (by omega), Nat.zero_add]
    · rw [if_pos ⟨inside, within⟩, Array.getElem?_append_right (by omega), front, List.getElem?_toArray]
  · rw [if_neg (by omega), Array.getElem?_append_right (by omega), window, Array.getElem?_extract]
    split
    · congr 1
      omega
    · rw [Array.getElem?_eq_none (by omega)]

/-! ## One region -/

/-- The `n` bytes from `a` on lie in the region of `size` bytes at `base`, in exact
numbers. -/
def Inside (base : Address) (size : Nat) (a : Address) (n : Nat) : Prop :=
  base.toNat ≤ a.toNat ∧ a.toNat + n ≤ base.toNat + size

instance (base : Address) (size : Nat) (a : Address) (n : Nat) : Decidable (Inside base size a n) :=
  inferInstanceAs (Decidable (_ ∧ _))

/-- The snapshot is a row of `size` bytes with its start at `base`. -/
structure Single (s : Snapshot) (base : Address) (size : Nat) : Prop where
  regions : s.regions = [⟨base, base.shift size, 0⟩]
  size : s.data.size = size

theorem ofRegion_single (base : Address) (data : Array UInt8) : (ofRegion base data).Single base data.size :=
  ⟨rfl, rfl⟩

namespace Single

/-- A range has a position exactly if it lies inside the region. -/
theorem position?_eq (single : s.Single base size) (room : base.toNat + size < wordCount 64 - 1) :
    s.position? a n = if Inside base size a n then some (a.toNat - base.toNat) else none := by
  have ends : (base.shift size).toNat = base.toNat + size := Address.toNat_shift (by omega)
  have asked : Region.contains ⟨base, base.shift size, 0⟩ a n = true <-> Inside base size a n := by
    rw [Region.contains_iff, ends, Inside]
    show base.toNat ≤ a.toNat ∧ _ <-> _
    omega
  rw [position?, single.regions, List.find?_singleton]
  by_cases inside : Inside base size a n
  · rw [if_pos inside, if_pos (asked.mpr inside)]
    rcases inside with ⟨begins, within⟩
    have fits : 0 + (a.toNat - base.toNat) + n ≤ s.data.size := by
      rw [single.size]
      omega
    simp only [fits, if_true]
    rw [Nat.zero_add]
  · rw [if_neg inside, if_neg (mt asked.mp inside)]

theorem read_of_inside (single : s.Single base size) (room : base.toNat + size < wordCount 64 - 1)
    (inside : Inside base size a n) : s.read a n =
      .ok (s.data.extract (a.toNat - base.toNat) (a.toNat - base.toNat + n)).toList := by
  rw [read, single.position?_eq room, if_pos inside]

theorem read_of_not_inside (single : s.Single base size) (room : base.toNat + size < wordCount 64 - 1)
    (outside : ¬ Inside base size a n) : s.read a n = .error (.unreadable a (.notCaptured n)) := by
  rw [read, single.position?_eq room, if_neg outside]

theorem write_of_inside (single : s.Single base size) (room : base.toNat + size < wordCount 64 - 1)
    {bytes : List UInt8} (inside : Inside base size a bytes.length) :
    ∃ written, s.write a bytes = .ok written ∧ written.Single base size ∧
      forall i, written.data[i]? = if a.toNat ≤ base.toNat + i ∧ base.toNat + i < a.toNat + bytes.length
        then bytes[base.toNat + i - a.toNat]? else s.data[i]? := by
  rcases inside with ⟨begins, ends⟩
  have fits : a.toNat - base.toNat + bytes.length ≤ s.data.size := by
    rw [single.size]
    omega
  rw [write, single.position?_eq room, if_pos ⟨begins, ends⟩]
  refine ⟨_, rfl, ⟨single.regions, ?_⟩, fun i => ?_⟩
  · have size := single.size
    simp only [Array.size_append, Array.size_extract, List.size_toArray]
    omega
  · rw [getElem?_splice fits]
    refine ite_congr (propext ?_) (fun _ => ?_) (fun _ => rfl)
    · omega
    · congr 1
      omega

theorem write_of_not_inside (single : s.Single base size) (room : base.toNat + size < wordCount 64 - 1)
    {bytes : List UInt8} (outside : ¬ Inside base size a bytes.length) :
    s.write a bytes = .error (.unwritable a bytes.length) := by
  rw [write, single.position?_eq room, if_neg outside]

/-- Each byte that is read is the byte of its address. -/
theorem getElem?_read (single : s.Single base size) (room : base.toNat + size < wordCount 64 - 1)
    {bytes : List UInt8} (inside : Inside base size a n) (read : s.read a n = .ok bytes) {i : Nat}
    (below : i < n) : bytes[i]? = s.data[a.toNat + i - base.toNat]? := by
  rw [single.read_of_inside room inside] at read
  cases read
  rcases inside with ⟨begins, ends⟩
  have size := single.size
  rw [Array.getElem?_toList, Array.getElem?_extract, if_pos (by omega)]
  congr 1
  omega

end Single

/-! ## Writes -/

/-- Something to be written: bytes as they are, or a number in `width` bytes. -/
inductive Write where
  | bytes (a : Address) (content : List UInt8)
  | number (a : Address) (width n : Nat)
deriving Repr, DecidableEq

namespace Write

def address : Write -> Address
  | bytes a _ => a
  | number a _ _ => a

def content : Write -> List UInt8
  | bytes _ content => content
  | number _ width n => toLittleEndian width n

def run (w : Write) (s : Snapshot) : Except MemoryFault Snapshot :=
  match w with
  | bytes a content => s.write a content
  | number a width n => s.writeNat a width n

theorem run_eq (w : Write) (s : Snapshot) : w.run s = s.write w.address w.content := by
  cases w <;> rfl

/-- The write stays inside the region of `size` bytes at `base`. -/
def Fits (w : Write) (base : Address) (size : Nat) : Prop :=
  Inside base size w.address w.content.length

instance (w : Write) (base : Address) (size : Nat) : Decidable (w.Fits base size) :=
  inferInstanceAs (Decidable (Inside ..))

/-- The write has a byte for this address. -/
def Covers (w : Write) (x : Nat) : Prop :=
  w.address.toNat ≤ x ∧ x < w.address.toNat + w.content.length

instance (w : Write) (x : Nat) : Decidable (w.Covers x) :=
  inferInstanceAs (Decidable (_ ∧ _))

end Write

/-- The snapshot after writes in this order.  A write that is refused leaves the
snapshot as it is. -/
def written (s : Snapshot) (writes : List Write) : Snapshot :=
  writes.foldl (fun s w => (w.run s).toOption.getD s) s

/-- The last write that fits and covers an address. -/
def lastWrite (base : Address) (size : Nat) (writes : List Write) (x : Nat) : Option Write :=
  writes.reverse.find? (fun w => w.Fits base size ∧ w.Covers x)

/-- The byte that an address of the region should hold: that of the last write, or
the original one. -/
def lastByte (base : Address) (data : Array UInt8) (writes : List Write) (x : Nat) : Option UInt8 :=
  match lastWrite base data.size writes x with
  | some w => w.content[x - w.address.toNat]?
  | none => data[x - base.toNat]?

theorem lastByte_concat (base : Address) (data : Array UInt8) (writes : List Write) (w : Write) (x : Nat) :
    lastByte base data (writes ++ [w]) x =
      if w.Fits base data.size ∧ w.Covers x then w.content[x - w.address.toNat]?
      else lastByte base data writes x := by
  unfold lastByte lastWrite
  rw [List.reverse_concat, List.find?_cons]
  by_cases last : w.Fits base data.size ∧ w.Covers x <;> simp [last]

/-- The snapshot holds what the writes have left of the data. -/
structure Reflects (s : Snapshot) (base : Address) (data : Array UInt8) (writes : List Write) : Prop where
  single : s.Single base data.size
  bytes : forall i, s.data[i]? = lastByte base data writes (base.toNat + i)

theorem Reflects.write {data : Array UInt8} (room : base.toNat + data.size < wordCount 64 - 1)
    {writes : List Write} (reflects : s.Reflects base data writes) (w : Write) :
    Reflects ((w.run s).toOption.getD s) base data (writes ++ [w]) := by
  rw [w.run_eq]
  by_cases fits : w.Fits base data.size
  · rcases reflects.single.write_of_inside room fits with ⟨after, ran, single, bytes⟩
    rw [ran]
    refine ⟨single, fun i => ?_⟩
    rw [lastByte_concat, ← reflects.bytes]
    exact (bytes i).trans (if_congr (and_iff_right fits).symm rfl rfl)
  · rw [reflects.single.write_of_not_inside room fits]
    refine ⟨reflects.single, fun i => ?_⟩
    rw [lastByte_concat, if_neg (fun last => fits last.1)]
    exact reflects.bytes i

theorem written_reflects {data : Array UInt8} (room : base.toNat + data.size < wordCount 64 - 1)
    (writes : List Write) : ((ofRegion base data).written writes).Reflects base data writes := by
  induction writes using List.reverseRecOn with
  | nil =>
      refine ⟨ofRegion_single base data, fun i => ?_⟩
      show data[i]? = data[base.toNat + i - base.toNat]?
      rw [Nat.add_sub_cancel_left]
  | append_singleton writes w inductionHypothesis =>
      rw [written, List.foldl_concat]
      exact inductionHypothesis.write room w

/-- A number that has been written is read back in the same width. -/
theorem Single.readNat_writeNat (single : s.Single base size) (room : base.toNat + size < wordCount 64 - 1)
    {width value : Nat} {after : Snapshot} (wrote : s.writeNat a width value = .ok after)
    (fits : value < wordCount (8 * width)) : after.memory.readNat a width = .ok value := by
  have length := length_toLittleEndian width value
  rw [writeNat] at wrote
  by_cases inside : Inside base size a (toLittleEndian width value).length
  · rcases single.write_of_inside room inside with ⟨after', wrote', single', bytes⟩
    cases wrote.symm.trans wrote'
    rw [length] at inside bytes
    have read := single'.read_of_inside room inside
    have same : (after.data.extract (a.toNat - base.toNat) (a.toNat - base.toNat + width)).toList =
        toLittleEndian width value := by
      apply List.ext_getElem?
      intro i
      by_cases below : i < width
      · rw [single'.getElem?_read room inside read below, bytes, if_pos (by have := inside.1; omega)]
        congr 1
        have := inside.1
        omega
      · rw [List.getElem?_eq_none (by rw [length_read read]; omega), List.getElem?_eq_none (by omega)]
    show (after.read a width).map littleEndian = .ok value
    rw [read, same, Except.map, littleEndian_toLittleEndian, Nat.mod_eq_of_lt fits]
  · rw [single.write_of_not_inside room inside] at wrote
    cases wrote

/-- After any writes to a region, in bytes or as numbers, every range inside the
region reads as the last of them to cover each address and to go through has left
it, or as it was.  Writes and reads that are not wholly inside fail, such a write
changes nothing, and a number that is written is read back in its width. -/
theorem written_exact {base : Address} {data : Array UInt8}
    (room : base.toNat + data.size < wordCount 64 - 1) (writes : List Write) :
    (forall a n, Inside base data.size a n -> ∃ bytes,
      ((ofRegion base data).written writes).read a n = .ok bytes ∧ bytes.length = n ∧
        forall i, i < n -> bytes[i]? = lastByte base data writes (a.toNat + i)) ∧
    (forall a n, ¬ Inside base data.size a n ->
      ((ofRegion base data).written writes).read a n = .error (.unreadable a (.notCaptured n))) ∧
    (forall w : Write, (∃ after, w.run ((ofRegion base data).written writes) = .ok after) <->
      w.Fits base data.size) ∧
    (forall w : Write, ¬ w.Fits base data.size ->
      w.run ((ofRegion base data).written writes) = .error (.unwritable w.address w.content.length) ∧
      (ofRegion base data).written (writes ++ [w]) = (ofRegion base data).written writes) ∧
    (forall a width n after, n < wordCount (8 * width) ->
      ((ofRegion base data).written writes).writeNat a width n = .ok after ->
        after.memory.readNat a width = .ok n) := by
  have reflects := written_reflects room writes
  have refused : forall w : Write, ¬ w.Fits base data.size ->
      w.run ((ofRegion base data).written writes) = .error (.unwritable w.address w.content.length) := by
    intro w outside
    rw [w.run_eq]
    exact reflects.single.write_of_not_inside room outside
  refine ⟨?_, ?_, ?_, ?_, ?_⟩
  · intro a n inside
    have read := reflects.single.read_of_inside room inside
    refine ⟨_, read, length_read read, fun i below => ?_⟩
    have begins := inside.1
    rw [reflects.single.getElem?_read room inside read below, reflects.bytes]
    congr 1
    omega
  · exact fun a n outside => reflects.single.read_of_not_inside room outside
  · intro w
    constructor
    · rintro ⟨after, ran⟩
      by_contra outside
      cases ran.symm.trans (refused w outside)
    · intro fits
      rcases reflects.single.write_of_inside room fits with ⟨after, ran, -⟩
      exact ⟨after, w.run_eq _ ▸ ran⟩
  · intro w outside
    refine ⟨refused w outside, ?_⟩
    rw [written, List.foldl_concat]
    show (w.run ((ofRegion base data).written writes)).toOption.getD _ = _
    rw [refused w outside]
    rfl
  · exact fun a width n after fits wrote => reflects.single.readNat_writeNat room wrote fits

/-- A number, one that does not fit, and bytes over a part of the first. -/
def overlappingWrites : List Write :=
  [.number 0x2004 4 0xdeadbeef, .number 0x200c 8 1, .bytes 0x2005 [1, 2]]

/-- Sixteen empty bytes. -/
def blankRegion : Array UInt8 :=
  Array.replicate 16 0

theorem written_exact_at_blankRegion : (0x2000 : Address).toNat + blankRegion.size < wordCount 64 - 1 ∧
    Inside 0x2000 blankRegion.size 0x2003 5 ∧ ¬ Inside 0x2000 blankRegion.size 0x200c 8 ∧
    (∃ bytes, ((ofRegion 0x2000 blankRegion).written overlappingWrites).read 0x2003 5 = .ok bytes ∧
      bytes.length = 5 ∧ forall i, i < 5 -> bytes[i]? = lastByte 0x2000 blankRegion overlappingWrites (0x2003 + i)) ∧
    ((ofRegion 0x2000 blankRegion).written overlappingWrites).read 0x200c 8 =
      .error (.unreadable 0x200c (.notCaptured 8)) := by
  have room : (0x2000 : Address).toNat + blankRegion.size < wordCount 64 - 1 := by decide
  have inside : Inside 0x2000 blankRegion.size 0x2003 5 := by decide
  have outside : ¬ Inside 0x2000 blankRegion.size 0x200c 8 := by decide
  have whole := written_exact room overlappingWrites
  exact ⟨room, inside, outside, whole.1 0x2003 5 inside, whole.2.1 0x200c 8 outside⟩

example : ((ofRegion 0x2000 blankRegion).written overlappingWrites).read 0x2003 5 =
    .ok [0, 0xef, 1, 2, 0xde] := by
  decide

end Snapshot
end MemoryAtlas
