import MemoryAtlas.Proofs.Image.Captured

namespace MemoryAtlas

/-!
# Reading a range in pieces

A range is read from the first region that holds all of it, so the answer
depends on how much is asked for at once: a part of the range may be held by an
earlier region that is too short for the whole.  Regions of a table may overlap,
and nothing compares what they keep where they do.

A snapshot is seamless if that makes no difference.  Only regions that are the
holders of their own whole ranges matter, since a region that lies inside an
earlier one never answers.  The pieces of a range make up the whole, for all
ranges and all ways of cutting them, in the seamless snapshots and in no others.
-/

namespace Region

/-- A region holds every part of what it holds. -/
theorem Holds.part {r : Region} {a : Address} {n i k : Nat} (holds : r.Holds a n) (inside : i + k ≤ n) :
    r.Holds (a.shift i) k := by
  have short := holds.short
  rcases holds with ⟨begins, ends⟩
  have shifted : (a.shift i).toNat = a.toNat + i := Address.toNat_shift (by omega)
  constructor <;> omega

/-- A region holds its own range. -/
theorem holds_first_size {r : Region} (forward : r.first.toNat ≤ r.last.toNat) :
    r.Holds r.first r.size := by
  unfold Holds size
  omega

/-- Whatever holds the range of a region holds what the region holds. -/
theorem Holds.of_whole {r other : Region} {a : Address} {n : Nat} (whole : other.Holds r.first r.size)
    (holds : r.Holds a n) : other.Holds a n := by
  unfold Holds size at *
  omega

theorem Holds.position_shift {r : Region} {a : Address} {n i : Nat} (holds : r.Holds a n)
    (inside : i ≤ n) : r.position (a.shift i) = r.position a + i := by
  have short := holds.short
  have shifted : (a.shift i).toNat = a.toNat + i := Address.toNat_shift (by omega)
  have begins := holds.1
  unfold position
  omega

end Region

namespace Snapshot

variable {s : Snapshot}

/-- The byte of an address: what its holder keeps for it. -/
def byte? (s : Snapshot) (a : Address) : Option UInt8 :=
  (s.holder? a 1).bind fun r => s.data[r.position a]?

/-- Every region that is the holder of its own whole range keeps at each of its
addresses the byte of that address. -/
def Seamless (s : Snapshot) : Prop :=
  forall r, r ∈ s.regions -> s.holder? r.first r.size = some r ->
    forall a, r.Holds a 1 -> s.data[r.position a]? = s.byte? a

/-- Regions that agree wherever two of them overlap leave no seam. -/
theorem seamless_of_agree (agree : forall r, r ∈ s.regions -> forall r', r' ∈ s.regions ->
      forall a, r.Holds a 1 -> r'.Holds a 1 -> s.data[r.position a]? = s.data[r'.position a]?) :
    s.Seamless := by
  intro r member _ a holds
  rcases exists_holder? member holds with ⟨first, found⟩
  rcases holds_of_holder? found with ⟨member', holds'⟩
  rw [byte?, found]
  exact agree r member first member' a holds holds'

/-- The holder of any range is the holder of its own whole range. -/
theorem holder?_whole (fitted : s.Fitted) {r : Region} {a : Address} {n : Nat}
    (found : s.holder? a n = some r) : s.holder? r.first r.size = some r := by
  rcases holds_of_holder? found with ⟨member, holds⟩
  rcases List.find?_eq_some_iff_append.mp found with ⟨-, before, after, split, earlier⟩
  refine List.find?_eq_some_iff_append.mpr ⟨?_, before, after, split, fun other listed => ?_⟩
  · exact decide_eq_true (Region.holds_first_size (fitted.forward r member))
  · have short := earlier other listed
    simp only [Bool.not_eq_true', decide_eq_false_iff_not] at short ⊢
    exact fun whole => short (whole.of_whole holds)

namespace Fitted

/-- A range that some region holds can be read. -/
theorem exists_read (fitted : s.Fitted) {r : Region} {a : Address} {n : Nat} (member : r ∈ s.regions)
    (holds : r.Holds a n) : ∃ bytes, s.read a n = .ok bytes := by
  rcases exists_holder? member holds with ⟨first, found⟩
  rcases fitted.read_of_holder? found with ⟨bytes, read, -⟩
  exact ⟨bytes, read⟩

/-- Each byte that is read is the one that the holder of the range keeps. -/
theorem getElem?_read (fitted : s.Fitted) {r : Region} {a : Address} {n i : Nat} {bytes : List UInt8}
    (found : s.holder? a n = some r) (read : s.read a n = .ok bytes) (below : i < n) :
    bytes[i]? = s.data[r.position a + i]? := by
  rcases fitted.read_of_holder? found with ⟨bytes', read', length, kept⟩
  cases read.symm.trans read'
  rw [List.getElem?_eq_getElem (length.symm ▸ below)]
  exact (kept i (length.symm ▸ below)).1.symm

/-- A single byte that is read is the byte of its address. -/
theorem head?_read (fitted : s.Fitted) {a : Address} {bytes : List UInt8}
    (short : a.toNat + 1 < wordCount 64) (read : s.read a 1 = .ok bytes) : bytes[0]? = s.byte? a := by
  rcases read_eq_ok_iff.mp read with ⟨r, found, -⟩
  rw [find?_contains_of_short short] at found
  rw [fitted.getElem?_read found read Nat.zero_lt_one, byte?, found]
  rfl

end Fitted

/-- In a seamless snapshot every read gives the bytes of the addresses. -/
theorem Seamless.getElem?_read (seamless : s.Seamless) (fitted : s.Fitted) {a : Address} {n i : Nat}
    {bytes : List UInt8} (short : a.toNat + n < wordCount 64) (read : s.read a n = .ok bytes)
    (below : i < n) : bytes[i]? = s.byte? (a.shift i) := by
  rcases read_eq_ok_iff.mp read with ⟨r, found, -⟩
  rw [find?_contains_of_short short] at found
  rcases holds_of_holder? found with ⟨member, holds⟩
  have whole := holder?_whole fitted found
  rw [fitted.getElem?_read found read below, ← holds.position_shift (Nat.le_of_lt below)]
  exact seamless r member whole (a.shift i) (holds.part below)

/-- In a seamless snapshot a piece of a range is a piece of what is read of it. -/
theorem Seamless.piece (seamless : s.Seamless) (fitted : s.Fitted) {a : Address} {n i k : Nat}
    {whole piece : List UInt8} (short : a.toNat + n < wordCount 64) (inside : i + k ≤ n)
    (read : s.read a n = .ok whole) (readPiece : s.read (a.shift i) k = .ok piece) :
    piece = (whole.drop i).take k := by
  have shifted : (a.shift i).toNat = a.toNat + i := Address.toNat_shift (by omega)
  have length := length_read readPiece
  apply List.ext_getElem?
  intro j
  by_cases below : j < k
  · rw [List.getElem?_take_of_lt below, List.getElem?_drop,
      seamless.getElem?_read fitted short read (by omega),
      seamless.getElem?_read fitted (by omega) readPiece below, Address.shift_shift]
  · rw [List.getElem?_eq_none (by omega), List.getElem?_eq_none]
    exact Nat.le_trans (List.length_take_le k _) (Nat.not_lt.mp below)

/-- One region alone leaves no seam.  If it ends before the last address, a piece of
what was read is read by itself as well. -/
theorem read_piece_of_single {r : Region} {a : Address} {n i k : Nat} {whole : List UInt8}
    (single : s.regions = [r]) (ends : r.last.toNat < wordCount 64 - 1) (read : s.read a n = .ok whole)
    (inside : i + k ≤ n) : s.read (a.shift i) k = .ok ((whole.drop i).take k) := by
  have holds := holds_of_read_of_single single ends read
  rcases read_eq_ok_iff.mp read with ⟨found, contained, fits, rfl⟩
  rw [single, List.find?_singleton, if_pos ((Region.contains_iff_holds holds.short).mpr holds)] at contained
  obtain rfl : r = found := Option.some.inj contained
  have part : r.Holds (a.shift i) k := holds.part inside
  have position : r.position (a.shift i) = r.position a + i := holds.position_shift (by omega)
  refine read_eq_ok_iff.mpr ⟨r, ?_, by omega, ?_⟩
  · rw [single, List.find?_singleton, if_pos ((Region.contains_iff_holds part.short).mpr part)]
  · rw [position, Array.toList_extract, Array.toList_extract, List.extract_eq_take_drop,
      List.extract_eq_take_drop, Nat.add_sub_cancel_left, Nat.add_sub_cancel_left, List.drop_take,
      List.drop_drop, List.take_take, Nat.min_eq_left (by omega)]

/-- Within the address space a range reads as its two pieces, wherever it is cut. -/
def ReadsCompose (s : Snapshot) : Prop :=
  forall (a : Address) (n m : Nat) (whole left right : List UInt8), a.toNat + n + m < wordCount 64 ->
    s.read a (n + m) = .ok whole -> s.read a n = .ok left -> s.read (a.shift n) m = .ok right ->
    whole = left ++ right

/-- Where ranges read as their pieces, every read gives the bytes of the
addresses: the range is cut before the byte and again behind it. -/
theorem ReadsCompose.getElem?_read (compose : s.ReadsCompose) (fitted : s.Fitted) {r : Region}
    {a : Address} {n i : Nat} {whole : List UInt8} (member : r ∈ s.regions) (holds : r.Holds a n)
    (read : s.read a n = .ok whole) (below : i < n) : whole[i]? = s.byte? (a.shift i) := by
  obtain ⟨k, rfl⟩ : ∃ k, n = i + (1 + k) := ⟨n - i - 1, by omega⟩
  have short := holds.short
  have shifted : (a.shift i).toNat = a.toNat + i := Address.toNat_shift (by omega)
  have leftHolds : r.Holds (a.shift 0) i := holds.part (by omega)
  have rightHolds : r.Holds (a.shift i) (1 + k) := holds.part (Nat.le_refl _)
  have oneHolds : r.Holds (a.shift i) 1 := holds.part (by omega)
  have restHolds : r.Holds ((a.shift i).shift 1) k := rightHolds.part (Nat.le_refl _)
  rw [Address.shift_zero] at leftHolds
  rcases fitted.exists_read member leftHolds with ⟨left, readLeft⟩
  rcases fitted.exists_read member rightHolds with ⟨right, readRight⟩
  rcases fitted.exists_read member oneHolds with ⟨one, readOne⟩
  rcases fitted.exists_read member restHolds with ⟨rest, readRest⟩
  have outer := compose a i (1 + k) whole left right (by omega) read readLeft readRight
  have inner := compose (a.shift i) 1 k right one rest (by omega) readRight readOne readRest
  calc whole[i]?
    _ = right[0]? := by
        rw [outer, List.getElem?_append_right (Nat.le_of_eq (length_read readLeft)),
          length_read readLeft, Nat.sub_self]
    _ = one[0]? := by
        rw [inner, List.getElem?_append_left (Nat.lt_of_lt_of_eq Nat.zero_lt_one (length_read readOne).symm)]
    _ = s.byte? (a.shift i) := fitted.head?_read oneHolds.short readOne

/-- A snapshot opened from a dump and a region table reads every range as it
reads the pieces of the range exactly if it is seamless. -/
theorem readsCompose_iff_seamless {data : Array UInt8} {table : String}
    (small : data.size < wordCount 64 - 1) (opened : ofFiles (some data) (some table) = .ok s) :
    s.ReadsCompose <-> s.Seamless := by
  have fitted := ofFiles_fitted small opened
  constructor
  -- A byte of a region that holds its own range is read both alone and with that range.
  · intro compose r member held a holds
    have wholeHolds := Region.holds_first_size (fitted.forward r member)
    have begins := holds.1
    have ends : a.toNat + 1 ≤ r.last.toNat := holds.2
    have shifted : r.first.shift (a.toNat - r.first.toNat) = a := by
      apply UInt64.toNat_inj.mp
      rw [Address.toNat_shift (by have := holds.short; omega)]
      omega
    have below : a.toNat - r.first.toNat < r.size := by
      unfold Region.size
      omega
    rcases fitted.exists_read member wholeHolds with ⟨whole, read⟩
    calc s.data[r.position a]?
      _ = s.data[r.position r.first + (a.toNat - r.first.toNat)]? := by
          rw [← wholeHolds.position_shift (Nat.le_of_lt below), shifted]
      _ = whole[a.toNat - r.first.toNat]? := (fitted.getElem?_read held read below).symm
      _ = s.byte? (r.first.shift (a.toNat - r.first.toNat)) :=
          compose.getElem?_read fitted member wholeHolds read below
      _ = s.byte? a := by rw [shifted]
  · intro seamless a n m whole left right short read readLeft readRight
    have within : a.toNat + (n + m) < wordCount 64 := Nat.add_assoc a.toNat n m ▸ short
    have first : left = (whole.drop 0).take n :=
      seamless.piece fitted within (by omega) read ((Address.shift_zero a).symm ▸ readLeft)
    have second : right = (whole.drop n).take m :=
      seamless.piece fitted within (Nat.le_refl _) read readRight
    have rest : (whole.drop n).length ≤ m := by
      rw [List.length_drop, length_read read]
      omega
    rw [first, second, List.drop_zero, List.take_of_length_le rest, List.take_append_drop]

/-- Two regions that overlap and were captured at the same time. -/
def overlapping : Snapshot where
  data := #[10, 11, 12, 13, 14, 15]
  regions := [⟨0x1000, 0x1004, 0⟩, ⟨0x1002, 0x1006, 2⟩]

theorem readsCompose_iff_seamless_at_overlapping :
    overlapping.data.size < wordCount 64 - 1 ∧
    ofFiles (some overlapping.data) (some "0x1000 0x1004 0x4 0x0\n0x1002 0x1006 0x4 0x2") = .ok overlapping ∧
    overlapping.Seamless ∧ overlapping.ReadsCompose := by
  have small : overlapping.data.size < wordCount 64 - 1 := by decide
  have opened : ofFiles (some overlapping.data)
      (some "0x1000 0x1004 0x4 0x0\n0x1002 0x1006 0x4 0x2") = .ok overlapping := rfl
  have seamless : overlapping.Seamless := by
    apply seamless_of_agree
    have aligned : forall r, r ∈ overlapping.regions -> forall a, r.Holds a 1 ->
        r.position a = a.toNat - 0x1000 := by
      simp [overlapping, Region.Holds, Region.position]
      omega
    intro r member r' member' a holds holds'
    rw [aligned r member a holds, aligned r' member' a holds']
  exact ⟨small, opened, seamless, (readsCompose_iff_seamless small opened).mpr seamless⟩

/-- A region table is accepted although its two regions contradict each other:
eight bytes at once are read from the longer one, the first four of them alone
from the shorter one. -/
theorem accepted_reads_apart : ∃ s whole left right,
    ofFiles (some #[0, 1, 2, 3, 4, 5, 6, 7, 8, 9, 10, 11])
      (some "0x1000 0x1004 0x4 0x0\n0x1000 0x1008 0x8 0x4") = .ok s ∧
    s.read 0x1000 (4 + 4) = .ok whole ∧ s.read 0x1000 4 = .ok left ∧
    s.read (Address.shift 0x1000 4) 4 = .ok right ∧
    whole = [4, 5, 6, 7, 8, 9, 10, 11] ∧ left = [0, 1, 2, 3] ∧ right = [8, 9, 10, 11] ∧
    whole ≠ left ++ right :=
  ⟨⟨#[0, 1, 2, 3, 4, 5, 6, 7, 8, 9, 10, 11], [⟨0x1000, 0x1004, 0⟩, ⟨0x1000, 0x1008, 4⟩]⟩, _, _, _,
    rfl, rfl, rfl, rfl, rfl, rfl, rfl, by decide⟩

end Snapshot

end MemoryAtlas
