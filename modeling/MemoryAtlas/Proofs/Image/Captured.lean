import Mathlib.Data.List.Basic
import MemoryAtlas.Image.Snapshot
import MemoryAtlas.Proofs.Sequence

namespace MemoryAtlas

/-!
# What a snapshot has captured

A region holds a range of addresses if the range begins and ends within it, in
exact numbers.  The reader of a snapshot asks something slightly different: it
cuts the end of the range off at the last address.  The two questions differ
only for ranges that go past the end of the address space, and there only for a
region that reaches up to the last address.

Opening a snapshot makes sure that every region lies inside the dump.  A range
that a region holds can therefore be read, and what is read are the bytes that
the first such region keeps, none of them from outside its part of the dump.
-/

namespace Region

/-- The region holds the `n` bytes from `a` on.  The end of the range is an
exact number, which no region holds once it has left the address space. -/
def Holds (r : Region) (a : Address) (n : Nat) : Prop :=
  r.first.toNat ≤ a.toNat ∧ a.toNat + n ≤ r.last.toNat

instance (r : Region) (a : Address) (n : Nat) : Decidable (r.Holds a n) :=
  inferInstanceAs (Decidable (_ ∧ _))

/-- Where in the dump the region keeps the byte of an address. -/
def position (r : Region) (a : Address) : Nat :=
  r.offset + (a.toNat - r.first.toNat)

variable {r : Region} {a : Address} {n : Nat}

theorem contains_iff : r.contains a n = true <->
    r.first.toNat ≤ a.toNat ∧ min (a.toNat + n) (wordCount 64 - 1) ≤ r.last.toNat := by
  rw [contains, Bool.and_eq_true, decide_eq_true_iff, decide_eq_true_iff, UInt64.le_iff_toNat_le]
  rfl

/-- Within the address space nothing is cut off. -/
theorem contains_iff_holds (short : a.toNat + n < wordCount 64) :
    r.contains a n = true <-> r.Holds a n := by
  rw [contains_iff, Holds, Nat.min_eq_left (Nat.le_sub_one_of_lt short)]

/-- A range that goes past the last address passes for one that ends there. -/
theorem contains_iff_reaches (long : wordCount 64 ≤ a.toNat + n) :
    r.contains a n = true <-> r.first.toNat ≤ a.toNat ∧ r.last.toNat = wordCount 64 - 1 := by
  have last := Nat.le_sub_one_of_lt (show r.last.toNat < wordCount 64 from r.last.toNat_lt)
  rw [contains_iff, Nat.min_eq_right (Nat.le_trans (Nat.sub_le _ 1) long)]
  exact and_congr_right fun _ => ⟨fun reached => Nat.le_antisymm last reached, Nat.le_of_eq ∘ Eq.symm⟩

/-- What a region holds is kept within its own part of the dump. -/
theorem Holds.position_add_le (holds : r.Holds a n) : r.position a + n ≤ r.offset + r.size := by
  rcases holds with ⟨begins, ends⟩
  unfold position size
  omega

theorem Holds.short (holds : r.Holds a n) : a.toNat + n < wordCount 64 :=
  Nat.lt_of_le_of_lt holds.2 r.last.toNat_lt

theorem not_holds_of_long (long : wordCount 64 ≤ a.toNat + n) : ¬ r.Holds a n := by
  intro holds
  exact Nat.not_le_of_lt holds.short long

end Region

namespace RegionTable

/-- The line of a region has its end behind its start. -/
theorem readLine_forward {line : Nat} {text : List Char} {r : Region}
    (read : readLine line text = .ok (some r)) : r.first < r.last := by
  unfold readLine at read
  dsimp only at read
  split at read
  · cases read
  split at read
  · rcases Except.bind_eq_ok_iff.mp read with ⟨first, -, read⟩
    rcases Except.bind_eq_ok_iff.mp read with ⟨last, -, read⟩
    rcases Except.bind_eq_ok_iff.mp read with ⟨offset, -, read⟩
    split at read
    · cases read
    · rename_i behind
      cases read
      exact UInt64.not_le.mp behind
  · cases read

theorem parse_forward {text : String} {regions : List Region} (parsed : parse text = .ok regions) :
    forall r, r ∈ regions -> r.first < r.last := by
  unfold parse at parsed
  rcases Except.bind_eq_ok_iff.mp parsed with ⟨found, lines, parsed⟩
  dsimp only at parsed
  split at parsed
  · cases parsed
  · cases parsed
    intro r member
    rcases List.mem_filterMap.mp member with ⟨line, listed, rfl⟩
    rcases Except.mapM_ok lines _ listed with ⟨_, -, read⟩
    exact readLine_forward read

end RegionTable

namespace Snapshot

/-- Every region goes forward and lies inside the dump. -/
structure Fitted (s : Snapshot) : Prop where
  forward : forall r, r ∈ s.regions -> r.first.toNat ≤ r.last.toNat
  inside : forall r, r ∈ s.regions -> r.offset + r.size ≤ s.data.size

/-- The ways in which a snapshot comes about: from a dump and a region table,
from a dump that was captured as one region, or from bytes at an address.  A
dump has fewer bytes than there are addresses, and one region alone ends within
the address space. -/
inductive Opened : Snapshot -> Prop where
  | files {data : Array UInt8} {table : String} {s : Snapshot}
      (small : data.size < wordCount 64 - 1) (opened : ofFiles (some data) (some table) = .ok s) :
      Opened s
  | flatFile {data : Array UInt8} {base : Address} {s : Snapshot}
      (within : base.toNat + data.size < wordCount 64)
      (opened : ofFlatFile (some data) base = .ok s) : Opened s
  | region {data : Array UInt8} {base : Address}
      (within : base.toNat + data.size < wordCount 64) : Opened (ofRegion base data)

/-- A region table is only accepted if its regions lie inside the dump. -/
theorem ofFiles_fitted {data : Array UInt8} {table : String} {s : Snapshot}
    (small : data.size < wordCount 64 - 1) (opened : ofFiles (some data) (some table) = .ok s) :
    s.Fitted := by
  unfold ofFiles at opened
  dsimp only at opened
  split at opened
  · cases opened
  rename_i regions parsed
  split at opened
  · cases opened
  · rename_i none
    cases opened
    constructor
    · exact fun r member => Nat.le_of_lt (RegionTable.parse_forward parsed r member)
    · intro r member
      have ends := List.find?_eq_none.mp none r member
      simp only [decide_eq_true_eq, Nat.not_lt] at ends
      show r.offset + r.size ≤ data.size
      omega

theorem ofRegion_fitted {data : Array UInt8} {base : Address}
    (within : base.toNat + data.size < wordCount 64) : (ofRegion base data).Fitted := by
  have ends : (base.shift data.size).toNat = base.toNat + data.size := Address.toNat_shift within
  constructor
  · intro r member
    rw [List.mem_singleton.mp member]
    show base.toNat ≤ (base.shift data.size).toNat
    omega
  · intro r member
    rw [List.mem_singleton.mp member]
    show 0 + ((base.shift data.size).toNat - base.toNat) ≤ data.size
    omega

theorem Opened.fitted {s : Snapshot} (opened : s.Opened) : s.Fitted := by
  cases opened with
  | files small opened => exact ofFiles_fitted small opened
  | flatFile within opened =>
      cases opened
      exact ofRegion_fitted within
  | region within => exact ofRegion_fitted within

/-! ## Reading -/

variable {s : Snapshot} {a : Address} {n : Nat}

/-- A read is answered by the first region that is taken to contain it, as far
as the dump goes. -/
theorem read_eq_ok_iff {bytes : List UInt8} : s.read a n = .ok bytes <->
    ∃ r, s.regions.find? (fun r => r.contains a n) = some r ∧ r.position a + n ≤ s.data.size ∧
      (s.data.extract (r.position a) (r.position a + n)).toList = bytes := by
  unfold read position?
  cases found : s.regions.find? (fun r => r.contains a n) with
  | none => simp
  | some r =>
      by_cases fits : r.position a + n ≤ s.data.size
      · have kept : r.offset + (a.toNat - r.first.toNat) + n ≤ s.data.size := fits
        simp [kept, Region.position]
      · have kept : ¬ r.offset + (a.toNat - r.first.toNat) + n ≤ s.data.size := fits
        simp [kept, Region.position]

theorem exists_read_iff : (∃ bytes, s.read a n = .ok bytes) <->
    ∃ r, s.regions.find? (fun r => r.contains a n) = some r ∧ r.position a + n ≤ s.data.size := by
  simp only [read_eq_ok_iff]
  constructor
  · rintro ⟨bytes, r, found, fits, -⟩
    exact ⟨r, found, fits⟩
  · rintro ⟨r, found, fits⟩
    exact ⟨_, r, found, fits, rfl⟩

/-- The first region that holds a range. -/
def holder? (s : Snapshot) (a : Address) (n : Nat) : Option Region :=
  s.regions.find? (fun r => r.Holds a n)

theorem holds_of_holder? {r : Region} (found : s.holder? a n = some r) : r ∈ s.regions ∧ r.Holds a n :=
  ⟨List.mem_of_find?_eq_some found, by simpa using List.find?_some found⟩

theorem exists_holder? {r : Region} (member : r ∈ s.regions) (holds : r.Holds a n) :
    ∃ first, s.holder? a n = some first :=
  Option.isSome_iff_exists.mp (List.find?_isSome.mpr ⟨r, member, decide_eq_true holds⟩)

/-- Within the address space the reader looks for the holder of the range. -/
theorem find?_contains_of_short (short : a.toNat + n < wordCount 64) :
    s.regions.find? (fun r => r.contains a n) = s.holder? a n := by
  refine congrArg (fun asked => s.regions.find? asked) (funext fun r => ?_)
  rw [Bool.eq_iff_iff, Region.contains_iff_holds short, decide_eq_true_iff]

/-- The bytes are those that the region keeps for the addresses from `a` on,
and all of them belong to the region. -/
def KeptBy (s : Snapshot) (r : Region) (a : Address) (bytes : List UInt8) : Prop :=
  forall i (_ : i < bytes.length), s.data[r.position a + i]? = some bytes[i] ∧
    r.offset ≤ r.position a + i ∧ r.position a + i < r.offset + r.size

/-- What is read of a range that a region holds is kept by its holder. -/
theorem Fitted.read_of_holder? (fitted : s.Fitted) {r : Region} (found : s.holder? a n = some r) :
    ∃ bytes, s.read a n = .ok bytes ∧ bytes.length = n ∧ s.KeptBy r a bytes := by
  rcases holds_of_holder? found with ⟨member, holds⟩
  have inside := fitted.inside r member
  have ends := holds.position_add_le
  rw [← find?_contains_of_short holds.short] at found
  have read := read_eq_ok_iff.mpr ⟨r, found, Nat.le_trans ends inside, rfl⟩
  have length := length_read read
  refine ⟨_, read, length, fun i below => ⟨?_, ?_, ?_⟩⟩
  · rw [Array.getElem_toList, Array.getElem_extract, Array.getElem?_eq_getElem]
  · exact Nat.le_trans (Nat.le_add_right _ _) (Nat.le_add_right _ _)
  · omega

/-- What is read from a single region that ends before the last address lies inside
the region. -/
theorem holds_of_read_of_single {r : Region} (single : s.regions = [r])
    (ends : r.last.toNat < wordCount 64 - 1) {bytes : List UInt8} (read : s.read a n = .ok bytes) :
    r.Holds a n := by
  rcases read_eq_ok_iff.mp read with ⟨found, contained, -⟩
  have only := List.mem_of_find?_eq_some contained
  rw [single, List.mem_singleton] at only
  have contains : r.contains a n = true := by
    rw [← only]
    simpa using List.find?_some contained
  -- The region does not reach up to where the end of a range is cut off.
  rcases Region.contains_iff.mp contains with ⟨begins, reaches⟩
  exact ⟨begins, by omega⟩

/-- When a read succeeds and what it gives.  Within the address space a read
succeeds exactly if a region holds the range, and gives as many bytes as were
asked for, those that the first such region keeps.  No region holds a range
that goes past the last address.  Such a range can be read all the same, where
a region reaches up to the last address and the dump goes on behind it. -/
theorem read_succeeds_iff (opened : s.Opened) (a : Address) (n : Nat) :
    (a.toNat + n < wordCount 64 ->
      ((∃ bytes, s.read a n = .ok bytes) <-> ∃ r, r ∈ s.regions ∧ r.Holds a n) ∧
      forall bytes, s.read a n = .ok bytes -> bytes.length = n ∧
        ∃ r, s.holder? a n = some r ∧ s.KeptBy r a bytes) ∧
    (wordCount 64 ≤ a.toNat + n ->
      (forall r : Region, ¬ r.Holds a n) ∧
      ((∃ bytes, s.read a n = .ok bytes) <-> ∃ r,
        s.regions.find? (fun r => r.first ≤ a && r.last.toNat = wordCount 64 - 1) = some r ∧
          r.position a + n ≤ s.data.size)) := by
  constructor
  · intro short
    have held : forall bytes, s.read a n = .ok bytes -> ∃ r, s.holder? a n = some r := by
      intro bytes read
      rcases read_eq_ok_iff.mp read with ⟨r, found, -⟩
      exact ⟨r, (find?_contains_of_short short).symm.trans found⟩
    constructor
    · constructor
      · rintro ⟨bytes, read⟩
        rcases held bytes read with ⟨r, found⟩
        exact ⟨r, holds_of_holder? found⟩
      · rintro ⟨r, member, holds⟩
        rcases exists_holder? member holds with ⟨first, found⟩
        rcases opened.fitted.read_of_holder? found with ⟨bytes, read, -⟩
        exact ⟨bytes, read⟩
    · intro bytes read
      rcases held bytes read with ⟨r, found⟩
      rcases opened.fitted.read_of_holder? found with ⟨bytes', read', length, kept⟩
      cases read.symm.trans read'
      exact ⟨length, r, found, kept⟩
  · intro long
    refine ⟨fun r => Region.not_holds_of_long long, ?_⟩
    -- The end of the range is cut off, so its length has no say in which region answers.
    have same : (fun r : Region => r.contains a n) =
        fun r => r.first ≤ a && r.last.toNat = wordCount 64 - 1 := by
      funext r
      rw [Bool.eq_iff_iff, Region.contains_iff_reaches long, Bool.and_eq_true, decide_eq_true_iff,
        decide_eq_true_iff, UInt64.le_iff_toNat_le]
    rw [exists_read_iff, same]

/-- A dump of six bytes that were captured from two places. -/
def twoPlaces : Snapshot where
  data := #[10, 11, 12, 13, 14, 15]
  regions := [⟨0x1000, 0x1004, 0⟩, ⟨0x7ff600000000, 0x7ff600000002, 4⟩]

def twoPlacesTable : String :=
  "# start end size file_offset\n0x1000 0x1004 0x4 0x0\n0x7ff600000000 0x7ff600000002 0x2 0x4\n"

theorem twoPlaces_opened : twoPlaces.Opened := by
  have opened : ofFiles (some twoPlaces.data) (some twoPlacesTable) = .ok twoPlaces := rfl
  exact .files (by decide) opened

theorem read_succeeds_iff_at_twoPlaces : twoPlaces.Opened ∧
    ((∃ bytes, twoPlaces.read 0x7ff600000000 2 = .ok bytes) <->
      ∃ r, r ∈ twoPlaces.regions ∧ r.Holds 0x7ff600000000 2) ∧
    forall bytes, twoPlaces.read 0x1001 3 = .ok bytes -> bytes.length = 3 ∧
      ∃ r, twoPlaces.holder? 0x1001 3 = some r ∧ twoPlaces.KeptBy r 0x1001 bytes :=
  ⟨twoPlaces_opened, ((read_succeeds_iff twoPlaces_opened 0x7ff600000000 2).1 (by decide)).1,
    ((read_succeeds_iff twoPlaces_opened 0x1001 3).1 (by decide)).2⟩

/-- A region table that is accepted can let a read go past its one region: the
region ends with the last address but one, and the dump goes on behind it. -/
theorem accepted_reads_past_region : ∃ s,
    ofFiles (some (Array.replicate 16 7)) (some "0xfffffffffffffff0 0xffffffffffffffff 0xf 0x0") = .ok s ∧
    s.Opened ∧ (forall r, r ∈ s.regions -> ¬ r.Holds 0xfffffffffffffff0 16) ∧
    s.read 0xfffffffffffffff0 16 = .ok (List.replicate 16 7) := by
  have opened : ofFiles (some (Array.replicate 16 7))
      (some "0xfffffffffffffff0 0xffffffffffffffff 0xf 0x0") =
      .ok ⟨Array.replicate 16 7, [⟨0xfffffffffffffff0, 0xffffffffffffffff, 0⟩]⟩ := rfl
  exact ⟨_, opened, .files (by decide) opened, by decide, by decide⟩

end Snapshot

end MemoryAtlas
