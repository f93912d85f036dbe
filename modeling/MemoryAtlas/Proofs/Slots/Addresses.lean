import MemoryAtlas.Proofs.Image.Captured
import MemoryAtlas.Proofs.Slots.History

namespace MemoryAtlas
namespace Directory

/-!
# Slots and their addresses

A slot has an address, and an address is looked up to find its slot.  The way there
adds the room of the slots before it to the start of the table, the way back
subtracts the start and divides.  Both ways are inverse to each other as long as the
whole table lies within the address space and every slot carries its own number.

The numbers are those of the last load, whatever has been attached since.  A table
that was read from a snapshot of one region lies inside the region, if the region
ends before the last address.  One that ends with it lets a longer range pass; the
slots of such a table need not all have addresses, and nothing is said about them
here.
-/

/-- The loads of a run that succeed read snapshots of one region, each of which ends
before the last address. -/
def FromRegions (acts : List Act) : Prop :=
  forall l, Act.load l ∈ acts -> (Act.load l).Renews ->
    ∃ (s : Snapshot) (r : Region),
      l.memory = s.memory ∧ s.regions = [r] ∧ r.last.toNat < wordCount 64 - 1

/-- The slots are numbered in order, and the table lies within the address space. -/
structure Placed (d : Directory) : Prop where
  number : forall i, i < d.size -> (d.slot i).number = i
  within : d.start.toNat + d.size * slotSize < wordCount 64

theorem after_within {acts : List Act} (captured : FromRegions acts) :
    (after acts).start.toNat + (after acts).size * slotSize < wordCount 64 := by
  cases leaves acts with
  | @loaded before since l bytes split reads quiet tells =>
      have member : Act.load l ∈ acts := by
        rw [split]
        exact List.mem_append_right _ List.mem_cons_self
      rcases captured l member ⟨bytes, reads⟩ with ⟨s, r, memory, single, ends⟩
      have read := reads.read
      rw [memory] at read
      rw [tells.start, tells.size]
      exact (Snapshot.holds_of_read_of_single single ends read).short
  | unloaded split lasts quiet nothing =>
      rw [nothing]
      decide

/-- Whatever a run has done, the slots that it leaves are in their places. -/
theorem after_placed {acts : List Act} (captured : FromRegions acts) : (after acts).Placed where
  number := fun _ below => number_of_present (getElem?_slots below)
  within := after_within captured

namespace Placed

variable {d : Directory} (placed : d.Placed)
include placed

/-- The address of a slot is an exact sum. -/
theorem toNat_addressOf {i : Nat} (below : i < d.size) :
    (d.addressOf (d.slot i)).toNat = d.start.toNat + i * slotSize := by
  have loaded : d.isLoaded = true := by
    have : d.slots.size ≠ 0 := Nat.ne_of_gt (Nat.zero_lt_of_lt below)
    simpa [isLoaded] using this
  have within := placed.within
  have before : i * slotSize ≤ d.size * slotSize := Nat.mul_le_mul_right slotSize (Nat.le_of_lt below)
  rw [addressOf, if_pos loaded, placed.number i below]
  exact Address.toNat_shift (by omega)

/-- An address is looked up to a slot exactly if it is the address of the slot. -/
theorem slotAt?_eq_some_iff_addressOf {a : Address} {i : Nat} :
    d.slotAt? a = some i <-> i < d.size ∧ d.addressOf (d.slot i) = a := by
  rw [slotAt?_eq_some_iff]
  refine and_congr_right fun below => ?_
  rw [← UInt64.toNat_inj, placed.toNat_addressOf below]
  exact eq_comm

theorem addressOf_injective {i j : Nat} (below : i < d.size) (below' : j < d.size)
    (same : d.addressOf (d.slot i) = d.addressOf (d.slot j)) : i = j := by
  have sums := congrArg UInt64.toNat same
  rw [placed.toNat_addressOf below, placed.toNat_addressOf below', slotSize] at sums
  omega

end Placed

/-- No slot begins at an address before the table, behind it or between two slots. -/
theorem slotAt?_eq_none_iff {d : Directory} {a : Address} :
    d.slotAt? a = none <-> a.toNat < d.start.toNat ∨ d.start.toNat + d.size * slotSize ≤ a.toNat ∨
      (a.toNat - d.start.toNat) % slotSize ≠ 0 := by
  rw [Option.eq_none_iff_forall_ne_some]
  simp only [ne_eq, slotAt?_eq_some_iff]
  constructor
  · intro missing
    by_contra inside
    apply missing ((a.toNat - d.start.toNat) / slotSize)
    rw [slotSize] at *
    omega
  · rintro outside i ⟨below, place⟩
    rw [slotSize] at *
    omega

/-- Slots and their addresses after any run.  Every slot has an address of its own,
which is an exact sum and is looked up to this slot; an address that is looked up to
a slot is the address of this slot.  All other addresses are looked up to none: those
before the table, at its end or behind it, and those between two slots. -/
theorem slots_round_trip {acts : List Act} (captured : FromRegions acts) {d : Directory}
    (run : d = after acts) :
    (forall i, i < d.size ->
      (d.addressOf (d.slot i)).toNat = d.start.toNat + i * slotSize ∧
      d.slotAt? (d.addressOf (d.slot i)) = some i) ∧
    (forall a i, d.slotAt? a = some i -> i < d.size ∧ d.addressOf (d.slot i) = a) ∧
    (forall i j, i < d.size -> j < d.size -> d.addressOf (d.slot i) = d.addressOf (d.slot j) -> i = j) ∧
    (forall a, d.slotAt? a = none <-> forall i, i < d.size -> d.addressOf (d.slot i) ≠ a) ∧
    (forall a, d.slotAt? a = none <-> a.toNat < d.start.toNat ∨
      d.start.toNat + d.size * slotSize ≤ a.toNat ∨ (a.toNat - d.start.toNat) % slotSize ≠ 0) := by
  subst run
  have placed := after_placed captured
  refine ⟨fun i below => ⟨placed.toNat_addressOf below, ?_⟩, fun a i found => ?_,
    fun i j => placed.addressOf_injective, fun a => ?_, fun a => slotAt?_eq_none_iff⟩
  · exact placed.slotAt?_eq_some_iff_addressOf.mpr ⟨below, rfl⟩
  · exact placed.slotAt?_eq_some_iff_addressOf.mp found
  · rw [Option.eq_none_iff_forall_ne_some]
    simp only [ne_eq, placed.slotAt?_eq_some_iff_addressOf, not_and]

/-- A table of three slots that begins at an odd address and ends with its region, one
address before the last. -/
def highTable : Load where
  memory := (Snapshot.ofRegion 0xffffffffffffffe6 (Array.replicate 24 0)).memory
  start := 0xffffffffffffffe6
  count := 3
  symbols := fun _ => none

/-- The table is loaded again after a reset, and a name is attached to its last slot. -/
def reloaded : List Act :=
  [.load twoSlots, .reset, .load highTable, .attach 0xfffffffffffffff6 "last"]

theorem slots_round_trip_at_highTable : FromRegions reloaded ∧
    (after reloaded).size = 3 ∧
    (after reloaded).slotAt? ((after reloaded).addressOf ((after reloaded).slot 2)) = some 2 ∧
    (after reloaded).slotAt? 0xfffffffffffffffe = none := by
  have captured : FromRegions reloaded := by
    have first : ∃ (s : Snapshot) (r : Region),
        twoSlots.memory = s.memory ∧ s.regions = [r] ∧ r.last.toNat < wordCount 64 - 1 :=
      ⟨_, _, rfl, rfl, by decide⟩
    have second : ∃ (s : Snapshot) (r : Region),
        highTable.memory = s.memory ∧ s.regions = [r] ∧ r.last.toNat < wordCount 64 - 1 :=
      ⟨_, _, rfl, rfl, by decide⟩
    intro l member _
    simp only [reloaded, List.mem_cons, Act.load.injEq, reduceCtorEq, false_or, List.not_mem_nil,
      or_false] at member
    rcases member with rfl | rfl
    · exact first
    · exact second
  have size : (after reloaded).size = 3 := by decide
  rcases slots_round_trip captured rfl with ⟨forth, -, -, -, none⟩
  exact ⟨captured, size, (forth 2 (by decide)).2, (none _).mpr (by decide)⟩

end Directory
end MemoryAtlas
