import Mathlib.Order.Bounds.Basic
import MemoryAtlas.Proofs.Slots.History

namespace MemoryAtlas

/-!
# The nearest labeled slot

A slot is labeled if it points at code and has been named by an observer alone.  The
directory only keeps flags and names, but what they say about a slot can be read off
the history: the last load that succeeded found a readable address in it and no name
for this address, and since then some name has been attached where the slot begins.
A name that came with the load is never taken back, so an imported slot is not
labeled however often it is named.

The nearest labeled slot is looked for from above.  The search begins at the slot that
was asked for or, where the table is shorter, at the last one.  It leaves out slot 0,
and it answers with the greatest number that is labeled.  It answers with the slot that
stands for none exactly if no number is.
-/

/-- The address that slot `i` of a table holds. -/
def Directory.valueAt (bytes : List UInt8) (i : Nat) : Address :=
  UInt64.ofNat (littleEndian (wordAt bytes i))

/-- Slot `i` of a loaded table points at code, came without a name, and has been
named since. -/
structure Load.Labels (l : Load) (bytes : List UInt8) (since : List Directory.Act) (i : Nat) : Prop where
  readable : l.memory.isValid (Directory.valueAt bytes i) = true
  notImported : l.symbols (Directory.valueAt bytes i) = none
  named : ∃ name, Directory.AttachedIn l since i name

/-- The flags and the names of a slot tell whether it is labeled. -/
theorem Slot.Tells.isLabeled_iff {s : Slot} {l : Load} {bytes : List UInt8} {i : Nat}
    {since : List Directory.Act}
    (tells : s.Tells l i (Directory.wordAt bytes i) (Directory.AttachedIn l since i)) :
    Directory.isLabeled s = true <-> l.Labels bytes since i := by
  have value : s.value = Directory.valueAt bytes i := tells.value
  have isValid := tells.isValid
  have isImported := tells.isImported
  have names := tells.names
  rw [value] at isValid isImported names
  rw [Directory.isLabeled, Bool.and_eq_true, Bool.and_eq_true, Bool.not_eq_true', Bool.not_eq_true',
    List.isEmpty_eq_false_iff_exists_mem]
  constructor
  · rintro ⟨⟨readable, plain⟩, name, listed⟩
    have unknown : l.symbols (Directory.valueAt bytes i) = Option.none := by
      rw [Option.eq_none_iff_forall_ne_some]
      intro known found
      rw [isImported.mpr ⟨readable, known, found⟩] at plain
      cases plain
    refine ⟨isValid ▸ readable, unknown, name, ?_⟩
    rcases (names name).mp listed with ⟨-, imported⟩ | attached
    · cases unknown.symm.trans imported
    · exact attached
  · rintro ⟨readable, unknown, name, attached⟩
    have plain : s.isImported = false := by
      refine Bool.eq_false_iff.mpr fun imported => ?_
      rcases isImported.mp imported with ⟨-, known, found⟩
      cases unknown.symm.trans found
    exact ⟨⟨isValid ▸ readable, plain⟩, name, (names name).mpr (.inr attached)⟩

namespace Directory

/-! ## Looking from above -/

/-- The numbers from 1 up to a bound whose slots are labeled. -/
def labeledUpTo (d : Directory) (bound : Nat) : Set Nat :=
  {i | 1 ≤ i ∧ i ≤ bound ∧ ∃ s, d.slots[i]? = some s ∧ isLabeled s = true}

/-- The slot of the greatest of some numbers, or the slot that stands for none if
there is no number. -/
inductive SlotOfGreatest (d : Directory) (numbers : Set Nat) (s : Slot) : Prop where
  | found {i : Nat} (greatest : IsGreatest numbers i) (present : d.slots[i]? = some s)
  | missing (nothing : numbers = ∅) (none : s = .none)

/-- A number that is not labeled makes no difference to the search. -/
theorem labeledUpTo_succ_of_not {d : Directory} {bound : Nat}
    (plain : ¬ ∃ s, d.slots[bound + 1]? = some s ∧ isLabeled s = true) :
    d.labeledUpTo (bound + 1) = d.labeledUpTo bound := by
  ext i
  constructor
  · rintro ⟨positive, within, labeled⟩
    refine ⟨positive, Nat.le_of_lt_succ (Nat.lt_of_le_of_ne within ?_), labeled⟩
    rintro rfl
    exact plain labeled
  · rintro ⟨positive, within, labeled⟩
    exact ⟨positive, Nat.le_succ_of_le within, labeled⟩

/-- The search finds the slot of the greatest number that is labeled. -/
theorem labeledBelow_greatest (d : Directory) (bound : Nat) :
    d.SlotOfGreatest (d.labeledUpTo bound) (d.labeledBelow bound) := by
  induction bound with
  | zero =>
      refine .missing (Set.eq_empty_iff_forall_notMem.mpr ?_) rfl
      rintro i ⟨positive, within, -⟩
      omega
  | succ bound inductionHypothesis =>
      have passed (plain : ¬ ∃ s, d.slots[bound + 1]? = some s ∧ isLabeled s = true) :
          d.SlotOfGreatest (d.labeledUpTo (bound + 1)) (d.labeledBelow bound) := by
        rw [labeledUpTo_succ_of_not plain]
        exact inductionHypothesis
      rw [labeledBelow]
      split
      · rename_i s present
        split
        · rename_i labeled
          refine .found ⟨⟨Nat.succ_pos bound, Nat.le_refl _, s, present, labeled⟩, ?_⟩ present
          exact fun i member => member.2.1
        · rename_i unlabeled
          refine passed ?_
          rintro ⟨other, same, labeled⟩
          cases present.symm.trans same
          exact unlabeled labeled
      · rename_i missing
        refine passed ?_
        rintro ⟨other, same, -⟩
        cases missing.symm.trans same

/-! ## After a run -/

/-- After a run slot `i` has a label: it is one of the last load that succeeded, if the
directory has not been reset since, and it has one by what that load found and by the
names attached since. -/
def LabeledAfter (acts : List Act) (i : Nat) : Prop :=
  ∃ before l since bytes, acts = before ++ .load l :: since ∧ l.Reads bytes ∧ Quiet since ∧
    l.Labels bytes since i

/-- The numbers that come into question for the nearest label. -/
def candidates (acts : List Act) (number : Nat) : Set Nat :=
  {i | 1 ≤ i ∧ i ≤ min number ((after acts).size - 1) ∧ LabeledAfter acts i}

/-- What the slots of a directory tell about labels is what the history says. -/
theorem isLabeled_iff_labeledAfter {acts : List Act} {i : Nat} {s : Slot}
    (present : (after acts).slots[i]? = some s) : isLabeled s = true <-> LabeledAfter acts i := by
  constructor
  · intro labeled
    cases leaves acts with
    | @loaded before since l bytes split reads quiet tells =>
        have labels := (tells.slots i s present).isLabeled_iff.mp labeled
        exact ⟨before, l, since, bytes, split, reads, quiet, labels⟩
    | unloaded split ends quiet nothing =>
        rw [nothing] at present
        cases present
  · rintro ⟨before, l, since, bytes, rfl, reads, quiet, labels⟩
    exact ((after_tells reads quiet).slots i s present).isLabeled_iff.mpr labels

theorem candidates_eq (acts : List Act) (number : Nat) :
    candidates acts number = (after acts).labeledUpTo (min number ((after acts).size - 1)) := by
  ext i
  refine and_congr_right fun positive => and_congr_right fun within => ?_
  have below : i < (after acts).size := by omega
  rw [getElem?_slots below]
  simp only [Option.some.injEq, exists_eq_left']
  exact (isLabeled_iff_labeledAfter (getElem?_slots below)).symm

/-- The nearest label after any run.  The slot that is found is the one with the
greatest number from 1 up to the number asked for, or to the last slot if the table is
shorter, that has a label by the history of the run.  The slot that stands for none is
found exactly if no number has a label, and in particular while nothing is loaded. -/
theorem nearestLabeled_by_history (acts : List Act) (number : Nat) :
    (forall i, IsGreatest (candidates acts number) i <->
      (after acts).slots[i]? = some ((after acts).nearestLabeled number) ∧
        (after acts).nearestLabeled number ≠ .none) ∧
    ((after acts).nearestLabeled number = .none <-> candidates acts number = ∅) := by
  have found := labeledBelow_greatest (after acts) (min number ((after acts).size - 1))
  rw [← candidates_eq] at found
  rw [nearestLabeled]
  generalize (after acts).labeledBelow (min number ((after acts).size - 1)) = s at found
  cases found with
  | @found i greatest present =>
      have positive : 1 ≤ i := greatest.1.1
      have some : s ≠ .none := by
        rintro rfl
        have same : 0 = i := number_of_present present
        omega
      refine ⟨fun j => ⟨fun greatest' => ?_, fun ⟨present', _⟩ => ?_⟩, iff_of_false some ?_⟩
      · exact ⟨greatest'.unique greatest ▸ present, some⟩
      · rw [← number_of_present present', number_of_present present]
        exact greatest
      · exact Set.nonempty_iff_ne_empty.mp ⟨i, greatest.1⟩
  | missing nothing none =>
      refine ⟨fun i => iff_of_false ?_ fun ⟨_, present⟩ => present none, iff_of_true none nothing⟩
      rw [nothing]
      exact fun greatest => greatest.1

/-- A table of four slots.  The first three point into the table, and a name is known
for what the second one holds.  The last one points nowhere. -/
def fourSlots : Load where
  memory := (Snapshot.ofRegion 0x1000
    #[0x00, 0x10, 0, 0, 0, 0, 0, 0, 0x08, 0x10, 0, 0, 0, 0, 0, 0,
      0x10, 0x10, 0, 0, 0, 0, 0, 0, 0xad, 0xde, 0, 0, 0, 0, 0, 0]).memory
  start := 0x1000
  count := 4
  symbols := fun a => if a = 0x1008 then some "open" else none

/-- Every slot of the table is named. -/
def allNamed : List Act :=
  [.load fourSlots, .attach 0x1018 "junk", .attach 0x1010 "seek", .attach 0x1008 "close",
    .attach 0x1000 "enter"]

theorem nearestLabeled_by_history_at_fourSlots :
    IsGreatest (candidates allNamed 9) 2 ∧ candidates allNamed 1 = ∅ :=
  ⟨((nearestLabeled_by_history allNamed 9).1 2).mpr (by decide),
    (nearestLabeled_by_history allNamed 1).2.mp (by decide)⟩

end Directory
end MemoryAtlas
