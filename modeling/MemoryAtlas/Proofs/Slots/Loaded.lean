import Mathlib.Data.List.Sort
import MemoryAtlas.Proofs.Sequence
import MemoryAtlas.Slots.Directory

namespace MemoryAtlas

/-!
# What single operations do to a directory

A load reads the whole table at once and makes a slot of each of its words.  An
attached name goes to the slot at its address and to no other.  The names of a
slot stand in ascending order, so that they are determined by which names there
are: neither their order nor their number tells how they came in.
-/

/-! ## The names of a slot -/

/-- Names in ascending order, each once. -/
def AscendingNames (names : List String) : Prop :=
  names.Pairwise (fun earlier later => earlier < later)

theorem mem_insertName {name other : String} {names : List String} :
    other ∈ insertName name names <-> other = name ∨ other ∈ names := by
  induction names with
  | nil => simp [insertName]
  | cons first rest inductionHypothesis =>
      rw [insertName]
      split
      · rename_i same
        subst same
        simp
      split
      · exact List.mem_cons
      · rw [List.mem_cons, inductionHypothesis, List.mem_cons]
        exact or_left_comm

theorem AscendingNames.insertName {names : List String} (ascending : AscendingNames names)
    (name : String) : AscendingNames (insertName name names) := by
  induction names with
  | nil => exact List.pairwise_singleton _ _
  | cons first rest inductionHypothesis =>
      rcases List.pairwise_cons.mp ascending with ⟨above, later⟩
      rw [MemoryAtlas.insertName]
      split
      · exact ascending
      rename_i different
      split
      · rename_i below
        refine List.pairwise_cons.mpr ⟨fun other member => ?_, ascending⟩
        rcases List.mem_cons.mp member with rfl | listed
        · exact below
        · exact String.lt_trans below (above other listed)
      · rename_i notBelow
        refine List.pairwise_cons.mpr ⟨fun other member => ?_, inductionHypothesis later⟩
        rcases mem_insertName.mp member with rfl | listed
        · exact Std.lt_of_le_of_ne (String.not_lt.mp notBelow) (Ne.symm different)
        · exact above other listed

/-- Ascending names are determined by which names there are. -/
theorem AscendingNames.eq_of_mem_iff {names others : List String} (ascending : AscendingNames names)
    (ascending' : AscendingNames others) (same : forall name, name ∈ names <-> name ∈ others) :
    names = others := by
  have asymmetric : forall a b : String, a < b -> b < a -> a = b := fun a b below above =>
    absurd above (String.lt_asymm below)
  have : Std.Antisymm (fun a b : String => a < b) := ⟨asymmetric⟩
  have : Std.Irrefl (fun a b : String => a < b) := ⟨String.lt_irrefl⟩
  exact List.Pairwise.eq_of_mem_iff ascending ascending' same

/-! ## Loading -/

/-- A table to be loaded: where it is, in which memory, and the names known for
code addresses. -/
structure Load where
  memory : Memory
  start : Address
  count : Nat
  symbols : Symbols

namespace Load

/-- The load goes through and reads these bytes. -/
structure Reads (l : Load) (bytes : List UInt8) : Prop where
  start : l.start ≠ 0
  count : l.count ≠ 0
  read : l.memory.read l.start (l.count * slotSize) = .ok bytes

/-- The address of slot `i` of the table.  It is an exact number: a slot behind
the end of the address space has no address. -/
def SlotAt (l : Load) (a : Address) (i : Nat) : Prop :=
  a.toNat = l.start.toNat + i * slotSize

end Load

/-- What a slot tells of the load that it comes from.  Number, value and the two
flags are those of the load.  Its names are the one that the load imported, which
only a readable value has, and the attached ones. -/
structure Slot.Tells (s : Slot) (l : Load) (number : Nat) (word : List UInt8) (Attached : String -> Prop) :
    Prop where
  number : s.number = number
  value : s.value = UInt64.ofNat (littleEndian word)
  isValid : s.isValid = l.memory.isValid s.value
  isImported : s.isImported = true <-> s.isValid = true ∧ ∃ name, l.symbols s.value = some name
  ascending : AscendingNames s.names
  names : forall name,
    name ∈ s.names <-> (s.isValid = true ∧ l.symbols s.value = some name) ∨ Attached name

namespace Slot.Tells

variable {s other : Slot} {l : Load} {number : Nat} {word : List UInt8} {Attached Attached' : String -> Prop}

/-- What a slot tells determines it. -/
theorem eq (tells : s.Tells l number word Attached) (tells' : other.Tells l number word Attached')
    (same : forall name, Attached name <-> Attached' name) : s = other := by
  have value : s.value = other.value := tells.value.trans tells'.value.symm
  have isValid : s.isValid = other.isValid := by rw [tells.isValid, tells'.isValid, value]
  have isImported : s.isImported = other.isImported := by
    rw [Bool.eq_iff_iff, tells.isImported, tells'.isImported, isValid, value]
  have names : s.names = other.names := by
    refine tells.ascending.eq_of_mem_iff tells'.ascending fun name => ?_
    rw [tells.names, tells'.names, isValid, value, same]
  cases s
  cases other
  rw [Slot.mk.injEq]
  exact ⟨tells.number.trans tells'.number.symm, value, isValid, isImported, names⟩

theorem congr (tells : s.Tells l number word Attached) (same : forall name, Attached name <-> Attached' name) :
    s.Tells l number word Attached' :=
  { tells with names := fun name => (tells.names name).trans (or_congr_right (same name)) }

/-- An attached name changes nothing but the names. -/
theorem attach (tells : s.Tells l number word Attached) (name : String) :
    Slot.Tells { s with names := insertName name s.names } l number word
      (fun other => other = name ∨ Attached other) where
  number := tells.number
  value := tells.value
  isValid := tells.isValid
  isImported := tells.isImported
  ascending := tells.ascending.insertName name
  names := by
    intro other
    rw [mem_insertName, tells.names]
    exact or_left_comm

end Slot.Tells

namespace Directory

/-- Word `i` of a row of bytes. -/
def wordAt (bytes : List UInt8) (i : Nat) : List UInt8 :=
  (bytes.drop (i * slotSize)).take slotSize

/-- Words are read one after the other, as long as there are eight bytes left. -/
theorem getElem?_words (bytes : List UInt8) (i : Nat) :
    (words bytes)[i]? = if (i + 1) * slotSize ≤ bytes.length then some (wordAt bytes i) else none := by
  fun_induction words bytes generalizing i with
  | case1 a b c d e f g h rest inductionHypothesis =>
      cases i with
      | zero => simp [wordAt, slotSize]
      | succ i =>
          have moved : wordAt (a :: b :: c :: d :: e :: f :: g :: h :: rest) (i + 1) = wordAt rest i := by
            simp [wordAt, slotSize, Nat.add_mul]
          simp [inductionHypothesis, moved, slotSize, Nat.add_mul]
  | case2 bytes short =>
      have few : bytes.length < slotSize := by
        by_contra enough
        rcases bytes with _ | ⟨a, _ | ⟨b, _ | ⟨c, _ | ⟨d, _ | ⟨e, _ | ⟨f, _ | ⟨g, _ | ⟨h, rest⟩⟩⟩⟩⟩⟩⟩⟩ <;>
          simp [slotSize] at enough
        exact short a b c d e f g h rest rfl
      rw [if_neg (by rw [slotSize] at few ⊢; omega)]
      rfl

/-- A row of `count` words has that many and no more. -/
theorem length_words {bytes : List UInt8} {count : Nat} (length : bytes.length = count * slotSize) :
    (words bytes).length = count := by
  have missing : forall i, (words bytes).length ≤ i <-> count ≤ i := by
    intro i
    rw [← List.getElem?_eq_none_iff, getElem?_words, length, slotSize]
    split <;> simp <;> omega
  exact Nat.le_antisymm ((missing count).mpr (Nat.le_refl count)) ((missing _).mp (Nat.le_refl _))

theorem loadSlot_tells (l : Load) (number : Nat) (word : List UInt8) :
    (loadSlot l.memory l.symbols number word).Tells l number word (fun _ => False) := by
  unfold loadSlot
  dsimp only
  cases valid : l.memory.isValid (UInt64.ofNat (littleEndian word)) with
  | false => exact ⟨rfl, rfl, valid.symm, by simp, List.Pairwise.nil, by simp⟩
  | true =>
      cases known : l.symbols (UInt64.ofNat (littleEndian word)) with
      | none => exact ⟨rfl, rfl, valid.symm, by simp [known], List.Pairwise.nil, by simp [known]⟩
      | some name =>
          refine ⟨rfl, rfl, valid.symm, by simp [known], List.pairwise_singleton _ name, fun other => ?_⟩
          simp only [known, List.mem_singleton, true_and, or_false, Option.some.injEq]
          exact eq_comm

/-- What a directory tells of the load that it comes from and of the names that
have been attached to its slots. -/
structure Tells (d : Directory) (l : Load) (bytes : List UInt8) (Attached : Nat -> String -> Prop) : Prop where
  start : d.start = l.start
  size : d.size = l.count
  slots : forall (i : Nat) (s : Slot), d.slots[i]? = some s -> s.Tells l i (wordAt bytes i) (Attached i)

/-- When a load succeeds, and what there is afterwards. -/
theorem load_eq_ok_iff {l : Load} {d : Directory} : load l.memory l.start l.count l.symbols = .ok d <->
    ∃ bytes, l.Reads bytes ∧
      d = ⟨l.start, ((words bytes).zipIdx.map (fun (w, i) => loadSlot l.memory l.symbols i w)).toArray⟩ := by
  unfold load
  split
  · rename_i nothing
    have refused : forall bytes, ¬ l.Reads bytes := by
      intro bytes reads
      rcases (Bool.or_eq_true _ _).mp nothing with start | count
      · exact reads.start (of_decide_eq_true start)
      · exact reads.count (of_decide_eq_true count)
    simp [refused]
  · rename_i something
    simp only [Bool.or_eq_true, decide_eq_true_eq, not_or] at something
    cases read : l.memory.read l.start (l.count * slotSize) with
    | error fault =>
        have refused : forall bytes, ¬ l.Reads bytes := by
          intro bytes reads
          cases read.symm.trans reads.read
        simp [refused]
    | ok bytes =>
        have only : forall others, l.Reads others <-> others = bytes := by
          intro others
          constructor
          · intro reads
            exact Except.ok.inj (reads.read.symm.trans read)
          · rintro rfl
            exact ⟨something.1, something.2, read⟩
        simp [only, eq_comm]

/-- A load that reads its table makes a slot of each of its words. -/
theorem exists_load {l : Load} {bytes : List UInt8} (reads : l.Reads bytes) :
    ∃ d, load l.memory l.start l.count l.symbols = .ok d ∧ d.Tells l bytes (fun _ _ => False) := by
  refine ⟨_, load_eq_ok_iff.mpr ⟨bytes, reads, rfl⟩, rfl, ?_, ?_⟩
  · simp [size, length_words (l.memory.length_read reads.read)]
  · intro i s found
    simp only [List.getElem?_toArray, List.getElem?_map, List.getElem?_zipIdx, getElem?_words,
      Nat.zero_add, Option.map_map, Option.map_eq_some_iff] at found
    rcases found with ⟨word, read, rfl⟩
    split at read
    · cases read
      exact loadSlot_tells l i _
    · cases read

theorem getElem?_slots {d : Directory} {i : Nat} (below : i < d.size) : d.slots[i]? = some (d.slot i) := by
  rw [slot, Array.getElem?_eq_getElem below, Option.getD_some]

/-! ## Attaching -/

/-- The slot at an address is the one that begins exactly there. -/
theorem slotAt?_eq_some_iff {d : Directory} {a : Address} {i : Nat} :
    d.slotAt? a = some i <-> i < d.size ∧ a.toNat = d.start.toNat + i * slotSize := by
  unfold slotAt?
  split
  · rename_i loaded
    simp only [Bool.and_eq_true, decide_eq_true_eq, UInt64.le_iff_toNat_le] at loaded
    have behind := loaded.2
    dsimp only
    split
    · rename_i begins
      simp only [Bool.and_eq_true, decide_eq_true_eq] at begins
      rw [Option.some.injEq]
      rw [slotSize] at *
      omega
    · rename_i misses
      simp only [Bool.and_eq_true, decide_eq_true_eq] at misses
      simp only [reduceCtorEq, false_iff]
      rw [slotSize] at *
      omega
  · rename_i missing
    simp only [reduceCtorEq, false_iff]
    rintro ⟨below, here⟩
    apply missing
    have loaded : d.isLoaded = true := by
      have : d.slots.size ≠ 0 := Nat.ne_of_gt (Nat.zero_lt_of_lt below)
      simpa [isLoaded] using this
    have behind : d.start ≤ a := UInt64.le_iff_toNat_le.mpr (by omega)
    simp [loaded, behind]

/-- A name is attached exactly where a slot begins. -/
theorem isSome_attach?_iff {d : Directory} {a : Address} (name : String) :
    (d.attach? a name).isSome = true <-> ∃ i, i < d.size ∧ a.toNat = d.start.toNat + i * slotSize := by
  rw [attach?, Option.isSome_map, Option.isSome_iff_exists]
  exact exists_congr fun i => slotAt?_eq_some_iff

/-- An attached name is told of the slot at its address and of no other. -/
theorem Tells.attach {d d' : Directory} {l : Load} {bytes : List UInt8} {Attached : Nat -> String -> Prop}
    (tells : d.Tells l bytes Attached) {a : Address} {name : String} (attached : d.attach? a name = some d') :
    d'.Tells l bytes (fun i other => (l.SlotAt a i ∧ other = name) ∨ Attached i other) := by
  rcases Option.map_eq_some_iff.mp attached with ⟨here, found, rfl⟩
  have place := (slotAt?_eq_some_iff.mp found).2
  rw [tells.start] at place
  refine ⟨tells.start, ?_, ?_⟩
  · exact Array.size_modify.trans tells.size
  · intro i s present
    have only : l.SlotAt a i <-> here = i := by
      rw [Load.SlotAt, place, slotSize]
      omega
    rw [Array.getElem?_modify] at present
    split at present
    · rename_i same
      rcases Option.map_eq_some_iff.mp present with ⟨old, listed, rfl⟩
      exact ((tells.slots i old listed).attach name).congr fun other => by simp [only.mpr same]
    · rename_i different
      exact (tells.slots i s present).congr fun other => by simp [mt only.mp different]

/-- What a directory tells determines it. -/
theorem Tells.eq {d other : Directory} {l : Load} {bytes : List UInt8} {Attached Attached' : Nat -> String -> Prop}
    (tells : d.Tells l bytes Attached) (tells' : other.Tells l bytes Attached')
    (same : forall i name, Attached i name <-> Attached' i name) : d = other := by
  have slots : d.slots = other.slots := by
    have size : d.slots.size = other.slots.size := tells.size.trans tells'.size.symm
    refine Array.ext size fun i below below' => ?_
    exact (tells.slots i _ (Array.getElem?_eq_getElem below)).eq
      (tells'.slots i _ (Array.getElem?_eq_getElem below')) (same i)
  cases d
  cases other
  rw [Directory.mk.injEq]
  exact ⟨tells.start.trans tells'.start.symm, slots⟩

end Directory
end MemoryAtlas
