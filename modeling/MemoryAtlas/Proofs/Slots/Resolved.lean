import MemoryAtlas.Proofs.Image.Seams
import MemoryAtlas.Proofs.Slots.History
import MemoryAtlas.Slots.Resolution

namespace MemoryAtlas

/-!
# Functions of an object and slots of the directory

What an object's functions are is read in two ways.  The directory has read the
whole table at once, some time ago; a function is read through the object's own
table pointer, one slot at a time, at an address that wraps around.  The pointer
can be anything: it may lie before the table, between two of its slots or behind
it, and the function's index can lead back into the table.

Where the memory has stayed as it was, both ways agree.  Whether a function's slot
is one of the directory depends on its address alone, and if it is one, the code
address is the value that the directory keeps.

That the memory is one region is what makes a slot read alone the same as the slot
as a part of the table.  Of several regions an earlier one that holds only the
slot would answer for it.
-/

/-- What there is to know about a resolved function: where its slot is, what stands
there, and what a directory tells about a slot of its own at that place. -/
structure ResolvedFunction.Agrees (result : ResolvedFunction) (f : VirtualFunction) (m : Memory)
    (table : Address) (d : Directory) : Prop where
  function : result.function = f
  slotAddress : result.slotAddress = table.shift (f.index * slotSize)
  stored : m.readPointer result.slotAddress = .ok result.codeAddress
  slot : forall i,
    result.slot = some i <-> i < d.size ∧ result.slotAddress.toNat = d.start.toNat + i * slotSize
  within : forall i, result.slot = some i ->
    result.codeAddress = (d.slot i).value ∧ result.names = (d.slot i).names
  outside : result.slot = none -> result.names = []

/-- The slots of a directory hold what the memory has at their addresses. -/
def Directory.Current (d : Directory) (m : Memory) : Prop :=
  forall (a : Address) (i : Nat), i < d.size -> a.toNat = d.start.toNat + i * slotSize ->
    m.readPointer a = .ok (d.slot i).value

section

variable {m : Memory} {d : Directory} {table object : Address}

/-- A function that resolves agrees with a directory that is current. -/
theorem VirtualFunction.agrees_of_resolve (current : d.Current m) {f : VirtualFunction}
    {result : ResolvedFunction} (resolved : f.resolve m table d = .ok result) :
    result.Agrees f m table d := by
  rcases Except.bind_eq_ok_iff.mp resolved with ⟨codeAddress, stored, made⟩
  cases made
  refine ⟨rfl, rfl, stored, fun i => Directory.slotAt?_eq_some_iff, fun i found => ?_, fun missing => ?_⟩
  · rcases Directory.slotAt?_eq_some_iff.mp found with ⟨below, place⟩
    have same : Except.ok codeAddress = Except.ok (d.slot i).value :=
      stored.symm.trans (current _ i below place)
    refine ⟨Except.ok.inj same, ?_⟩
    dsimp only at found ⊢
    rw [found]
    rfl
  · dsimp only at missing ⊢
    rw [missing]
    rfl

/-- A function that does not resolve has a slot that cannot be read. -/
theorem VirtualFunction.unreadable_of_resolve {f : VirtualFunction} {fault : MemoryFault}
    (failed : f.resolve m table d = .error fault) :
    m.readPointer (table.shift (f.index * slotSize)) = .error fault := by
  rcases Except.bind_eq_error_iff.mp failed with unreadable | ⟨codeAddress, -, made⟩
  · exact unreadable
  · cases made

/-- The functions that resolve are one for each asked for, in the same order. -/
theorem agrees_of_resolveFunctions (current : d.Current m) {functions : List VirtualFunction}
    {results : List ResolvedFunction} (resolved : resolveFunctions m object functions d = .ok results) :
    ∃ table, m.readPointer object = .ok table ∧
      List.Forall₂ (fun f result => ResolvedFunction.Agrees result f m table d) functions results := by
  rcases Except.bind_eq_ok_iff.mp resolved with ⟨table, pointer, run⟩
  exact ⟨table, pointer, (Except.mapM_forall₂ run).imp fun _ _ => VirtualFunction.agrees_of_resolve current⟩

/-- Where resolving fails, either the table pointer or the slot of a function cannot
be read. -/
theorem unreadable_of_resolveFunctions {functions : List VirtualFunction} {fault : MemoryFault}
    (failed : resolveFunctions m object functions d = .error fault) :
    m.readPointer object = .error fault ∨
      ∃ table f, m.readPointer object = .ok table ∧ f ∈ functions ∧
        m.readPointer (table.shift (f.index * slotSize)) = .error fault := by
  rcases Except.bind_eq_error_iff.mp failed with unreadable | ⟨table, pointer, run⟩
  · exact .inl unreadable
  · rcases Except.mapM_fails run with ⟨f, asked, fails⟩
    exact .inr ⟨table, f, pointer, asked, VirtualFunction.unreadable_of_resolve fails⟩

end

namespace Directory

/-- What a directory tells of a load from a single region is current in the memory
that was loaded from. -/
theorem Tells.current {s : Snapshot} {r : Region} (single : s.regions = [r])
    (ends : r.last.toNat < wordCount 64 - 1) {l : Load} (loaded : l.memory = s.memory)
    {bytes : List UInt8} (reads : l.Reads bytes) {d : Directory} {Attached : Nat -> String -> Prop}
    (tells : d.Tells l bytes Attached) : d.Current s.memory := by
  intro a i below place
  have bulk : s.read l.start (l.count * slotSize) = .ok bytes := by
    have read := reads.read
    rw [loaded] at read
    exact read
  have inside : i * slotSize + slotSize ≤ l.count * slotSize := by
    rw [← tells.size, ← Nat.succ_mul]
    exact Nat.mul_le_mul_right slotSize below
  have shifted : l.start.shift (i * slotSize) = a := by
    apply UInt64.toNat_inj.mp
    rw [← tells.start, Address.toNat_shift (place ▸ a.toNat_lt), place]
  have word : s.read a slotSize = .ok (wordAt bytes i) :=
    shifted ▸ Snapshot.read_piece_of_single single ends bulk inside
  rw [(tells.slots i _ (getElem?_slots below)).value]
  exact congrArg (fun read => (read.map littleEndian).map UInt64.ofNat) word

/-- The functions of an object agree with a directory that was loaded from the same
memory, whatever names have been attached since.  There is one result for each
function, in order.  It has a slot of the directory exactly if its address is that
of a slot, and then code address and names are those of the slot; otherwise it has
no names.  Where there is no result, the table pointer or the slot of a function
cannot be read. -/
theorem resolveFunctions_agree {s : Snapshot} {r : Region} (single : s.regions = [r])
    (ends : r.last.toNat < wordCount 64 - 1) {l : Load} (loaded : l.memory = s.memory)
    {bytes : List UInt8} (reads : l.Reads bytes) {before since : List Act} (quiet : Quiet since)
    {d : Directory} (run : d = after (before ++ .load l :: since)) (object : Address)
    (functions : List VirtualFunction) :
    d.start = l.start ∧ d.size = l.count ∧
    (forall results, resolveFunctions s.memory object functions d = .ok results ->
      ∃ table, s.memory.readPointer object = .ok table ∧
        List.Forall₂ (fun f result => ResolvedFunction.Agrees result f s.memory table d)
          functions results) ∧
    (forall fault, resolveFunctions s.memory object functions d = .error fault ->
      s.memory.readPointer object = .error fault ∨
        ∃ table f, s.memory.readPointer object = .ok table ∧ f ∈ functions ∧
          s.memory.readPointer (table.shift (f.index * slotSize)) = .error fault) := by
  subst run
  have tells : (after (before ++ .load l :: since)).Tells l bytes (AttachedIn l since) :=
    after_tells reads quiet
  have current := tells.current single ends loaded reads
  exact ⟨tells.start, tells.size, fun results => agrees_of_resolveFunctions current,
    fun fault => unreadable_of_resolveFunctions⟩

/-- A table of two slots with an object behind it.  What the object takes for its
table begins with the second slot. -/
def objectBehindTable : Snapshot :=
  .ofRegion 0x1000
    #[0x10, 0x10, 0, 0, 0, 0, 0, 0, 0xad, 0xde, 0, 0, 0, 0, 0, 0, 0x08, 0x10, 0, 0, 0, 0, 0, 0]

/-- The load of this table. -/
def tableBeforeObject : Load where
  memory := objectBehindTable.memory
  start := 0x1000
  count := 2
  symbols := fun _ => none

/-- Functions in the last slot of the table, behind it, and, by an index that wraps
around, in the first slot. -/
def threeFunctions : List VirtualFunction :=
  [⟨0, "close", "", "", "File"⟩, ⟨1, "seek", "", "", "File"⟩, ⟨0x1fffffffffffffff, "open", "", "", "File"⟩]

theorem resolveFunctions_agree_at_objectBehindTable : ∃ r bytes,
    objectBehindTable.regions = [r] ∧ r.last.toNat < wordCount 64 - 1 ∧
    tableBeforeObject.memory = objectBehindTable.memory ∧ tableBeforeObject.Reads bytes ∧
    Quiet [.attach 0x1008 "finish"] ∧
    forall results, resolveFunctions objectBehindTable.memory 0x1010 threeFunctions
        (after ([] ++ .load tableBeforeObject :: [.attach 0x1008 "finish"])) = .ok results ->
      ∃ table, objectBehindTable.memory.readPointer 0x1010 = .ok table ∧
        List.Forall₂ (fun f result => ResolvedFunction.Agrees result f objectBehindTable.memory table
          (after ([] ++ .load tableBeforeObject :: [.attach 0x1008 "finish"]))) threeFunctions results := by
  have single : objectBehindTable.regions = [⟨0x1000, 0x1018, 0⟩] := rfl
  have ends : (0x1018 : Address).toNat < wordCount 64 - 1 := by decide
  have reads : tableBeforeObject.Reads
      [0x10, 0x10, 0, 0, 0, 0, 0, 0, 0xad, 0xde, 0, 0, 0, 0, 0, 0] := ⟨by decide, by decide, rfl⟩
  have quiet : Quiet [.attach 0x1008 "finish"] := by simp [Quiet, Act.Renews]
  exact ⟨_, _, single, ends, rfl, reads, quiet,
    (resolveFunctions_agree single ends rfl reads quiet rfl 0x1010 threeFunctions).2.2.1⟩

example : (resolveFunctions objectBehindTable.memory 0x1010 threeFunctions
      (after [.load tableBeforeObject, .attach 0x1008 "finish"])).map
        (fun results => results.map fun result => (result.slotAddress, result.codeAddress, result.slot, result.names)) =
    .ok [(0x1008, 0xdead, some 1, ["finish"]), (0x1010, 0x1008, none, []), (0x1000, 0x1010, some 0, [])] := by
  decide

end Directory
end MemoryAtlas
