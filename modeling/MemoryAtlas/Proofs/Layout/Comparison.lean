import MemoryAtlas.Proofs.Layout.Twins

namespace MemoryAtlas

/-!
# Comparing two objects of one shape

Two objects of one type are laid out under the same paths, whatever is stored in
them.  Comparing them goes through the first and looks for each of its values in the
second, under the path itself and only then below the path of comparisons.  In maps
with the same paths in the same order the first of these look-ups always succeeds,
and it finds the value in the same place of the other map, because no map has a
path twice.

So the comparison is one of values side by side.  It reports a pair exactly if the
values are of a kind that is read as it stands and an observer sees different bytes
at their two addresses, where nothing at all may be seen at one of them or at both.
None of this tells the two objects apart: the other way around the same values are
reported, with the two sides changed over.
-/

/-- The kinds whose values are compared by their own bytes: single values, pointers
of every sort, whatever they lead to, and arrays of single values.  None of them
holds a declaration by value, so each has a size in every catalog. -/
inductive Kind.Leaf : Kind -> Prop where
  | scalar (s : Scalar) : Leaf (.scalar s)
  | pointerTo (target : Kind) : Leaf (.pointerTo target)
  | ownedPointer (name : String) : Leaf (.ownedPointer name)
  | slotTable (owner : String) : Leaf (.slotTable owner)
  | scalars (s : Scalar) (count : Nat) : Leaf (.fixedArray (.scalar s) count)

theorem Kind.isLeaf_iff {kind : Kind} : kind.isLeaf = true <-> kind.Leaf := by
  constructor
  · intro leaf
    cases kind with
    | scalar s => exact .scalar s
    | pointerTo target => exact .pointerTo target
    | ownedPointer name => exact .ownedPointer name
    | slotTable owner => exact .slotTable owner
    | fixedArray element count =>
        cases element with
        | scalar s => exact .scalars s count
        | _ => cases leaf
    | _ => cases leaf
  · rintro (s | target | name | owner | ⟨s, count⟩) <;> rfl

/-- What there is to see of `n` bytes at an address.  Nothing is seen where the place
was not found or cannot be read. -/
inductive Memory.Shows (m : Memory) (a : Address) (n : Nat) : Option (List UInt8) -> Prop where
  | unresolved (nowhere : a = 0) : Shows m a n none
  | unreadable {fault : MemoryFault} (failed : m.read a n = .error fault) : Shows m a n none
  | bytes {bytes : List UInt8} (resolved : a ≠ 0) (read : m.read a n = .ok bytes) : Shows m a n (some bytes)

theorem Memory.bytes?_eq_iff {m : Memory} {a : Address} {n : Nat} {seen : Option (List UInt8)} :
    m.bytes? a n = seen <-> m.Shows a n seen := by
  unfold bytes?
  constructor
  · rintro rfl
    split
    · rename_i nowhere
      exact .unresolved nowhere
    · rename_i resolved
      cases read : m.read a n with
      | error fault => exact .unreadable read
      | ok bytes => exact .bytes resolved read
  · rintro (nowhere | failed | ⟨resolved, read⟩)
    · rw [if_pos nowhere]
    · rw [failed]
      exact ite_self none
    · rw [if_neg resolved, read]
      rfl

/-- A difference as it is seen from the other side. -/
def Difference.swap (d : Difference) : Difference :=
  ⟨d.path, d.second, d.first, d.secondBytes, d.firstBytes⟩

/-- Two values differ: they are compared by their bytes, and what there is to see of
the first one is not what there is to see of the second. -/
structure Differs (m : Memory) (c : Catalog) (e twin : Entry) (d : Difference) : Prop where
  leaf : e.kind.Leaf
  path : d.path = e.path
  first : d.first = e.address
  second : d.second = twin.address
  firstBytes : m.Shows e.address (c.sizeOf e.kind) d.firstBytes
  secondBytes : m.Shows twin.address (c.sizeOf e.kind) d.secondBytes
  different : d.firstBytes ≠ d.secondBytes

theorem Differs.swap {m : Memory} {c : Catalog} {e twin : Entry} {d : Difference}
    (differs : Differs m c e twin d) (path : e.path = twin.path) (kind : e.kind = twin.kind) :
    Differs m c twin e d.swap where
  leaf := kind ▸ differs.leaf
  path := differs.path.trans path
  first := differs.second
  second := differs.first
  firstBytes := kind ▸ differs.secondBytes
  secondBytes := kind ▸ differs.firstBytes
  different := differs.different.symm

/-- The difference at an entry that has a counterpart is the one between the two. -/
theorem differenceAt_eq_some_iff {other : OffsetMap} {e twin : Entry} {m : Memory} {c : Catalog}
    (found : other.counterpart? e.path = some twin) {d : Difference} :
    differenceAt m c other e = some d <-> Differs m c e twin d := by
  rw [differenceAt, found]
  constructor
  · intro reported
    split at reported
    · rename_i leaf
      dsimp only at reported
      split at reported
      · cases reported
      · rename_i different
        cases reported
        exact ⟨Kind.isLeaf_iff.mp leaf, rfl, rfl, rfl, Memory.bytes?_eq_iff.mp rfl,
          Memory.bytes?_eq_iff.mp rfl, different⟩
    · cases reported
  · rintro ⟨leaf, path, first, second, firstBytes, secondBytes, different⟩
    rw [← Memory.bytes?_eq_iff] at firstBytes secondBytes
    rw [← firstBytes, ← secondBytes] at different
    rw [if_pos (Kind.isLeaf_iff.mpr leaf)]
    dsimp only
    rw [if_neg different, firstBytes, secondBytes, ← path, ← first, ← second]

namespace OffsetMap

/-- Two maps have the same paths and kinds in the same order. -/
def SameShape (map other : OffsetMap) : Prop :=
  List.Forall₂ (fun e twin => e.path = twin.path ∧ e.kind = twin.kind) map.toList other.toList

/-- An entry of one map and the entry in the same place of another. -/
def Beside (map other : OffsetMap) (e twin : Entry) : Prop :=
  (e, twin) ∈ map.toList.zip other.toList

variable {map other : OffsetMap} {e twin : Entry} {m : Memory} {c : Catalog}

theorem SameShape.symm (same : map.SameShape other) : other.SameShape map :=
  List.Forall₂.flip (same.imp fun _ _ alike => ⟨alike.1.symm, alike.2.symm⟩)

theorem SameShape.beside (same : map.SameShape other) :
    List.Forall₂ (map.Beside other) map.toList other.toList :=
  List.forall₂_iff_zip.mpr ⟨same.length_eq, id⟩

/-- The counterpart of an entry is the one beside it. -/
theorem SameShape.counterpart? (same : map.SameShape other) (indexed : other.Indexed)
    (beside : map.Beside other e twin) : other.counterpart? e.path = some twin := by
  rw [(List.forall₂_zip same beside).1]
  exact indexed.counterpart?_of_mem (List.of_mem_zip beside).2

/-- Reported are the differences between entries beside each other. -/
theorem SameShape.mem_differences_iff (same : map.SameShape other) (indexed : other.Indexed)
    {d : Difference} : d ∈ map.differences other m c <-> ∃ e twin, map.Beside other e twin ∧ Differs m c e twin d := by
  rw [differences, List.mem_filterMap]
  constructor
  · rintro ⟨e, recorded, reported⟩
    rcases exists_partner same.beside.flip e recorded with ⟨twin, -, beside⟩
    exact ⟨e, twin, beside, (differenceAt_eq_some_iff (same.counterpart? indexed beside)).mp reported⟩
  · rintro ⟨e, twin, beside, differs⟩
    exact ⟨e, (List.of_mem_zip beside).1,
      (differenceAt_eq_some_iff (same.counterpart? indexed beside)).mpr differs⟩

/-- The difference between two entries is the same from both sides. -/
theorem SameShape.differenceAt_swap (same : map.SameShape other) (indexed : map.Indexed)
    (indexed' : other.Indexed) (beside : map.Beside other e twin) :
    differenceAt m c map twin = (differenceAt m c other e).map Difference.swap := by
  have alike := List.forall₂_zip same beside
  have back : map.counterpart? twin.path = some e := by
    rw [← alike.1]
    exact indexed.counterpart?_of_mem (List.of_mem_zip beside).1
  have found := same.counterpart? indexed' beside
  apply Option.ext
  intro d
  rw [Option.map_eq_some_iff, differenceAt_eq_some_iff back]
  constructor
  · intro differs
    exact ⟨d.swap, (differenceAt_eq_some_iff found).mpr (differs.swap alike.1.symm alike.2.symm), rfl⟩
  · rintro ⟨d, reported, rfl⟩
    exact ((differenceAt_eq_some_iff found).mp reported).swap alike.1 alike.2

/-- The other way around the same differences are reported in the same order. -/
theorem SameShape.differences_swap (same : map.SameShape other) (indexed : map.Indexed)
    (indexed' : other.Indexed) :
    other.differences map m c = (map.differences other m c).map Difference.swap := by
  have swapped := map_eq_of_forall₂ same.beside fun e twin _ beside =>
    (same.differenceAt_swap (m := m) (c := c) indexed indexed' beside).symm
  have joined := congrArg (List.filterMap id) swapped
  rw [List.filterMap_map, List.filterMap_map] at joined
  rw [differences, differences, List.map_filterMap]
  exact joined.symm

/-- Differences are reported in the order of the paths. -/
theorem differences_in_order (map other : OffsetMap) (m : Memory) (c : Catalog) :
    ((map.differences other m c).map Difference.path).Sublist (map.toList.map Entry.path) := by
  have spelled : forall e d, differenceAt m c other e = some d -> d.path = e.path := by
    intro e d reported
    cases found : other.counterpart? e.path with
    | none => cases (differenceAt_of_no_counterpart m c found).symm.trans reported
    | some twin => exact ((differenceAt_eq_some_iff found).mp reported).path
  rw [differences]
  induction map.toList with
  | nil => exact .slnil
  | cons e rest inductionHypothesis =>
      cases reported : differenceAt m c other e with
      | none =>
          rw [List.filterMap_cons_none reported]
          exact inductionHypothesis.cons _
      | some d =>
          rw [List.filterMap_cons_some reported, List.map_cons, List.map_cons, spelled e d reported]
          exact inductionHypothesis.cons_cons _

/-- Comparing maps of one shape.  Reported are exactly the values side by side that
are compared by their bytes and do not show the same bytes, each of them once and in
the order of the paths.  The other way around the same ones are reported with the two
sides changed over, and no map differs from itself. -/
theorem differences_exact {entries others : List Entry}
    (same : (ofEntries entries).SameShape (ofEntries others)) (m : Memory) (c : Catalog) :
    (forall d, d ∈ (ofEntries entries).differences (ofEntries others) m c <->
      ∃ e twin, (ofEntries entries).Beside (ofEntries others) e twin ∧ Differs m c e twin d) ∧
    (((ofEntries entries).differences (ofEntries others) m c).map Difference.path).Sublist
      ((ofEntries entries).toList.map Entry.path) ∧
    (((ofEntries entries).differences (ofEntries others) m c).map Difference.path).Nodup ∧
    (ofEntries others).differences (ofEntries entries) m c =
      ((ofEntries entries).differences (ofEntries others) m c).map Difference.swap ∧
    (ofEntries entries).differences (ofEntries entries) m c = [] := by
  have indexed := indexed_ofEntries entries
  have indexed' := indexed_ofEntries others
  have inOrder := differences_in_order (ofEntries entries) (ofEntries others) m c
  exact ⟨fun d => same.mem_differences_iff indexed', inOrder, indexed.nodup_paths.sublist inOrder,
    same.differences_swap indexed indexed', indexed.differences_self m c⟩

/-- A lamp at an address: a switch, a pointer to the next lamp, and two marks that
were not found. -/
def lampAt (a : Address) : List Entry :=
  [⟨"Lamp", a, .composite "Lamp"⟩, ⟨"Lamp.on", a, .scalar ⟨1, .bool⟩⟩,
    ⟨"Lamp.next", a.shift 1, .pointerTo (.composite "Lamp")⟩,
    ⟨"Lamp.marks", 0, .fixedArray (.scalar ⟨1, .unsigned⟩) 2⟩]

/-- Two lamps, the second of which is cut off behind its switch. -/
def twoLamps : Memory :=
  (Snapshot.ofRegion 0x1000 #[1, 9, 0x10, 0, 0, 0, 0, 0, 0, 0]).memory

/-- The switches differ, and so do a pointer that is there and one that cannot be
read.  The marks, of which nothing is seen in either lamp, do not. -/
theorem differences_exact_at_twoLamps :
    (ofEntries (lampAt 0x1000)).SameShape (ofEntries (lampAt 0x1009)) ∧
    ⟨"Lamp.on", 0x1000, 0x1009, some [1], some [0]⟩ ∈
      (ofEntries (lampAt 0x1000)).differences (ofEntries (lampAt 0x1009)) twoLamps .empty ∧
    ⟨"Lamp.next", 0x1001, 0x100a, some [9, 0x10, 0, 0, 0, 0, 0, 0], none⟩ ∈
      (ofEntries (lampAt 0x1000)).differences (ofEntries (lampAt 0x1009)) twoLamps .empty ∧
    ((ofEntries (lampAt 0x1000)).differences (ofEntries (lampAt 0x1009)) twoLamps .empty).map Difference.swap =
      (ofEntries (lampAt 0x1009)).differences (ofEntries (lampAt 0x1000)) twoLamps .empty := by
  have recorded : forall a, (ofEntries (lampAt a)).toList = lampAt a :=
    fun a => toList_ofEntries (by simp [lampAt])
  have same : (ofEntries (lampAt 0x1000)).SameShape (ofEntries (lampAt 0x1009)) := by
    rw [SameShape, recorded, recorded]
    simp [lampAt]
  rcases differences_exact same twoLamps .empty with ⟨exactly, -, -, swapped, -⟩
  refine ⟨same, (exactly _).mpr ?_, (exactly _).mpr ?_, swapped.symm⟩
  · refine ⟨⟨"Lamp.on", 0x1000, .scalar ⟨1, .bool⟩⟩, ⟨"Lamp.on", 0x1009, .scalar ⟨1, .bool⟩⟩, ?_, ?_⟩
    · rw [Beside, recorded, recorded]
      decide
    · exact ⟨.scalar _, rfl, rfl, rfl, .bytes (by decide) rfl, .bytes (by decide) rfl, by decide⟩
  · refine ⟨⟨"Lamp.next", 0x1001, .pointerTo (.composite "Lamp")⟩,
      ⟨"Lamp.next", 0x100a, .pointerTo (.composite "Lamp")⟩, ?_, ?_⟩
    · rw [Beside, recorded, recorded]
      decide
    · exact ⟨.pointerTo _, rfl, rfl, rfl, .bytes (by decide) rfl, .unreadable rfl, by decide⟩

end OffsetMap
end MemoryAtlas
