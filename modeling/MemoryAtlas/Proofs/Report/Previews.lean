import MemoryAtlas.Proofs.Layout.Fitting
import MemoryAtlas.Proofs.Layout.Pointees
import MemoryAtlas.Report.Rendering

namespace MemoryAtlas

open Schema Shape

/-!
# Where shown elements are

Of an array of scalars the first elements are shown.  Each of them is looked for at
the address of the array and its own distance, and this sum is meant to be an
address like any other.

The address of the array itself may have gone around the end of the address space.
Whether a further sum does so too depends on where the array lies: it does where
the end of the address space cuts through the shown elements, and nowhere else.  An
object that ends within the address space has no such array.  What a pointer leads
to need not end there, and nothing in the layout keeps it from being recorded.
-/

/-- From an exact place, so many bytes lead past the end of the address space, or
past a further round of it. -/
def WrapsWithin (place bytes : Nat) : Prop :=
  ∃ round, place < round * 2 ^ 64 ∧ round * 2 ^ 64 ≤ place + bytes

theorem mod_add_lt_iff {place bytes : Nat} : place % 2 ^ 64 + bytes < 2 ^ 64 <-> ¬ WrapsWithin place bytes := by
  constructor
  · rintro short ⟨round, behind, reached⟩
    omega
  · intro within
    by_contra long
    exact within ⟨place / 2 ^ 64 + 1, by omega, by omega⟩

namespace Catalog

/-! ## The room that values take -/

section Sizes

variable {c : Catalog} (consistent : c.Consistent) (wellFounded : WellFounded c.Holds)
include consistent wellFounded

theorem Subject.size_of_mem_visits {subject : Subject} {reach : Nat} {v : Visit}
    (visited : v ∈ subject.visits c reach) (plain : v.kind.isEntity = false) : v.size = c.sizeOf v.kind := by
  cases subject with
  | ofFields under fields => exact size_of_mem_layFields consistent wellFounded visited plain
  | ofChain under chain => exact size_of_mem_layClasses consistent wellFounded visited plain
  | ofName name => exact size_of_mem_topParts consistent wellFounded visited plain

/-- Behind a pointer values take the same room, since the pointer is a shape like
any other. -/
theorem size_of_mem_pointees {left : Nat} {kind : Kind} (isPointer : kind.isPointer = true) {v : Visit}
    (visited : v ∈ c.pointees left kind) (plain : v.kind.isEntity = false) : v.size = c.sizeOf v.kind := by
  have reached : v.behind ∈ (c.shape (left + 1) kind).visits := by
    rw [shape_of_isPointer consistent isPointer]
    exact List.mem_cons_of_mem _ (List.mem_map_of_mem visited)
  have own : v.behind.size = c.sizeOf v.behind.kind :=
    (consistent.grown (left + 1) kind).visit_size_eq consistent wellFounded reached plain
  exact own

end Sizes

/-! ## What distances are counted from -/

/-- The address that the distance of a value is counted from, and the room of what
is laid out there: that of the subject, or behind a pointer that which the last
pointer on the way leads to. -/
inductive Subject.CountsFrom (c : Catalog) (reach : Nat) (subject : Subject) (m : Memory) (root : Address)
    (v : Visit) : Address -> Nat -> Prop where
  | root (direct : v.depth = 0) : CountsFrom c reach subject m root v root (extent (subject.parts c reach))
  | target {left : Nat} {pointer inner : Visit} {target : Address}
      (visited : pointer ∈ subject.visits c reach) (pointee : c.Pointee left pointer inner v)
      (stored : m.readPointer (pointer.address m root) = .ok target) :
      CountsFrom c reach subject m root v target (extent (c.targetParts (c.shape left) pointer.kind))

/-- A value that is resolved is at its distance from there, around the end of the
address space if need be, and ends within the room. -/
theorem Subject.exists_countsFrom {c : Catalog} (consistent : c.Consistent) (wellFounded : WellFounded c.Holds)
    {subject : Subject} {reach : Nat} {v : Visit} (visited : v ∈ subject.visits c reach)
    (plain : v.kind.isEntity = false) {m : Memory} {root : Address} (resolved : v.address m root ≠ 0) :
    ∃ start room, subject.CountsFrom c reach m root v start room ∧
      v.address m root = start.shift v.offset ∧ v.offset + c.sizeOf v.kind ≤ room := by
  by_cases direct : v.depth = 0
  · refine ⟨root, _, .root direct, foldl_take_of_ne_zero m direct resolved, ?_⟩
    rw [← Subject.size_of_mem_visits consistent wellFounded visited plain]
    exact offset_add_size_le_extent visited direct
  · rcases led_subject consistent wellFounded reach subject v visited direct with
      ⟨pointer, alsoVisited, left, inner, pointee⟩
    rw [Visit.Behind.address_eq pointee.steps] at resolved ⊢
    have leads : m.follow (pointer.address m root) ≠ 0 := by
      intro nowhere
      rw [nowhere] at resolved
      exact resolved (List.foldl_fixed' m.take_zero inner.steps)
    rw [pointee.kind] at plain ⊢
    rw [pointee.offset_eq, ← size_of_mem_pointees consistent wellFounded pointee.isPointer pointee.visited plain]
    exact ⟨_, _, .target alsoVisited pointee (Memory.readPointer_of_follow_ne_zero leads),
      foldl_take_of_ne_zero m pointee.direct resolved, offset_add_size_le_extent pointee.visited pointee.direct⟩

end Catalog

namespace Report

/-! ## Previews -/

/-- Where the shown elements of an array are, in exact numbers. -/
def previewPlaces (a : Address) (s : Scalar) (count : Nat) : List Nat :=
  (List.range (min count previewSize)).map (fun i => a.toNat + i * s.width)

/-- How far the last shown element is behind the first one. -/
def previewReach (s : Scalar) (count : Nat) : Nat :=
  (min count previewSize - 1) * s.width

/-- The text of an array of which the elements at some places are shown. -/
def previewText (m : Memory) (s : Scalar) (count : Nat) (places : List Nat) : String :=
  let elements := places.map (fun place => orUnreadable ScalarValue.text (m.readScalar (UInt64.ofNat place) s))
  let more := if places.length < count then ["... " ++ toString (count - places.length) ++ " more"] else []
  "[" ++ ", ".intercalate (elements ++ more) ++ "]"

variable {a : Address} {s : Scalar} {count : Nat}

/-- An array is shown by its elements at these places. -/
theorem valueText_of_array (decoders : Text.Decoders) (c : Catalog) (m : Memory) (map : OffsetMap)
    {entry : Entry} (array : entry.kind = .fixedArray (.scalar s) count) (resolved : entry.address ≠ 0) :
    valueText decoders c m map entry = previewText m s count (previewPlaces entry.address s count) := by
  have places : forall i, UInt64.ofNat (entry.address.toNat + i * s.width) = entry.address.shift (i * s.width) := by
    intro i
    rw [UInt64.ofNat_add, UInt64.ofNat_toNat, Address.shift]
  have shown : valueText decoders c m map entry = arrayText m entry.address s count := by
    simp [valueText, array, resolved, Kind.structName?, Kind.scalar?]
  rw [shown, arrayText, previewText, previewPlaces, List.length_map, List.length_range, List.map_map]
  simp only [Function.comp_def, places]

theorem forall_previewPlaces_iff :
    (forall place, place ∈ previewPlaces a s count -> place < 2 ^ 64) <->
      a.toNat + previewReach s count < 2 ^ 64 := by
  constructor
  · intro each
    by_cases none : min count previewSize = 0
    · rw [previewReach, none, Nat.zero_sub, Nat.zero_mul]
      exact a.toNat_lt
    · exact each _ (List.mem_map_of_mem (List.mem_range.mpr (by omega)))
  · intro last place member
    rcases List.mem_map.mp member with ⟨i, shown, rfl⟩
    have before : i * s.width ≤ previewReach s count :=
      Nat.mul_le_mul_right _ (Nat.le_sub_one_of_lt (List.mem_range.mp shown))
    omega

/-- Shown elements of an array that ends within the address space are all in it. -/
theorem previewPlaces_lt {place : Nat} (member : place ∈ previewPlaces a s count)
    (ends : a.toNat + s.width * count ≤ 2 ^ 64) : place < 2 ^ 64 := by
  rcases List.mem_map.mp member with ⟨i, shown, rfl⟩
  have within : i < count := Nat.lt_of_lt_of_le (List.mem_range.mp shown) (Nat.min_le_left _ _)
  rcases Nat.eq_zero_or_pos s.width with flat | wide
  · rw [flat, Nat.mul_zero]
    exact a.toNat_lt
  · have next : (i + 1) * s.width ≤ count * s.width := Nat.mul_le_mul_right _ within
    rw [Nat.succ_mul, Nat.mul_comm count] at next
    omega

end Report

namespace Catalog

open Report

/-- Where the shown elements of recorded arrays are.  An array that is resolved has
been counted from the place of the subject or from what is stored in a pointer, and
its distance may have led around the end of the address space.  The places of its
shown elements are all addresses exactly if the end of the address space does not
cut through them.  It does not if what is laid out there ends within the address
space. -/
theorem previews_fit_iff {host : Host} {document : Document} {c : Catalog}
    (loaded : load host document = .ok c) (decoders : Text.Decoders)
    (terminates : forall kind, ∃ size, c.SizeRun kind size) (subject : Subject) (o : LayoutOptions)
    (m : Memory) (root : Address) {entry : Entry} (recorded : entry ∈ (subject.offsets c o m root).toList)
    {s : Scalar} {count : Nat} (array : entry.kind = .fixedArray (.scalar s) count)
    (resolved : entry.address ≠ 0) :
    valueText decoders c m (subject.offsets c o m root) entry =
      previewText m s count (previewPlaces entry.address s count) ∧
    ∃ v start room, v ∈ subject.visits c o.reach ∧ v.entry m (subject.under c) root = entry ∧
      subject.CountsFrom c o.reach m root v start room ∧
      entry.address.toNat = (start.toNat + v.offset) % 2 ^ 64 ∧
      ((forall place, place ∈ previewPlaces entry.address s count -> place < 2 ^ 64) <->
        ¬ WrapsWithin (start.toNat + v.offset) (previewReach s count)) ∧
      (start.toNat + room ≤ 2 ^ 64 ->
        forall place, place ∈ previewPlaces entry.address s count -> place < 2 ^ 64) := by
  have consistent := load_consistent loaded
  have wellFounded := wellFounded_of_terminates terminates
  refine ⟨valueText_of_array decoders c m _ array resolved, ?_⟩
  rw [subject.toList_offsets] at recorded
  rcases List.mem_map.mp recorded with ⟨v, listed, rfl⟩
  have visited := (subject.recorded_sublist c o.reach).subset listed
  have kind : v.kind = .fixedArray (.scalar s) count := array
  have plain : v.kind.isEntity = false := by rw [kind]; rfl
  rcases Subject.exists_countsFrom consistent wellFounded visited plain resolved with
    ⟨start, room, counts, place, within⟩
  have address : (v.address m root).toNat = (start.toNat + v.offset) % 2 ^ 64 := by
    rw [place, Address.toNat_shift_mod]
  refine ⟨v, start, room, visited, rfl, counts, address, ?_, fun ends shown member => ?_⟩
  · show (forall place, place ∈ previewPlaces (v.address m root) s count -> place < 2 ^ 64) <-> _
    rw [forall_previewPlaces_iff, address, mod_add_lt_iff]
  · rw [kind, sizeOf_fixedArray consistent wellFounded, sizeOf_scalar consistent wellFounded] at within
    have before : (v.address m root).toNat ≤ start.toNat + v.offset := address ▸ Nat.mod_le _ _
    exact previewPlaces_lt member (by show (v.address m root).toNat + _ ≤ _; omega)

/-- A root that points to a node with two numbers. -/
def nodeWithValues : Document :=
  { Document.empty with
    structs := [("Node", [{ plainField "values" "Qword" with count := some 2 }]),
      ("Root", [{ plainField "node" "Node" with pointer := true }])] }

/-- The catalog of that document. -/
def valuesCatalog : Catalog :=
  { empty with
    names := ⟨[], [], ["Node", "Root"], ["Entity"]⟩
    composites := [("Node", [⟨"values", .fixedArray (.scalar ⟨8, .signed⟩) 2, "Qword", none, none⟩]),
      ("Root", [⟨"node", .pointerTo (.composite "Node"), "Node", none, none⟩])]
    entities := [("Entity", [])] }

theorem load_nodeWithValues : load .standing nodeWithValues = .ok valuesCatalog := by
  let c := valuesCatalog
  let gathered : Gathered := ⟨[], [], []⟩
  have names : (c.tables.flatMap Table.names).Perm ["Entity", "Node", "Root"] := by decide
  exact load_of_stages ⟨[], c.composites, gathered, gathered, gathered, rfl, rfl, rfl, rfl, rfl, rfl, rfl, rfl,
    rfl, rfl, rfl, checkEmbedding_of_perm names (by decide) rfl, rfl, rfl, rfl⟩

theorem valuesCatalog_terminates : forall kind, ∃ size, valuesCatalog.SizeRun kind size :=
  terminates_of_no_class_filed load_nodeWithValues (by decide)

/-- The two numbers of the node. -/
def twoValues : Kind :=
  .fixedArray (.scalar ⟨8, .signed⟩) 2

theorem toList_rootOffsets (m : Memory) : (valuesCatalog.typeOffsets {} m 0x1000 "Root").toList =
    (valuesCatalog.typeVisits 8 "Root").map (Visit.entry m "Root" 0x1000) :=
  toList_typeOffsets_of_nodup (by decide) m 0x1000

/-- The node takes up the last sixteen bytes of the address space. -/
theorem previews_fit_iff_at_nodeWithValues : load .standing nodeWithValues = .ok valuesCatalog ∧
    (forall kind, ∃ size, valuesCatalog.SizeRun kind size) ∧
    ⟨"Root.node.values", 0xfffffffffffffff0, twoValues⟩ ∈
      ((Subject.ofName "Root").offsets valuesCatalog {} (storing 0xfffffffffffffff0) 0x1000).toList ∧
    (0xfffffffffffffff0 : Address) ≠ 0 ∧
    forall place, place ∈ previewPlaces 0xfffffffffffffff0 ⟨8, .signed⟩ 2 -> place < 2 ^ 64 := by
  have recorded : ⟨"Root.node.values", 0xfffffffffffffff0, twoValues⟩ ∈
      ((Subject.ofName "Root").offsets valuesCatalog {} (storing 0xfffffffffffffff0) 0x1000).toList := by
    rw [Subject.offsets, toList_rootOffsets]
    decide
  have resolved : (0xfffffffffffffff0 : Address) ≠ 0 := by decide
  rcases (previews_fit_iff load_nodeWithValues .standard valuesCatalog_terminates (.ofName "Root") {} _
    0x1000 recorded rfl resolved).2 with ⟨v, start, room, -, -, -, address, fit, -⟩
  refine ⟨load_nodeWithValues, valuesCatalog_terminates, recorded, resolved, fit.mpr (mod_add_lt_iff.mp ?_)⟩
  rw [← address]
  decide

/-- Where the pointer leads to the last eight bytes of the address space, the second
number is recorded all the same, and its place is no address. -/
theorem accepted_shows_past_end : load .standing nodeWithValues = .ok valuesCatalog ∧
    (forall kind, ∃ size, valuesCatalog.SizeRun kind size) ∧
    (storing 0xfffffffffffffff8).readPointer 0x1000 = .ok 0xfffffffffffffff8 ∧
    ⟨"Root.node.values", 0xfffffffffffffff8, twoValues⟩ ∈
      (valuesCatalog.typeOffsets {} (storing 0xfffffffffffffff8) 0x1000 "Root").toList ∧
    (0xfffffffffffffff8 : Address) ≠ 0 ∧
    2 ^ 64 ∈ previewPlaces 0xfffffffffffffff8 ⟨8, .signed⟩ 2 := by
  rw [toList_rootOffsets]
  exact ⟨load_nodeWithValues, valuesCatalog_terminates, by decide, by decide, by decide, by decide⟩

end Catalog
end MemoryAtlas
