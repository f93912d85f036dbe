import MemoryAtlas.Layout.Difference
import MemoryAtlas.Proofs.Layout.Paths

namespace MemoryAtlas

open Schema Shape

/-!
# Layouts below another path

An object that others are compared with is laid out a second time, below the
path of comparisons.  Both layouts carry out the same visits, so every entry of
the one has a twin in the other at the same address, under the same path below
the path of comparisons.  Comparing an entry with its twin never finds a
difference.

But a path is first looked up as it stands.  If a path of the object begins with
the path of comparisons, it can be the path of the twin of another entry, an
alias, and then two different values are compared.
-/

/-- A path is a name at the top or a path below it. -/
def Under (top path : String) : Prop :=
  (top ++ ".").toList <+: (path ++ ".").toList

instance (top path : String) : Decidable (Under top path) :=
  inferInstanceAs (Decidable (_ <+: _))

/-- The entry as it is recorded below another path. -/
def Entry.below (above : String) (e : Entry) : Entry :=
  { e with path := above ++ "." ++ e.path }

namespace Under

theorem self (top : String) : Under top top :=
  List.prefix_refl _

theorem trans {top middle path : String} (above : Under top middle) (below : Under middle path) :
    Under top path :=
  List.IsPrefix.trans above below

theorem of_append (top rest : String) : Under top (top ++ "." ++ rest) := by
  unfold Under
  simp only [String.toList_append, List.append_assoc]
  exact ⟨rest.toList ++ ".".toList, by simp⟩

theorem of_joinPath {path : String} (present : path ≠ "") (name : String) :
    Under path (joinPath path name) := by
  rw [joinPath_of_ne_empty present]
  exact of_append path name

theorem of_foldl_joinPath {path : String} (present : path ≠ "") (route : List String) :
    Under path (route.foldl joinPath path) := by
  induction route generalizing path with
  | nil => exact self path
  | cons name rest inductionHypothesis =>
      exact (of_joinPath present name).trans (inductionHypothesis (joinPath_ne_empty present name))

theorem length_le {top path : String} (under : Under top path) : top.length ≤ path.length := by
  have shorter := List.IsPrefix.length_le under
  rw [String.length_toList, String.length_toList, String.length_append, String.length_append] at shorter
  exact Nat.le_of_add_le_add_right shorter

/-- Nothing but a dotless path itself stands above it. -/
theorem eq_of_dotless {top path : String} (under : Under top path) (dotless : Dotless path) : top = path := by
  have dot : ".".toList = ['.'] := rfl
  unfold Under at under
  rw [String.toList_append, String.toList_append, dot] at under
  rcases List.prefix_concat_iff.mp under with same | within
  · exact String.toList_inj.mp (List.append_cancel_right same)
  · exact absurd (within.subset (List.mem_append_right _ List.mem_cons_self)) dotless

/-- Of two tops of one path a dotless one stands above the other. -/
theorem of_dotless {top other path : String} (under : Under top path) (dotless : Dotless top)
    (under' : Under other path) : Under top other := by
  rcases List.prefix_or_prefix_of_prefix under under' with above | below
  · exact above
  · have same : other = top := eq_of_dotless below dotless
    exact same ▸ self other

/-- A path stands below one dotless top. -/
theorem unique {top other path : String} (under : Under top path) (dotless : Dotless top)
    (under' : Under other path) (dotless' : Dotless other) : top = other :=
  (under.of_dotless dotless under').eq_of_dotless dotless'

end Under

/-! ## Entries below another path -/

theorem joinPath_append {under : String} (present : under ≠ "") (above name : String) :
    joinPath (above ++ "." ++ under) name = above ++ "." ++ joinPath under name := by
  have longer : above ++ "." ++ under ≠ "" := by
    intro empty
    exact present (String.append_eq_empty_iff.mp empty).2
  rw [joinPath_of_ne_empty longer, joinPath_of_ne_empty present]
  simp only [String.append_assoc]

theorem foldl_joinPath_append {under : String} (present : under ≠ "") (above : String)
    (route : List String) :
    route.foldl joinPath (above ++ "." ++ under) = above ++ "." ++ route.foldl joinPath under := by
  induction route generalizing under with
  | nil => rfl
  | cons name rest inductionHypothesis =>
      rw [List.foldl_cons, List.foldl_cons, joinPath_append present,
        inductionHypothesis (joinPath_ne_empty present name)]

namespace Shape

/-- Parts whose paths stand below another path have all their entries below it. -/
theorem entriesOfParts_below (m : Memory) {above under under' : String} (base : Address)
    {parts : List (String × Nat × Shape)}
    (present : forall part, part ∈ parts -> joinPath under part.1 ≠ "")
    (below : forall part, part ∈ parts -> joinPath under' part.1 = above ++ "." ++ joinPath under part.1) :
    entriesOfParts m under' base parts = (entriesOfParts m under base parts).map (Entry.below above) := by
  rw [entriesOfParts_eq m under' base none, entriesOfParts_eq m under base none, List.map_map]
  refine List.map_congr_left fun v visited => ?_
  rcases mem_visitsOfParts.mp visited with ⟨part, listed, inner, -, rfl⟩
  have path : (inner.part none part.1 part.2.1).path under' =
      above ++ "." ++ (inner.part none part.1 part.2.1).path under := by
    show inner.route.foldl joinPath (joinPath under' part.1) =
      above ++ "." ++ inner.route.foldl joinPath (joinPath under part.1)
    rw [below part listed, foldl_joinPath_append (present part listed)]
  exact congrArg (fun path => Entry.mk path _ _) path

/-- Every entry of a part stands below the path of the part. -/
theorem under_of_mem_entriesOfParts {m : Memory} {under : String} {base : Address}
    {parts : List (String × Nat × Shape)} {e : Entry} (listed : e ∈ entriesOfParts m under base parts) :
    ∃ part, part ∈ parts ∧ (joinPath under part.1 ≠ "" -> Under (joinPath under part.1) e.path) := by
  rw [entriesOfParts_eq m under base none] at listed
  rcases List.mem_map.mp listed with ⟨v, visited, rfl⟩
  rcases mem_visitsOfParts.mp visited with ⟨part, member, inner, -, rfl⟩
  exact ⟨part, member, fun present => Under.of_foldl_joinPath present inner.route⟩

/-- The parts of a whole that is not the top stand properly below its path. -/
theorem below_of_mem_entriesOfParts {m : Memory} {under : String} (present : under ≠ "") {base : Address}
    {parts : List (String × Nat × Shape)} {e : Entry} (listed : e ∈ entriesOfParts m under base parts) :
    Under under e.path ∧ e.path ≠ under := by
  rcases under_of_mem_entriesOfParts listed with ⟨part, -, below⟩
  have within := below (joinPath_ne_empty present part.1)
  refine ⟨(Under.of_joinPath present part.1).trans within, fun same => ?_⟩
  have shorter := within.length_le
  have longer : under.length + 1 ≤ (joinPath under part.1).length := length_foldl_joinPath present [part.1]
  rw [same] at shorter
  omega

theorem entriesOfParts_append (m : Memory) (under : String) (base : Address)
    (parts later : List (String × Nat × Shape)) : entriesOfParts m under base (parts ++ later) =
      entriesOfParts m under base parts ++ entriesOfParts m under base later := by
  induction parts with
  | nil => rfl
  | cons part rest inductionHypothesis =>
      rcases part with ⟨name, offset, shape⟩
      rw [List.cons_append, entriesOfParts, entriesOfParts, inductionHypothesis, List.append_assoc]

end Shape

/-! ## Counterparts -/

namespace OffsetMap

/-- A whole is recorded before its parts, and behind what does not stand below
it. -/
theorem toList_ofEntries_whole {before parts : List Entry} {whole : Entry}
    (outside : forall e, e ∈ before -> ¬ Under whole.path e.path)
    (below : forall e, e ∈ parts -> Under whole.path e.path ∧ e.path ≠ whole.path) :
    (ofEntries (before ++ whole :: parts)).toList =
      (ofEntries before).toList ++ whole :: (ofEntries parts).toList := by
  have first : (ofEntries (whole :: parts)).toList = whole :: (ofEntries parts).toList := by
    rw [← List.singleton_append, toList_ofEntries_append, toList_ofEntries (List.pairwise_singleton _ whole)]
    · rfl
    · intro e listed e' member same
      rw [List.mem_singleton.mp member] at same
      exact (below e listed).2 same.symm
  rw [toList_ofEntries_append, first]
  intro e listed e' member same
  refine outside e' member (same ▸ ?_)
  rcases List.mem_cons.mp listed with rfl | part
  · exact Under.self e.path
  · exact (below e part).1

/-- A value whose path is the path of another one below the path of comparisons
has the same bytes as that one. -/
def AliasesAgree (map : OffsetMap) (m : Memory) (c : Catalog) : Prop :=
  forall e, e ∈ map.toList -> forall e', e' ∈ map.toList -> e.kind.isLeaf = true ->
    e.path = comparisonPath ++ "." ++ e'.path ->
      m.bytes? e.address (c.sizeOf e.kind) = m.bytes? e'.address (c.sizeOf e.kind)

/-- A map and the map of the same entries below another path. -/
structure Twinned (above : String) (map twins : OffsetMap) : Prop where
  indexed : map.Indexed
  indexed_twins : twins.Indexed
  toList_twins : twins.toList = map.toList.map (Entry.below above)

theorem twinned_ofEntries (above : String) (entries : List Entry) :
    Twinned above (ofEntries entries) (ofEntries (entries.map (Entry.below above))) where
  indexed := indexed_ofEntries entries
  indexed_twins := indexed_ofEntries _
  toList_twins := toList_ofEntries_map (fun _ _ => String.append_right_inj (above ++ ".")) entries

/-- Parts whose paths stand below another path are recorded as twins. -/
theorem twinned_of_parts (m : Memory) {above under under' : String} (base : Address)
    {parts : List (String × Nat × Shape)}
    (present : forall part, part ∈ parts -> joinPath under part.1 ≠ "")
    (below : forall part, part ∈ parts -> joinPath under' part.1 = above ++ "." ++ joinPath under part.1) :
    Twinned above (ofEntries (Shape.entriesOfParts m under base parts))
      (ofEntries (Shape.entriesOfParts m under' base parts)) := by
  rw [Shape.entriesOfParts_below m base present below]
  exact twinned_ofEntries above _

/-- Fields of a whole that is not the top are recorded as twins below any other
path. -/
theorem twinned_fieldOffsets (c : Catalog) (o : LayoutOptions) (m : Memory) (root : Address)
    {under : String} (present : under ≠ "") (above : String) (fields : List Field) :
    Twinned above (c.fieldOffsets o m root under fields)
      (c.fieldOffsets o m root (above ++ "." ++ under) fields) :=
  twinned_of_parts m root (fun part _ => joinPath_ne_empty present part.1)
    (fun part _ => joinPath_append present above part.1)

/-- An entry that has a counterpart is no difference exactly if it is not
compared or has the bytes of its counterpart. -/
theorem differenceAt_eq_none_iff {other : OffsetMap} {e twin : Entry} {m : Memory} {c : Catalog}
    (found : other.counterpart? e.path = some twin) : differenceAt m c other e = none <->
      (e.kind.isLeaf = true ->
        m.bytes? e.address (c.sizeOf e.kind) = m.bytes? twin.address (c.sizeOf e.kind)) := by
  rw [differenceAt, found]
  cases e.kind.isLeaf with
  | false => simp
  | true =>
      by_cases same : m.bytes? e.address (c.sizeOf e.kind) = m.bytes? twin.address (c.sizeOf e.kind)
      · simp [same]
      · simp [same]

/-- An entry without a counterpart is no difference. -/
theorem differenceAt_of_no_counterpart {other : OffsetMap} {e : Entry} (m : Memory) (c : Catalog)
    (absent : other.counterpart? e.path = none) : differenceAt m c other e = none := by
  rw [differenceAt, absent]
  split <;> rfl

/-- What is recorded under the path itself comes first. -/
theorem Indexed.counterpart?_of_mem {map : OffsetMap} (indexed : map.Indexed) {e : Entry}
    (recorded : e ∈ map.toList) : map.counterpart? e.path = some e := by
  rw [counterpart?, indexed.entry?_of_mem recorded]
  rfl

/-- A map does not differ from itself. -/
theorem Indexed.differences_self {map : OffsetMap} (indexed : map.Indexed) (m : Memory) (c : Catalog) :
    map.differences map m c = [] := by
  refine List.filterMap_eq_nil_iff.mpr fun e recorded => ?_
  exact (differenceAt_eq_none_iff (indexed.counterpart?_of_mem recorded)).mpr fun _ => rfl

namespace Twinned

variable {above : String} {map twins : OffsetMap} {e e' : Entry}

/-- A path that leads to something among the twins is that of a twin. -/
theorem entry?_eq_none (twinned : Twinned above map twins) {path : String}
    (own : forall e, e ∈ map.toList -> path ≠ above ++ "." ++ e.path) : twins.entry? path = none := by
  refine twinned.indexed_twins.entry?_eq_none fun twin listed spelled => ?_
  rw [twinned.toList_twins] at listed
  rcases List.mem_map.mp listed with ⟨e, recorded, rfl⟩
  exact own e recorded spelled.symm

/-- A path below the other path leads to the twin of what it led to before. -/
theorem entry?_below (twinned : Twinned above map twins) (path : String) :
    twins.entry? (above ++ "." ++ path) = (map.entry? path).map (Entry.below above) := by
  by_cases known : ∃ e, e ∈ map.toList ∧ e.path = path
  · rcases known with ⟨e, recorded, rfl⟩
    have listed : e.below above ∈ twins.toList := by
      rw [twinned.toList_twins]
      exact List.mem_map_of_mem recorded
    rw [twinned.indexed.entry?_of_mem recorded]
    exact twinned.indexed_twins.entry?_of_mem listed
  · have absent : forall e, e ∈ map.toList -> e.path ≠ path :=
      fun e recorded spelled => known ⟨e, recorded, spelled⟩
    rw [twinned.indexed.entry?_eq_none absent]
    refine twinned.entry?_eq_none fun e recorded spelled => ?_
    exact absent e recorded ((String.append_right_inj (above ++ ".")).mp spelled).symm

/-- An entry with the path of another one's twin has that twin for its
counterpart. -/
theorem counterpart?_of_alias (twinned : Twinned comparisonPath map twins) (recorded : e' ∈ map.toList)
    (spelled : e.path = comparisonPath ++ "." ++ e'.path) :
    twins.counterpart? e.path = some (e'.below comparisonPath) := by
  rw [counterpart?, spelled, twinned.entry?_below, twinned.indexed.entry?_of_mem recorded]
  rfl

/-- Any other entry has for its counterpart the twin of what its path leads to. -/
theorem counterpart?_eq (twinned : Twinned comparisonPath map twins) {path : String}
    (own : forall e', e' ∈ map.toList -> path ≠ comparisonPath ++ "." ++ e'.path) :
    twins.counterpart? path = (map.entry? path).map (Entry.below comparisonPath) := by
  rw [counterpart?, twinned.entry?_eq_none own, twinned.entry?_below]
  rfl

/-- Compared with its twins a map has no differences precisely if its aliases
agree. -/
theorem differences_eq_nil_iff (twinned : Twinned comparisonPath map twins) {m : Memory} {c : Catalog} :
    map.differences twins m c = [] <-> map.AliasesAgree m c := by
  rw [differences, List.filterMap_eq_nil_iff]
  refine forall₂_congr fun e recorded => ?_
  -- An alias is compared with what it is an alias of, and any other entry with its own twin.
  by_cases aliased : ∃ e', e' ∈ map.toList ∧ e.path = comparisonPath ++ "." ++ e'.path
  · constructor
    · intro none e' member leaf spelled
      exact (differenceAt_eq_none_iff (twinned.counterpart?_of_alias member spelled)).mp none leaf
    · rcases aliased with ⟨e', member, spelled⟩
      intro agree
      refine (differenceAt_eq_none_iff (twinned.counterpart?_of_alias member spelled)).mpr fun leaf => ?_
      exact agree e' member leaf spelled
  · have own : forall e', e' ∈ map.toList -> e.path ≠ comparisonPath ++ "." ++ e'.path :=
      fun e' member spelled => aliased ⟨e', member, spelled⟩
    have found : twins.counterpart? e.path = some (e.below comparisonPath) := by
      rw [twinned.counterpart?_eq own, twinned.indexed.entry?_of_mem recorded]
      rfl
    refine iff_of_true ((differenceAt_eq_none_iff found).mpr fun _ => rfl) ?_
    exact fun e' member _ spelled => absurd spelled (own e' member)

/-- Where no path begins with the path of comparisons, comparing with the twins
is comparing with the map itself. -/
theorem differences_eq (twinned : Twinned comparisonPath map twins) {first : OffsetMap}
    (plain : forall e, e ∈ first.toList -> ¬ Under comparisonPath e.path)
    (plain' : forall e, e ∈ map.toList -> ¬ Under comparisonPath e.path) (m : Memory) (c : Catalog) :
    first.differences twins m c = first.differences map m c := by
  refine List.filterMap_congr fun e listed => ?_
  have own : forall e', e' ∈ map.toList -> e.path ≠ comparisonPath ++ "." ++ e'.path :=
    fun e' _ spelled => plain e listed (spelled ▸ Under.of_append comparisonPath e'.path)
  have absent : map.entry? (comparisonPath ++ "." ++ e.path) = none :=
    twinned.indexed.entry?_eq_none fun e' recorded spelled =>
      plain' e' recorded (spelled ▸ Under.of_append comparisonPath e.path)
  have direct : map.counterpart? e.path = map.entry? e.path := by
    rw [counterpart?, absent]
    cases map.entry? e.path <;> rfl
  rw [differenceAt, differenceAt, twinned.counterpart?_eq own, direct]
  cases map.entry? e.path <;> rfl

end Twinned

end OffsetMap

end MemoryAtlas
