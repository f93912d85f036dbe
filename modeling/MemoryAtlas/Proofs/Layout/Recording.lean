import Mathlib.Data.List.Forall2
import Mathlib.Data.List.Induction
import MemoryAtlas.Layout.OffsetMap

namespace MemoryAtlas

/-!
# What an offset map records

The index of an offset map answers for its entries: it leads from a path to the
one position where the path is recorded, and from no other path to anywhere.
The empty map has such an index and recording keeps it, so every map that is
made from a list of entries has one.

Which entries of a list are recorded is decided by their paths alone: the first
one under each path is, in the order of the list.  Lists whose paths repeat in the
same places lose the same entries.
-/

namespace OffsetMap

/-- The index of a map and its entries agree. -/
structure Indexed (map : OffsetMap) : Prop where
  index_iff : forall path position, map.index[path]? = some position <->
    ∃ entry : Entry, map.entries[position]? = some entry ∧ entry.path = path

theorem indexed_empty : empty.Indexed where
  index_iff := by
    intro path position
    simp [empty]

theorem Indexed.contains_iff {map : OffsetMap} (indexed : map.Indexed) (path : String) :
    map.contains path = true <-> ∃ entry, entry ∈ map.toList ∧ entry.path = path := by
  rw [contains, Std.HashMap.contains_eq_isSome_getElem?, Option.isSome_iff_exists]
  constructor
  · rintro ⟨position, found⟩
    rcases (indexed.index_iff path position).mp found with ⟨entry, listed, same⟩
    exact ⟨entry, Array.mem_toList_iff.mpr (Array.mem_of_getElem? listed), same⟩
  · rintro ⟨entry, member, same⟩
    rcases Array.getElem?_of_mem (Array.mem_toList_iff.mp member) with ⟨position, listed⟩
    exact ⟨position, (indexed.index_iff path position).mpr ⟨entry, listed, same⟩⟩

theorem Indexed.entry?_of_mem {map : OffsetMap} (indexed : map.Indexed) {entry : Entry}
    (member : entry ∈ map.toList) : map.entry? entry.path = some entry := by
  rcases Array.getElem?_of_mem (Array.mem_toList_iff.mp member) with ⟨position, listed⟩
  have found := (indexed.index_iff entry.path position).mpr ⟨entry, listed, rfl⟩
  unfold entry?
  rw [Std.HashMap.get?_eq_getElem?, found]
  exact listed

theorem Indexed.entry?_eq_none {map : OffsetMap} (indexed : map.Indexed) {path : String}
    (absent : forall entry, entry ∈ map.toList -> entry.path ≠ path) : map.entry? path = none := by
  have missing : map.index[path]? = none := by
    cases found : map.index[path]? with
    | none => rfl
    | some position =>
        rcases (indexed.index_iff path position).mp found with ⟨entry, listed, same⟩
        have member := Array.mem_toList_iff.mpr (Array.mem_of_getElem? listed)
        exact absurd same (absent entry member)
  unfold entry?
  rw [Std.HashMap.get?_eq_getElem?, missing]

/-- A path is recorded once. -/
theorem Indexed.nodup_paths {map : OffsetMap} (indexed : map.Indexed) :
    (map.toList.map Entry.path).Nodup := by
  refine List.pairwise_map.mpr (List.pairwise_iff_getElem.mpr fun i j below below' before spelled => ?_)
  have first := (indexed.index_iff _ i).mpr ⟨_, Array.getElem?_eq_getElem below, rfl⟩
  have second := (indexed.index_iff _ j).mpr ⟨_, Array.getElem?_eq_getElem below', spelled.symm⟩
  exact Nat.ne_of_lt before (Option.some.inj (first.symm.trans second))

/-- An entry whose path is taken changes nothing. -/
theorem insert_of_contains {map : OffsetMap} {entry : Entry}
    (taken : map.contains entry.path = true) : (map.insert entry).2 = map := by
  rw [insert, if_pos taken]

/-- An entry whose path is free comes last. -/
theorem toList_insert {map : OffsetMap} {entry : Entry}
    (free : map.contains entry.path = false) :
    (map.insert entry).2.toList = map.toList ++ [entry] := by
  rw [insert, if_neg (Bool.eq_false_iff.mp free)]
  exact Array.toList_push

theorem Indexed.insert {map : OffsetMap} (indexed : map.Indexed) (entry : Entry) :
    (map.insert entry).2.Indexed := by
  cases taken : map.contains entry.path with
  | true =>
      rw [insert_of_contains taken]
      exact indexed
  | false =>
      rw [OffsetMap.insert, if_neg (Bool.eq_false_iff.mp taken)]
      constructor
      intro path position
      show (map.index.insert entry.path map.entries.size)[path]? = some position <->
        ∃ recorded, (map.entries.push entry)[position]? = some recorded ∧ recorded.path = path
      rw [Std.HashMap.getElem?_insert, Array.getElem?_push]
      by_cases same : entry.path = path
      · subst same
        rw [if_pos (beq_self_eq_true _)]
        by_cases last : position = map.entries.size
        · subst last
          simp
        · rw [if_neg last]
          constructor
          · intro equal
            exact absurd (Option.some.inj equal).symm last
          · rintro ⟨recorded, listed, same⟩
            have member := Array.mem_toList_iff.mpr (Array.mem_of_getElem? listed)
            rw [(indexed.contains_iff entry.path).mpr ⟨recorded, member, same⟩] at taken
            exact absurd taken Bool.true_eq_false.mp
      · rw [if_neg (mt beq_iff_eq.mp same), indexed.index_iff]
        by_cases last : position = map.entries.size
        · subst last
          simp [same]
        · rw [if_neg last]

theorem indexed_ofEntries (entries : List Entry) : (ofEntries entries).Indexed := by
  have kept : forall map : OffsetMap, map.Indexed ->
      (entries.foldl (fun map entry => (map.insert entry).2) map).Indexed := by
    intro map indexed
    induction entries generalizing map with
    | nil => exact indexed
    | cons entry rest inductionHypothesis => exact inductionHypothesis _ (indexed.insert entry)
  exact kept empty indexed_empty

theorem ofEntries_concat (entries : List Entry) (entry : Entry) :
    ofEntries (entries ++ [entry]) = ((ofEntries entries).insert entry).2 := by
  rw [ofEntries, List.foldl_append]
  rfl

/-- A path is recorded as soon as an entry with that path has come. -/
theorem contains_ofEntries {entries : List Entry} {path : String} :
    (ofEntries entries).contains path = true <-> ∃ entry, entry ∈ entries ∧ entry.path = path := by
  induction entries using List.reverseRecOn with
  | nil =>
      rw [(indexed_ofEntries []).contains_iff]
      exact Iff.rfl
  | append_singleton entries last inductionHypothesis =>
      simp only [List.mem_append, List.mem_singleton, or_and_right, exists_or, exists_eq_left]
      rw [← inductionHypothesis, ofEntries_concat]
      cases taken : (ofEntries entries).contains last.path with
      | true =>
          rw [insert_of_contains taken]
          constructor
          · exact .inl
          · rintro (earlier | rfl)
            · exact earlier
            · exact taken
      | false =>
          have indexed := indexed_ofEntries entries
          rw [(indexed.insert last).contains_iff, toList_insert taken, indexed.contains_iff]
          simp only [List.mem_append, List.mem_singleton, or_and_right, exists_or, exists_eq_left]

theorem insert_rejects_iff {map : OffsetMap} {entry : Entry} :
    (map.insert entry).1 = false <-> map.contains entry.path = true := by
  rw [insert]
  split
  · rename_i taken
    simp [taken]
  · rename_i free
    simp [free]

/-! ## Taking out repetitions -/

theorem eraseDupsBy_sublist {Item : Type} (repeats : Item -> Item -> Bool) :
    (items : List Item) -> (items.eraseDupsBy repeats).Sublist items
  | [] => .slnil
  | first :: rest => by
      rw [List.eraseDupsBy_cons]
      exact ((eraseDupsBy_sublist repeats _).trans List.filter_sublist).cons_cons first
termination_by items => items.length
decreasing_by exact Nat.lt_succ_of_le (List.length_filter_le _ rest)

/-- Repetitions among images can be taken out of the items that they are made from. -/
theorem eraseDupsBy_map {Item Image : Type} (f : Item -> Image) (repeats : Image -> Image -> Bool) :
    (items : List Item) -> (items.map f).eraseDupsBy repeats =
      (items.eraseDupsBy fun item earlier => repeats (f item) (f earlier)).map f
  | [] => rfl
  | first :: rest => by
      rw [List.map_cons, List.eraseDupsBy_cons, List.eraseDupsBy_cons, List.map_cons, List.filter_map,
        eraseDupsBy_map f repeats (rest.filter _)]
      rfl
termination_by items => items.length
decreasing_by exact Nat.lt_succ_of_le (List.length_filter_le _ rest)

/-! ## The first entry under each path -/

/-- The entries of a list without those that repeat the path of an earlier one. -/
def firsts : List Entry -> List Entry
  | [] => []
  | entry :: rest => entry :: (firsts rest).filter (fun later => later.path ≠ entry.path)

/-- A choice among entries by their paths can be made before repetitions are taken out
or afterwards. -/
theorem firsts_filter (stays : String -> Bool) (entries : List Entry) :
    firsts (entries.filter fun entry => stays entry.path) = (firsts entries).filter fun entry => stays entry.path := by
  induction entries with
  | nil => rfl
  | cons first rest inductionHypothesis =>
      rw [firsts, List.filter_cons, List.filter_cons]
      cases kept : stays first.path with
      | true =>
          rw [if_pos rfl, if_pos rfl, firsts, inductionHypothesis, List.filter_filter, List.filter_filter]
          simp only [Bool.and_comm]
      | false =>
          rw [if_neg Bool.false_ne_true, if_neg Bool.false_ne_true, inductionHypothesis, List.filter_filter]
          refine List.filter_congr fun later _ => ?_
          -- what stays has another path than `first`, so `first` takes none of it out
          by_cases same : later.path = first.path
          · simp [same, kept]
          · simp [same]

/-- What is left when repetitions are taken out one after the other, as the library does it. -/
theorem firsts_eq_eraseDupsBy : (entries : List Entry) ->
    firsts entries = entries.eraseDupsBy (fun entry earlier => entry.path == earlier.path)
  | [] => rfl
  | first :: rest => by
      rw [List.eraseDupsBy_cons, firsts, ← firsts_filter (fun path => path ≠ first.path),
        firsts_eq_eraseDupsBy (rest.filter fun later => later.path ≠ first.path)]
      simp only [beq_eq_false_iff_ne]
termination_by entries => entries.length
decreasing_by exact Nat.lt_succ_of_le (List.length_filter_le _ rest)

theorem firsts_sublist (entries : List Entry) : (firsts entries).Sublist entries := by
  rw [firsts_eq_eraseDupsBy]
  exact eraseDupsBy_sublist _ entries

theorem firsts_eq_self {entries : List Entry}
    (different : entries.Pairwise (fun entry later => entry.path ≠ later.path)) : firsts entries = entries := by
  induction different with
  | nil => rfl
  | cons apart _ inductionHypothesis =>
      rw [firsts, inductionHypothesis, List.filter_eq_self.mpr]
      exact fun later listed => decide_eq_true (apart later listed).symm

/-- Of later entries those are taken out, too, whose path has come earlier. -/
theorem firsts_append (earlier later : List Entry) :
    firsts (earlier ++ later) =
      firsts earlier ++ (firsts later).filter (fun entry => entry.path ∉ earlier.map Entry.path) := by
  induction earlier with
  | nil => simp [firsts]
  | cons first rest inductionHypothesis =>
      rw [List.cons_append, firsts, firsts, inductionHypothesis, List.filter_append, List.filter_filter,
        List.cons_append]
      simp only [List.map_cons, List.mem_cons, not_or, Bool.decide_and]

theorem firsts_concat (entries : List Entry) (last : Entry) :
    firsts (entries ++ [last]) =
      if last.path ∈ entries.map Entry.path then firsts entries else firsts entries ++ [last] := by
  rw [firsts_append, firsts, firsts, List.filter_nil, List.filter_singleton]
  split <;> simp_all

/-- Recording a list leaves the first entry under each path. -/
theorem toList_ofEntries_eq_firsts (entries : List Entry) : (ofEntries entries).toList = firsts entries := by
  -- from the end, because the last attempt is made on what all the others have left
  induction entries using List.reverseRecOn with
  | nil => rfl
  | append_singleton entries last inductionHypothesis =>
      have taken_iff : (ofEntries entries).contains last.path = true <-> last.path ∈ entries.map Entry.path := by
        rw [contains_ofEntries, List.mem_map]
      rw [ofEntries_concat, firsts_concat]
      cases taken : (ofEntries entries).contains last.path with
      | true => rw [insert_of_contains taken, if_pos (taken_iff.mp taken), inductionHypothesis]
      | false =>
          rw [toList_insert taken, if_neg (mt taken_iff.mpr (Bool.eq_false_iff.mp taken)), inductionHypothesis]

/-- Entries with different paths are all recorded. -/
theorem toList_ofEntries {entries : List Entry}
    (different : entries.Pairwise (fun entry later => entry.path ≠ later.path)) :
    (ofEntries entries).toList = entries :=
  (toList_ofEntries_eq_firsts entries).trans (firsts_eq_self different)

/-- Of entries that share no path with earlier ones the same are recorded as
without those. -/
theorem toList_ofEntries_append {earlier later : List Entry}
    (apart : forall e, e ∈ later -> forall e', e' ∈ earlier -> e'.path ≠ e.path) :
    (ofEntries (earlier ++ later)).toList = (ofEntries earlier).toList ++ (ofEntries later).toList := by
  simp only [toList_ofEntries_eq_firsts, firsts_append]
  refine congrArg (firsts earlier ++ ·) (List.filter_eq_self.mpr fun e listed => decide_eq_true fun repeated => ?_)
  rcases List.mem_map.mp repeated with ⟨e', listed', same⟩
  exact apart e ((firsts_sublist later).mem listed) e' listed' same

/-- Only entries of the list are recorded. -/
theorem mem_of_mem_ofEntries {entries : List Entry} {entry : Entry}
    (member : entry ∈ (ofEntries entries).toList) : entry ∈ entries := by
  rw [toList_ofEntries_eq_firsts] at member
  exact (firsts_sublist entries).mem member

/-- Recording the entries of items leaves those of the first item under each path. -/
theorem toList_ofEntries_of_items {Item : Type} (entry : Item -> Entry) (items : List Item) :
    (ofEntries (items.map entry)).toList =
      (items.eraseDupsBy fun item earlier => (entry item).path == (entry earlier).path).map entry := by
  rw [toList_ofEntries_eq_firsts, firsts_eq_eraseDupsBy, eraseDupsBy_map]

/-! ## Two lists side by side -/

/-- A relation between entries that finds equal paths on one side exactly where
it finds equal paths on the other. -/
def Aligned (Related : Entry -> Entry -> Prop) : Prop :=
  forall ⦃one other one' other'⦄, Related one other -> Related one' other' ->
    (one.path = one'.path <-> other.path = other'.path)

variable {Related : Entry -> Entry -> Prop}

/-- In aligned lists a pair of related entries has its paths listed on both
sides or on none. -/
theorem listed_iff (aligned : Aligned Related) {entries entries' : List Entry}
    (listed : List.Forall₂ Related entries entries') {entry entry' : Entry}
    (related : Related entry entry') :
    (∃ earlier, earlier ∈ entries ∧ earlier.path = entry.path) <->
      ∃ earlier, earlier ∈ entries' ∧ earlier.path = entry'.path := by
  induction listed with
  | nil => simp
  | cons first later inductionHypothesis =>
      rw [List.exists_mem_cons_iff, List.exists_mem_cons_iff, aligned first related, inductionHypothesis]

/-- Recording a pair of related entries keeps two maps side by side. -/
theorem forall₂_insert (aligned : Aligned Related) {map map' : OffsetMap} (indexed : map.Indexed)
    (indexed' : map'.Indexed) (recorded : List.Forall₂ Related map.toList map'.toList)
    {entry entry' : Entry} (related : Related entry entry') :
    List.Forall₂ Related (map.insert entry).2.toList (map'.insert entry').2.toList := by
  have same : map.contains entry.path = map'.contains entry'.path := by
    rw [Bool.eq_iff_iff, indexed.contains_iff, indexed'.contains_iff]
    exact listed_iff aligned recorded related
  cases taken : map.contains entry.path with
  | true =>
      rw [insert_of_contains taken, insert_of_contains (same ▸ taken)]
      exact recorded
  | false =>
      rw [toList_insert taken, toList_insert (same ▸ taken)]
      exact List.rel_append recorded (.cons related .nil)

/-- Lists of related entries are recorded with the same gaps. -/
theorem forall₂_ofEntries (aligned : Aligned Related) {entries entries' : List Entry}
    (related : List.Forall₂ Related entries entries') :
    List.Forall₂ Related (ofEntries entries).toList (ofEntries entries').toList := by
  have kept : forall map map' : OffsetMap, map.Indexed -> map'.Indexed ->
      List.Forall₂ Related map.toList map'.toList ->
      List.Forall₂ Related (entries.foldl (fun map entry => (map.insert entry).2) map).toList
        (entries'.foldl (fun map entry => (map.insert entry).2) map').toList := by
    intro map map' indexed indexed' recorded
    induction related generalizing map map' with
    | nil => exact recorded
    | cons first later inductionHypothesis =>
        exact inductionHypothesis _ _ (indexed.insert _) (indexed'.insert _)
          (forall₂_insert aligned indexed indexed' recorded first)
  exact kept empty empty indexed_empty indexed_empty .nil

/-- Entries that are renamed without confusing their paths are recorded as
before. -/
theorem toList_ofEntries_map {rename : Entry -> Entry}
    (kept : forall e e', (rename e).path = (rename e').path <-> e.path = e'.path) (entries : List Entry) :
    (ofEntries (entries.map rename)).toList = (ofEntries entries).toList.map rename := by
  have aligned : Aligned (fun e renamed => rename e = renamed) := by
    rintro e _ e' _ rfl rfl
    exact (kept e e').symm
  have related : List.Forall₂ (fun e renamed => rename e = renamed) entries (entries.map rename) :=
    List.forall₂_map_right_iff.mpr (List.forall₂_same.mpr fun e _ => rfl)
  have same := List.forall₂_map_left_iff.mpr (forall₂_ofEntries aligned related)
  rw [List.forall₂_eq_eq_eq] at same
  exact same.symm

end OffsetMap

end MemoryAtlas
