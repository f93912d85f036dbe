import MemoryAtlas.Proofs.Layout.Recording

namespace MemoryAtlas
namespace OffsetMap

/-!
# Looking a path up

An offset map holds every path twice, once with its entry and once in the index.
The two are written by one operation and never compared, so nothing would stop a
look-up if they told different stories.  It would lead to the entry of another path,
to a place behind the last entry, or nowhere although the path is listed.

None of this happens to a map that is made by recording entries one after the other.
For every path the index has the position at which a scan of the entries ends, if it
ends at one, and is silent otherwise.  A scan of what has stayed ends at the same
entry as a scan of everything that was offered, because only repetitions are refused.
What a look-up gives is therefore known from the offered entries alone, and so is
which of them were accepted.
-/

/-- Goes through entries for the first one under a path. -/
def scan (entries : List Entry) (path : String) : Option Entry :=
  entries.find? (fun entry => entry.path == path)

/-- What the attempts to record entries one after the other answer. -/
def answers (map : OffsetMap) : List Entry -> List Bool
  | [] => []
  | entry :: rest => (map.insert entry).1 :: (map.insert entry).2.answers rest

/-- The entries of a list that are answered with yes. -/
def accepted (entries : List Entry) (answers : List Bool) : List Entry :=
  ((entries.zip answers).filter Prod.snd).map Prod.fst

/-! ## Scans and repetitions -/

theorem scan_cons (entry : Entry) (rest : List Entry) (path : String) :
    scan (entry :: rest) path = if entry.path = path then some entry else scan rest path := by
  rw [scan, List.find?_cons]
  by_cases same : entry.path = path
  · rw [beq_iff_eq.mpr same, if_pos same]
  · rw [beq_false_of_ne same, if_neg same]
    rfl

/-- A scan does not miss entries under other paths. -/
theorem scan_filter {entries : List Entry} {path : String} {stays : Entry -> Bool}
    (kept : forall entry, entry.path = path -> stays entry = true) :
    scan (entries.filter stays) path = scan entries path := by
  rw [scan, scan, List.find?_filter]
  congr 1
  funext entry
  by_cases sought : entry.path = path
  · simp [sought, kept entry sought]
  · simp [sought]

/-- Taking out repetitions changes no scan. -/
theorem scan_firsts (entries : List Entry) (path : String) : scan (firsts entries) path = scan entries path := by
  induction entries with
  | nil => rfl
  | cons entry rest inductionHypothesis =>
      rw [firsts, scan_cons, scan_cons]
      refine ite_congr rfl (fun _ => rfl) fun other => ?_
      -- what `entry` takes out has its path, and the scan has gone past that
      rw [scan_filter fun later sought => decide_eq_true (sought ▸ Ne.symm other), inductionHypothesis]

/-! ## The index and the entries -/

section Indexed

variable {map : OffsetMap} (indexed : map.Indexed) (path : String)
include indexed

/-- The index leads to the first position of a path. -/
theorem Indexed.index_eq_findIdx? :
    map.index[path]? = map.toList.findIdx? (fun entry => entry.path == path) := by
  have index_iff : forall position, map.index[path]? = some position <->
      ∃ below : position < map.toList.length, (map.toList[position].path == path) = true := by
    intro position
    rw [indexed.index_iff, ← Array.getElem?_toList]
    simp only [List.getElem?_eq_some_iff, beq_iff_eq]
    constructor
    · rintro ⟨_, ⟨below, rfl⟩, same⟩
      exact ⟨below, same⟩
    · rintro ⟨below, same⟩
      exact ⟨_, ⟨below, rfl⟩, same⟩
  apply Option.ext
  intro position
  rw [index_iff, List.findIdx?_eq_some_iff_getElem]
  constructor
  · rintro ⟨below, same⟩
    refine ⟨below, same, fun earlier before repeated => ?_⟩
    have here := (index_iff position).mpr ⟨below, same⟩
    have there := (index_iff earlier).mpr ⟨Nat.lt_trans before below, repeated⟩
    exact absurd (Option.some.inj (there.symm.trans here)) (Nat.ne_of_lt before)
  · rintro ⟨below, same, -⟩
    exact ⟨below, same⟩

/-- A look-up gives what a scan of the entries gives. -/
theorem Indexed.entry?_eq_scan : map.entry? path = scan map.toList path := by
  rw [scan]
  cases found : map.toList.find? (fun entry => entry.path == path) with
  | none =>
      exact indexed.entry?_eq_none fun entry member same =>
        List.find?_eq_none.mp found entry member (beq_iff_eq.mpr same)
  | some entry =>
      have same : entry.path = path := by simpa using List.find?_some found
      rw [← same]
      exact indexed.entry?_of_mem (List.mem_of_find?_eq_some found)

end Indexed

/-! ## The answers on the way -/

theorem length_answers (map : OffsetMap) (entries : List Entry) : (map.answers entries).length = entries.length := by
  induction entries generalizing map with
  | nil => rfl
  | cons entry rest inductionHypothesis => exact congrArg (· + 1) (inductionHypothesis _)

/-- Later attempts are made on the map that earlier ones have left. -/
theorem answers_append (map : OffsetMap) (earlier later : List Entry) :
    map.answers (earlier ++ later) = map.answers earlier ++
      (earlier.foldl (fun map entry => (map.insert entry).2) map).answers later := by
  induction earlier generalizing map with
  | nil => rfl
  | cons entry rest inductionHypothesis => exact congrArg _ (inductionHypothesis _)

/-- One attempt adds its entry exactly if it answers yes. -/
theorem toList_insert_eq (map : OffsetMap) (entry : Entry) :
    (map.insert entry).2.toList = map.toList ++ accepted [entry] [(map.insert entry).1] := by
  cases answer : (map.insert entry).1 with
  | false =>
      rw [insert_of_contains (insert_rejects_iff.mp answer)]
      exact (List.append_nil _).symm
  | true =>
      have free : map.contains entry.path = false := by
        rw [← Bool.not_eq_true, ← insert_rejects_iff, answer]
        exact Bool.true_eq_false.mp
      exact toList_insert free

theorem accepted_append {earlier : List Entry} {yes : List Bool} (same : yes.length = earlier.length)
    (later : List Entry) (yes' : List Bool) :
    accepted (earlier ++ later) (yes ++ yes') = accepted earlier yes ++ accepted later yes' := by
  rw [accepted, List.zip_append same.symm, List.filter_append, List.map_append]
  rfl

/-- The accepted entries are the ones that stay. -/
theorem accepted_answers (entries : List Entry) :
    accepted entries (empty.answers entries) = (ofEntries entries).toList := by
  induction entries using List.reverseRecOn with
  | nil => rfl
  | append_singleton entries last inductionHypothesis =>
      rw [answers_append, accepted_append (length_answers _ _), inductionHypothesis, ofEntries_concat, toList_insert_eq]
      rfl

/-- An attempt answers yes exactly if none before it was made under its path. -/
theorem getElem?_answers (before after : List Entry) (entry : Entry) :
    (empty.answers (before ++ entry :: after))[before.length]? = some true <->
      forall earlier, earlier ∈ before -> earlier.path ≠ entry.path := by
  have answer : (empty.answers (before ++ entry :: after))[before.length]? =
      some ((ofEntries before).insert entry).1 := by
    rw [answers_append, List.getElem?_append_right (Nat.le_of_eq (length_answers _ _)), length_answers, Nat.sub_self]
    rfl
  rw [answer, Option.some_inj, ← Bool.not_eq_false, insert_rejects_iff, contains_ofEntries]
  simp only [not_exists, not_and, ne_eq]

/-! ## Whole runs -/

/-- What entries that were offered one after the other have left, and what was answered
on the way. -/
structure Recorded (entries : List Entry) (answers : List Bool) (map : OffsetMap) : Prop where
  /-- The entries stay in order, without those that repeat an earlier path. -/
  toList_eq : map.toList = entries.eraseDupsBy (fun entry earlier => entry.path == earlier.path)
  /-- No path stands twice. -/
  nodup_paths : (map.toList.map Entry.path).Nodup
  /-- Every entry is answered. -/
  length_answers : answers.length = entries.length
  /-- An entry is accepted exactly if no earlier one has its path. -/
  accepts_iff : forall before entry after, entries = before ++ entry :: after ->
    (answers[before.length]? = some true <-> forall earlier, earlier ∈ before -> earlier.path ≠ entry.path)
  /-- The accepted entries are the ones that stay. -/
  accepted_eq : accepted entries answers = map.toList
  /-- A path stands for the first entry that was offered under it. -/
  entry?_eq : forall path, map.entry? path = scan entries path
  address?_eq : forall path, map.address? path = (scan entries path).map Entry.address
  contains_eq : forall path, map.contains path = (scan entries path).isSome
  /-- The index has the position at which a scan of the entries ends. -/
  index_eq : forall path, map.index[path]? = map.toList.findIdx? (fun entry => entry.path == path)
  /-- A look-up gives what a scan of the entries gives. -/
  entry?_eq_scan : forall path, map.entry? path = scan map.toList path

/-- Whatever entries are recorded one after the other, the first one under each path
stays, in order, and it alone is answered with yes.  Look-ups are answered from these
entries, and the index never parts from them. -/
theorem records_firsts (entries : List Entry) :
    Recorded entries (empty.answers entries) (ofEntries entries) := by
  have indexed := indexed_ofEntries entries
  have stays := toList_ofEntries_eq_firsts entries
  have looked : forall path, entry? (ofEntries entries) path = scan entries path := by
    intro path
    rw [indexed.entry?_eq_scan, stays, scan_firsts]
  exact {
    toList_eq := stays.trans (firsts_eq_eraseDupsBy entries)
    nodup_paths := indexed.nodup_paths
    length_answers := length_answers empty entries
    accepts_iff := by
      rintro before entry after rfl
      exact getElem?_answers before after entry
    accepted_eq := accepted_answers entries
    entry?_eq := looked
    address?_eq := fun path => congrArg (Option.map Entry.address) (looked path)
    contains_eq := by
      intro path
      rw [Bool.eq_iff_iff, contains_ofEntries, scan, List.find?_isSome]
      simp only [beq_iff_eq]
    index_eq := indexed.index_eq_findIdx?
    entry?_eq_scan := indexed.entry?_eq_scan }

/-- A door, its lock, and a value offered under the path of the lock. -/
def doorOffered : List Entry :=
  [⟨"Door", 0x1000, .composite "Door"⟩, ⟨"Door.lock", 0x1000, .composite "Lock"⟩,
    ⟨"Door.lock", 0x1008, .scalar ⟨1, .bool⟩⟩, ⟨"Door.open", 0, .scalar ⟨1, .bool⟩⟩]

/-- The second lock is refused, and what comes behind it is found nevertheless. -/
theorem records_firsts_at_doorOffered :
    (ofEntries doorOffered).toList =
      [⟨"Door", 0x1000, .composite "Door"⟩, ⟨"Door.lock", 0x1000, .composite "Lock"⟩,
        ⟨"Door.open", 0, .scalar ⟨1, .bool⟩⟩] ∧
    (empty.answers doorOffered)[2]? ≠ some true ∧
    (ofEntries doorOffered).address? "Door.lock" = some 0x1000 ∧
    (ofEntries doorOffered).index["Door.open"]? = some 2 ∧
    (ofEntries doorOffered).contains "Door.key" = false := by
  have recorded := records_firsts doorOffered
  have stays := recorded.toList_eq.trans (show doorOffered.eraseDupsBy _ = _ from rfl)
  refine ⟨stays, ?_, ?_, ?_, ?_⟩
  · have accepts := recorded.accepts_iff (doorOffered.take 2) ⟨"Door.lock", 0x1008, .scalar ⟨1, .bool⟩⟩ _ rfl
    exact mt accepts.mp (by decide)
  · exact (recorded.address?_eq "Door.lock").trans rfl
  · rw [recorded.index_eq, stays]
    rfl
  · exact (recorded.contains_eq "Door.key").trans rfl

end OffsetMap
end MemoryAtlas
