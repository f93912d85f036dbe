import Mathlib
import MemoryAtlas.Proofs.Schema.Chains

namespace MemoryAtlas

open Schema

/-!
# Which hierarchies are accepted

Loading follows the parents of every class once, to accept the hierarchy, and
later once more for every question about a chain, each time with the same limit.
A hierarchy is ranked if nothing is left to find fault with: parents are
classes, and every class can be followed up to the end within the limit.

Nothing but that is asked of a document that declares a hierarchy alone.  And
in every document that has been accepted, whatever else it declares, the chain
of a class is the full line of its parents: the limit has never cut one off.
-/

namespace Schema

/-- The parent of every entry is the root or a class of the hierarchy, an entry
that names its own class apart, and from every class parents lead to the root,
or to a class without a parent, past no more classes than a chain may have. -/
structure Ranked (hierarchy : Table String) : Prop where
  parents_known : forall entry, entry ∈ hierarchy -> entry.1 ≠ entry.2 ->
    entry.2 = rootClass ∨ entry.2 ∈ hierarchy.names
  reaches_top : forall name, name ∈ hierarchy.names ->
    ∃ passed, Ascent (parentsOf hierarchy) name passed ∧ passed.Nodup ∧ passed.length ≤ chainLimit

theorem strayEntry?_eq_none_iff {hierarchy : Table String} : strayEntry? hierarchy = none <->
    forall entry, entry ∈ hierarchy -> entry.1 ≠ entry.2 ->
      entry.2 = rootClass ∨ entry.2 ∈ hierarchy.names := by
  simp only [ strayEntry?, parentsOf, List.find?_eq_none, List.mem_filter, bne_iff_ne, and_imp,
    Bool.and_eq_true, Bool.not_eq_true', not_and, Bool.not_eq_false, Table.contains_iff]
  simp only [or_iff_not_imp_left, ne_eq]

theorem checkHierarchy_succeeds_iff {order : VisitingOrder} {hierarchy : Table String} :
    (∃ parents, checkHierarchy order hierarchy = .ok parents) <-> Ranked hierarchy := by
  constructor
  · rintro ⟨parents, checked⟩
    rcases checkHierarchy_ok checked with ⟨rfl, noStray, followed⟩
    refine ⟨strayEntry?_eq_none_iff.mp noStray, fun name _ => ?_⟩
    by_cases child : name ∈ (parentsOf hierarchy).names
    · rcases checkChain_ok_iff.mp (followed name child) with ⟨passed, ascent, nodup, short, -⟩
      exact ⟨passed, ascent, nodup, short⟩
    by_cases root : name = rootClass
    · exact ⟨[], root ▸ .root, List.nodup_nil, Nat.zero_le _⟩
    · exact ⟨[name], .orphan root (Table.find?_eq_none_iff.mpr child), List.nodup_singleton _, Nat.le_add_left 1 31⟩
  · intro ranked
    have followed : forall name, name ∈ (parentsOf hierarchy).names ->
        checkChain (parentsOf hierarchy) name chainLimit [] name = .ok () := by
      intro name child
      rcases ranked.reaches_top name (mem_hierarchy_of_mem_parentsOf child) with
        ⟨passed, ascent, nodup, short⟩
      exact checkChain_ok_iff.mpr ⟨passed, ascent, nodup, short, fun _ _ => List.not_mem_nil⟩
    refine ⟨parentsOf hierarchy, ?_⟩
    unfold checkHierarchy
    rw [strayEntry?_eq_none_iff.mpr ranked.parents_known]
    exact Except.bind_eq_ok_iff.mpr ⟨_, Except.forIn_succeeds fun name visited =>
      followed name ((order.perm _).mem_iff.mp visited), rfl⟩

/-! ## A hierarchy alone -/

/-- The document that declares a hierarchy and nothing else. -/
def Document.ofHierarchy (hierarchy : Table String) : Document :=
  { Document.empty with hierarchy := hierarchy }

/-- Where nothing is embedded the search for cycles finds none. -/
theorem checkEmbedding_of_none {fieldsOf : String -> List Field}
    (none : forall name, embeddedNames (fieldsOf name) = []) (names : List String) :
    checkEmbedding fieldsOf names = .ok () := by
  have visited : forall fuel name path done, ∃ after, visitEmbedded fieldsOf fuel name path done = .ok after := by
    intro fuel name path done
    cases fuel with
    | zero => exact ⟨done, rfl⟩
    | succ fuel =>
        rw [visitEmbedded, none]
        split
        · exact ⟨done, rfl⟩
        · exact ⟨name :: done, rfl⟩
  rcases Except.foldlM_succeeds (fun done name _ => visited (names.length + 2) name [name] done) [] with
    ⟨done, run⟩
  exact Except.bind_eq_ok_iff.mpr ⟨done, run, rfl⟩

/-- Classes without entries are filed without fields. -/
theorem loadAll_of_no_entries (names : TypeNames) {classes : Table (List EntityEntry)}
    (none : forall decl, decl ∈ classes -> decl.2 = []) (g : Gathered) :
    ∃ entities g', loadAll (loadEntries names) classes g = .ok (entities, g') ∧
      forall entry, entry ∈ entities -> entry.2 = [] := by
  have noFields : forall decl, decl ∈ classes -> forall g, loadEntries names decl.1 decl.2 g = .ok ([], g) := by
    intro decl member g
    rw [none decl member]
    rfl
  have run : ∃ final, loadAll (loadEntries names) classes g = .ok final := by
    refine Except.foldlM_succeeds (fun state decl member => ⟨(state.1 ++ [(decl.1, [])], state.2), ?_⟩) ([], g)
    exact Except.bind_eq_ok_iff.mpr ⟨([], state.2), noFields decl member state.2, rfl⟩
  rcases run with ⟨⟨entities, g'⟩, run⟩
  refine ⟨entities, g', run, ?_⟩
  refine Except.foldlM_preserves (fun state => forall entry, entry ∈ state.1 -> entry.2 = []) ?_ ?_ run
  · exact fun entry member => absurd member List.not_mem_nil
  · intro before decl after member empty taken
    rcases Except.bind_eq_ok_iff.mp taken with ⟨loaded, made, rest⟩
    cases (noFields decl member before.2).symm.trans made
    cases rest
    intro entry listed
    rcases List.mem_append.mp listed with earlier | last
    · exact empty entry earlier
    · rw [List.mem_singleton.mp last]

/-- Where no table has a field nothing is embedded. -/
theorem embeddedNames_of_no_fields {tables : List (Table (List Field))}
    (empty : forall table, table ∈ tables -> forall entry, entry ∈ table -> entry.2 = []) (name : String) :
    embeddedNames (fieldsIn tables name) = [] := by
  unfold fieldsIn
  cases found : tables.findSome? (fun table => table.find? name) with
  | none => rfl
  | some fields =>
      rcases List.exists_of_findSome?_eq_some found with ⟨table, listed, here⟩
      have none : fields = [] := empty table listed _ (Table.mem_of_find? here)
      rw [none]
      rfl

/-- A document that declares a hierarchy alone is accepted with the hierarchy. -/
theorem load_ofHierarchy_iff {host : Host} {hierarchy : Table String} :
    (∃ c, load host (.ofHierarchy hierarchy) = .ok c) <->
      ∃ parents, checkHierarchy host.parents hierarchy = .ok parents := by
  constructor
  · rintro ⟨c, loaded⟩
    rcases load_stages loaded with ⟨stages⟩
    exact ⟨c.parents, stages.ranked⟩
  · rintro ⟨parents, ranked⟩
    let classes := host.classes.arrange (Table.names (Table.insert rootClass rootClass hierarchy))
    let names : TypeNames := ⟨[], [], [], classes⟩
    have collected : collectNames host.classes (.ofHierarchy hierarchy) = .ok names := rfl
    have noEntries : forall decl : String × List EntityEntry,
        decl ∈ names.entities.map (fun name => (name, [])) -> decl.2 = [] := by
      intro decl member
      rcases List.mem_map.mp member with ⟨name, -, rfl⟩
      rfl
    rcases loadAll_of_no_entries names noEntries ⟨[], [], []⟩ with ⟨entities, g, filed, empty⟩
    have noFields : forall table, table ∈ [[], [], [], entities] -> forall entry, entry ∈ table ->
        entry.2 = [] := by
      simpa using fun name fields => empty (name, fields)
    have searched := checkEmbedding_of_none (embeddedNames_of_no_fields noFields)
    let c : Catalog :=
      { Catalog.empty with
        names, entities, parents
        titleNames := g.titleNames
        titleTables := g.titleTables
        functions := sortFunctions g.functions }
    refine ⟨c, Except.bind_eq_ok_iff.mpr ⟨names, collected, ?_⟩⟩
    refine Except.bind_eq_ok_iff.mpr ⟨[], rfl, ?_⟩
    refine Except.bind_eq_ok_iff.mpr ⟨parents, ranked, ?_⟩
    refine Except.bind_eq_ok_iff.mpr ⟨[], rfl, ?_⟩
    refine Except.bind_eq_ok_iff.mpr ⟨[], rfl, ?_⟩
    refine Except.bind_eq_ok_iff.mpr ⟨([], ⟨[], [], []⟩), rfl, ?_⟩
    refine Except.bind_eq_ok_iff.mpr ⟨(entities, g), filed, ?_⟩
    refine Except.bind_eq_ok_iff.mpr ⟨g, rfl, ?_⟩
    exact Except.bind_eq_ok_iff.mpr ⟨(), searched _, rfl⟩

/-! ## Full chains -/

/-- A chain is the full line of parents of a class: it begins with the root and
ends with the class, passes no class twice, and every class in it follows its
parent, but that the one right below the root may have none. -/
structure FullChain (parents : Table String) (name : String) (chain : List String) : Prop where
  begins : chain.head? = some rootClass
  ends : chain.getLast? = some name
  linked : chain.IsChain (fun upper lower =>
    parents.find? lower = some upper ∨ upper = rootClass ∧ parents.find? lower = none)
  nodup : chain.Nodup
  length_le : chain.length ≤ chainLimit + 1

theorem Stages.fullChain {host : Host} {document : Document} {c : Catalog}
    (stages : Stages host document c) {name : String} (isClass : c.isClass name = true) :
    FullChain (parentsOf document.hierarchy) name (c.ancestors name) := by
  have nodup := stages.nodup_ancestors name
  rcases stages.exists_ascent isClass with ⟨passed, ascent, -, short, chain⟩
  rw [(checkHierarchy_ok stages.ranked).1] at ascent
  rw [chain] at nodup ⊢
  refine ⟨rfl, ascent.getLast?_chain, ascent.isChain, nodup, ?_⟩
  rw [List.length_cons, List.length_reverse]
  exact Nat.succ_le_succ short

/-- The limit of hierarchies.  A document that declares a hierarchy alone is
accepted exactly if the hierarchy is ranked, in whatever order its classes are
visited.  In every accepted document the chain of every class is the full line of
its parents. -/
theorem hierarchy_accepted_iff_ranked :
    (forall (host : Host) (hierarchy : Table String),
      (∃ c, load host (.ofHierarchy hierarchy) = .ok c) <-> Ranked hierarchy) ∧
    forall (host : Host) (document : Document) (c : Catalog), load host document = .ok c ->
      forall name, c.isClass name = true ->
        FullChain (parentsOf document.hierarchy) name (c.ancestors name) := by
  constructor
  · exact fun _ _ => load_ofHierarchy_iff.trans checkHierarchy_succeeds_iff
  · intro host document c loaded name isClass
    rcases load_stages loaded with ⟨stages⟩
    exact stages.fullChain isClass

/-- Boxes: a bolt is part of a lock, and a chest is its own parent. -/
def boxes : Table String :=
  [("Bolt", "Lock"), ("Chest", "Chest"), ("Lid", "Chest"), ("Lock", "Entity")]

theorem hierarchy_accepted_iff_ranked_at_boxes : Ranked boxes ∧
    ∃ c, load .standing (.ofHierarchy boxes) = .ok c ∧
    c.isClass "Lid" = true ∧ c.ancestors "Lid" = ["Entity", "Chest", "Lid"] ∧
    FullChain (parentsOf boxes) "Lid" (c.ancestors "Lid") := by
  let c : Catalog :=
    { Catalog.empty with
      names := ⟨[], [], [], ["Bolt", "Chest", "Entity", "Lid", "Lock"]⟩
      entities := [("Bolt", []), ("Chest", []), ("Entity", []), ("Lid", []), ("Lock", [])]
      parents := [("Bolt", "Lock"), ("Lid", "Chest"), ("Lock", "Entity")] }
  have loaded : load .standing (.ofHierarchy boxes) = .ok c := by cbv
  exact ⟨(hierarchy_accepted_iff_ranked.1 .standing boxes).mp ⟨c, loaded⟩, c, loaded, by decide, by decide,
    hierarchy_accepted_iff_ranked.2 .standing _ c loaded "Lid" (by decide)⟩

end Schema

end MemoryAtlas
