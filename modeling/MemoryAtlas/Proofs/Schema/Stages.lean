import Mathlib.Data.List.Forall2
import Mathlib.Data.List.Nodup
import MemoryAtlas.Proofs.Sequence
import MemoryAtlas.Schema.Loading

namespace MemoryAtlas

/-!
# The stages of loading

A document that is accepted has passed every stage of loading, one after the
other, and the catalog is put together from what the stages hand over.  The
sequence is taken apart here once.  Whatever is to be known of a loaded catalog
is then a statement about one stage.

Two kinds of facts are carried through the stages in general.  The fields that
are filed under a name have been loaded from declarations of that name, no two
of them with the same field name.  And whatever ties what is gathered to the
fields read so far is carried to the end of loading, as soon as reading titles
and adding functions carry it.
-/

namespace Table

/-- Where two tables have the same names in the same order, a name is bound in
both or in neither, and to related values. -/
theorem rel_find? {α β : Type} (Related : String -> α -> β -> Prop)
    {table : Table α} {table' : Table β}
    (aligned : List.Forall₂ (fun entry entry' =>
      entry'.1 = entry.1 ∧ Related entry.1 entry.2 entry'.2) table table') (name : String) :
    Option.Rel (Related name) (table.find? name) (table'.find? name) := by
  induction aligned with
  | nil => exact .none
  | @cons entry entry' rest rest' related aligned inductionHypothesis =>
      rcases entry with ⟨key, source⟩
      rcases entry' with ⟨key', value'⟩
      rcases related with ⟨same, related⟩
      dsimp only at same related
      subst same
      simp only [find?, List.lookup_cons] at inductionHypothesis ⊢
      cases here : name == key' with
      | true => exact .some (beq_iff_eq.mp here ▸ related)
      | false => exact inductionHypothesis

/-- What is bound in the second of two such tables is bound in the first. -/
theorem find?_of_forall₂ {α β : Type} (Related : String -> α -> β -> Prop)
    {table : Table α} {table' : Table β}
    (aligned : List.Forall₂ (fun entry entry' =>
      entry'.1 = entry.1 ∧ Related entry.1 entry.2 entry'.2) table table')
    {name : String} {value : β} (found : table'.find? name = some value) :
    ∃ source, table.find? name = some source ∧ Related name source value := by
  have related := rel_find? Related aligned name
  rw [found] at related
  generalize table.find? name = bound at related ⊢
  cases related with
  | some related => exact ⟨_, rfl, related⟩

/-- A test on names leaves all bindings of a name or none. -/
theorem find?_filter {α : Type} (table : Table α) (keep : String -> Bool) (name : String) :
    Table.find? (table.filter (fun entry => keep entry.1)) name =
      if keep name then table.find? name else none := by
  induction table with
  | nil => cases keep name <;> rfl
  | cons entry rest inductionHypothesis =>
      rcases entry with ⟨key, value⟩
      simp only [find?, List.lookup_cons, List.filter_cons] at inductionHypothesis ⊢
      cases here : name == key with
      | true =>
          rw [← beq_iff_eq.mp here]
          cases kept : keep name with
          | true => simp
          | false => simpa [kept] using inductionHypothesis
      | false =>
          cases kept : keep key with
          | true => simpa [List.lookup_cons, here] using inductionHypothesis
          | false => simpa using inductionHypothesis

/-- A test on names leaves no other binding of a name to be found. -/
theorem find?_of_find?_filter {α : Type} {table : Table α} (keep : String -> Bool) {name : String}
    {value : α} (found : Table.find? (table.filter (fun entry => keep entry.1)) name = some value) :
    table.find? name = some value := by
  rw [find?_filter] at found
  split at found
  · exact found
  · cases found

end Table

namespace Schema

/-- Everything that loading a document into a catalog has gone through. -/
structure Stages (host : Host) (document : Document) (c : Catalog) where
  refs : Table TitleTable
  structs : Table (List Field)
  afterStructs : Gathered
  afterEntities : Gathered
  gathered : Gathered
  collected : collectNames host.classes document = .ok c.names
  aligned : checkAlignments document.alignments = .ok c.alignments
  ranked : checkHierarchy host.parents document.hierarchy = .ok c.parents
  ruled : document.rules.mapM (loadRule host.engine c.names.entities) = .ok c.rules
  titled : document.titles.mapM (fun entry => do
    return (entry.1, <- loadTitles ("refs." ++ entry.1) entry.2)) = .ok refs
  structsLoaded :
    loadAll (loadFields c.names) document.structs ⟨[], refs, []⟩ = .ok (structs, afterStructs)
  entitiesLoaded :
    loadAll (loadEntries c.names)
      (c.names.entities.map (fun name => (name, (document.entities.find? name).getD [])))
      afterStructs = .ok (c.entities, afterEntities)
  functionsLoaded : loadTypeFunctions c.names document.functions afterEntities = .ok gathered
  pointers_eq : c.pointers = structs.filter (fun entry => c.names.pointers.contains entry.1)
  inlines_eq : c.inlines = structs.filter (fun entry =>
    !c.names.pointers.contains entry.1 && c.names.inlines.contains entry.1)
  composites_eq : c.composites = structs.filter (fun entry =>
    !c.names.pointers.contains entry.1 && !c.names.inlines.contains entry.1)
  searched : checkEmbedding (fieldsIn [c.composites, c.pointers, c.inlines, c.entities])
    (([c.composites, c.pointers, c.inlines, c.entities].flatMap Table.names).mergeSort
      (fun a b => a <= b)) = .ok ()
  titleNames_eq : c.titleNames = gathered.titleNames
  titleTables_eq : c.titleTables = gathered.titleTables
  functions_eq : c.functions = sortFunctions gathered.functions

theorem load_stages {host : Host} {document : Document} {c : Catalog}
    (loaded : load host document = .ok c) :
    Nonempty (Stages host document c) := by
  unfold load at loaded
  rcases Except.bind_eq_ok_iff.mp loaded with ⟨names, collected, loaded⟩
  rcases Except.bind_eq_ok_iff.mp loaded with ⟨alignments, aligned, loaded⟩
  rcases Except.bind_eq_ok_iff.mp loaded with ⟨parents, ranked, loaded⟩
  rcases Except.bind_eq_ok_iff.mp loaded with ⟨rules, ruled, loaded⟩
  rcases Except.bind_eq_ok_iff.mp loaded with ⟨refs, titled, loaded⟩
  rcases Except.bind_eq_ok_iff.mp loaded with ⟨⟨structs, afterStructs⟩, structsLoaded, loaded⟩
  rcases Except.bind_eq_ok_iff.mp loaded with ⟨⟨entities, afterEntities⟩, entitiesLoaded, loaded⟩
  rcases Except.bind_eq_ok_iff.mp loaded with ⟨gathered, functionsLoaded, loaded⟩
  rcases Except.bind_eq_ok_iff.mp loaded with ⟨⟨⟩, searched, loaded⟩
  cases loaded
  exact ⟨{ refs, structs, afterStructs, afterEntities, gathered, collected, aligned, ranked, ruled
           titled, structsLoaded, entitiesLoaded, functionsLoaded, searched
           pointers_eq := rfl, inlines_eq := rfl, composites_eq := rfl
           titleNames_eq := rfl, titleTables_eq := rfl, functions_eq := rfl }⟩

/-- A document that passes every stage is accepted. -/
theorem load_of_stages {host : Host} {document : Document} {c : Catalog} (stages : Stages host document c) :
    load host document = .ok c := by
  unfold load
  rw [stages.collected, Except.ok_bind, stages.aligned, Except.ok_bind, stages.ranked, Except.ok_bind,
    stages.ruled, Except.ok_bind, stages.titled, Except.ok_bind, stages.structsLoaded, Except.ok_bind]
  dsimp only
  rw [stages.entitiesLoaded, Except.ok_bind]
  dsimp only
  rw [stages.functionsLoaded, Except.ok_bind, ← stages.composites_eq, ← stages.pointers_eq,
    ← stages.inlines_eq]
  refine Except.bind_eq_ok_iff.mpr ⟨⟨⟩, stages.searched, ?_⟩
  rw [← stages.titleNames_eq, ← stages.titleTables_eq, ← stages.functions_eq]
  rfl

/-- The search is passed if it is passed in ascending order of the names. -/
theorem checkEmbedding_of_perm {fieldsOf : String -> List Field} {names sorted : List String}
    (perm : names.Perm sorted) (ascending : sorted.Pairwise (fun name later => name <= later))
    (searched : checkEmbedding fieldsOf sorted = .ok ()) :
    checkEmbedding fieldsOf (names.mergeSort (fun a b => a <= b)) = .ok () := by
  have ordered : (names.mergeSort (fun a b => a <= b)).Pairwise (fun name later => name <= later) := by
    refine (List.pairwise_mergeSort ?_ ?_ names).imp of_decide_eq_true
    · intro a b c first second
      exact decide_eq_true (String.le_trans (of_decide_eq_true first) (of_decide_eq_true second))
    · intro a b
      exact Bool.or_eq_true_iff.mpr ((String.le_total a b).imp decide_eq_true decide_eq_true)
  have same : names.mergeSort (fun a b => a <= b) = sorted :=
    ((List.mergeSort_perm names _).trans perm).eq_of_pairwise
      (fun a b _ _ below above => String.le_antisymm below above) ordered ascending
  rw [same]
  exact searched

/-! ## Where filed declarations come from -/

/-- Loading files every declaration under its own name, in the order of the
document, with the fields that were loaded from it. -/
theorem loadAll_forall₂ {α : Type}
    {load : String -> α -> Gathered -> Except Fault (List Field × Gathered)} {decls : Table α}
    {before after : Gathered} {tables : Table (List Field)}
    (loaded : loadAll load decls before = .ok (tables, after)) :
    List.Forall₂ (fun decl entry =>
      entry.1 = decl.1 ∧ ∃ g g', load decl.1 decl.2 g = .ok (entry.2, g')) decls tables := by
  refine Except.foldlM_along (fun done (state : Table (List Field) × Gathered) =>
    List.Forall₂ (fun decl entry =>
      entry.1 = decl.1 ∧ ∃ g g', load decl.1 decl.2 g = .ok (entry.2, g')) done state.1)
    .nil ?_ loaded
  rintro done decl ⟨filed, g⟩ after _ aligned taken
  rcases Except.bind_eq_ok_iff.mp taken with ⟨⟨fields, g'⟩, loadedFields, made⟩
  cases made
  exact List.rel_append aligned (.cons ⟨rfl, g, g', loadedFields⟩ .nil)

/-- Fields with different names, each loaded from a declaration of its owner. -/
structure Filed (names : TypeNames) (owner : String) (Declared : FieldDecl -> Prop)
    (fields : List Field) : Prop where
  nodup : (fields.map Field.name).Nodup
  source : forall field, field ∈ fields ->
    ∃ decl g g', Declared decl ∧ loadField names owner decl g = .ok (field, g')

theorem Filed.nil {names : TypeNames} {owner : String} {Declared : FieldDecl -> Prop} :
    Filed names owner Declared [] where
  nodup := List.nodup_nil
  source := fun _ member => absurd member List.not_mem_nil

theorem Filed.append {names : TypeNames} {owner : String} {Declared : FieldDecl -> Prop}
    {fields extended : List Field} {decl : FieldDecl} {g g' : Gathered} {field : Field}
    (filed : Filed names owner Declared fields) (declared : Declared decl)
    (loaded : loadField names owner decl g = .ok (field, g'))
    (appended : appendField owner fields field = .ok extended) :
    Filed names owner Declared extended := by
  unfold appendField at appended
  split at appended
  · cases appended
  · rename_i new
    cases appended
    constructor
    · rw [List.map_append, List.map_singleton]
      refine List.nodup_append.mpr ⟨filed.nodup, List.nodup_singleton _, ?_⟩
      intro name member other last same
      rcases List.mem_map.mp member with ⟨earlier, listed, rfl⟩
      rw [List.mem_singleton.mp last] at same
      exact new (List.any_eq_true.mpr ⟨earlier, listed, beq_iff_eq.mpr same⟩)
    · intro other member
      rcases List.mem_append.mp member with old | last
      · exact filed.source other old
      · rw [List.mem_singleton.mp last]
        exact ⟨decl, g, g', declared, loaded⟩

theorem loadFields_filed {names : TypeNames} {owner : String} {decls : List FieldDecl}
    {before after : Gathered} {fields : List Field}
    (loaded : loadFields names owner decls before = .ok (fields, after)) :
    Filed names owner (fun decl => decl ∈ decls) fields := by
  refine Except.foldlM_preserves
    (fun state => Filed names owner (fun decl => decl ∈ decls) state.1) .nil ?_ loaded
  rintro ⟨earlier, g⟩ decl ⟨later, g'⟩ member filed step
  rcases Except.bind_eq_ok_iff.mp step with ⟨⟨field, g''⟩, loadedField, step⟩
  rcases Except.bind_eq_ok_iff.mp step with ⟨extended, appended, step⟩
  cases step
  exact filed.append member loadedField appended

theorem loadEntries_filed {names : TypeNames} {owner : String} {entries : List EntityEntry}
    {before after : Gathered} {fields : List Field}
    (loaded : loadEntries names owner entries before = .ok (fields, after)) :
    Filed names owner (fun decl => .field decl ∈ entries) fields := by
  refine Except.foldlM_preserves
    (fun state => Filed names owner (fun decl => .field decl ∈ entries) state.1) .nil ?_ loaded
  rintro ⟨earlier, g⟩ entry ⟨later, g'⟩ member filed step
  cases entry with
  | functions decls =>
      rcases Except.bind_eq_ok_iff.mp step with ⟨g'', -, step⟩
      cases step
      exact filed
  | field decl =>
      rcases Except.bind_eq_ok_iff.mp step with ⟨⟨field, g''⟩, loadedField, step⟩
      rcases Except.bind_eq_ok_iff.mp step with ⟨extended, appended, step⟩
      cases step
      exact filed.append member loadedField appended

/-- The document declares a field in the structure or class of this name. -/
def Document.Declares (document : Document) (owner : String) (decl : FieldDecl) : Prop :=
  (∃ decls, document.structs.find? owner = some decls ∧ decl ∈ decls) ∨
    ∃ entries, document.entities.find? owner = some entries ∧ .field decl ∈ entries

/-- Every list of fields in a table has been loaded from the declarations of
its name. -/
theorem Stages.filed {host : Host} {document : Document} {c : Catalog}
    (stages : Stages host document c) {name : String}
    {fields : List Field}
    (found : stages.structs.find? name = some fields ∨ c.entities.find? name = some fields) :
    Filed c.names name (document.Declares name) fields := by
  rcases found with found | found
  · have aligned := loadAll_forall₂ stages.structsLoaded
    rcases Table.find?_of_forall₂ (fun name decls fields =>
      ∃ g g', loadFields c.names name decls g = .ok (fields, g')) aligned found with
      ⟨decls, listed, g, g', loaded⟩
    have filed := loadFields_filed loaded
    exact ⟨filed.nodup, fun field member =>
      let ⟨decl, g, g', declared, made⟩ := filed.source field member
      ⟨decl, g, g', .inl ⟨decls, listed, declared⟩, made⟩⟩
  · have aligned := loadAll_forall₂ stages.entitiesLoaded
    rcases Table.find?_of_forall₂ (fun name entries fields =>
      ∃ g g', loadEntries c.names name entries g = .ok (fields, g')) aligned found with
      ⟨entries, listed, g, g', loaded⟩
    have filed := loadEntries_filed loaded
    refine ⟨filed.nodup, fun field member => ?_⟩
    rcases filed.source field member with ⟨decl, g, g', declared, made⟩
    refine ⟨decl, g, g', .inr ⟨entries, ?_, declared⟩, made⟩
    -- A class without entries of its own has no field at all.
    have bound := Table.mem_of_find? listed
    rcases List.mem_map.mp bound with ⟨other, -, same⟩
    cases same
    cases written : document.entities.find? name with
    | none => rw [written] at declared; cases declared
    | some entries => rfl

/-! ## What is gathered -/

/-- Where the titles of a field are written. -/
inductive TitleSource where
  /-- In the table of the document that has this name. -/
  | shared (name : String)
  /-- Beside the field itself. -/
  | own (titles : Table String)
deriving DecidableEq

/-- Only flags and states have titles. -/
def FieldDecl.takesTitles (decl : FieldDecl) : Bool :=
  (StandardType.ofName? decl.typeName).any (fun standard => standard.isFlags || standard.isState)

/-- A named table comes before titles that the field brings itself. -/
def FieldDecl.titleSource? (decl : FieldDecl) : Option TitleSource :=
  if decl.takesTitles then
    match decl.titles with
    | some name => some (.shared name)
    | none => (decl.flags.or decl.states).map .own
  else none

theorem FieldDecl.titleSource?_of_takesTitles {decl : FieldDecl} (takes : decl.takesTitles = true) :
    decl.titleSource? = match decl.titles with
      | some name => some (.shared name)
      | none => (decl.flags.or decl.states).map .own :=
  if_pos takes

/-- What a field can do to the titles: nothing, name a table that is there, or
bring a table of its own. -/
theorem gatherTitles_cases {path : String} {decl : FieldDecl} {g g' : Gathered}
    (gathered : gatherTitles path decl g = .ok g') :
    (decl.titleSource? = none ∧ g' = g) ∨
    (∃ name, decl.titleSource? = some (.shared name) ∧ name ∈ g.titleTables.names ∧
      g' = { g with titleNames := Table.insert path name g.titleNames }) ∨
    ∃ titles table, decl.titleSource? = some (.own titles) ∧ loadTitles path titles = .ok table ∧
      g' = { g with titleTables := Table.insert path table g.titleTables
                    titleNames := Table.insert path path g.titleNames } := by
  have either : decl.takesTitles = ((StandardType.ofName? decl.typeName).any StandardType.isFlags ||
        (StandardType.ofName? decl.typeName).any StandardType.isState) := by
    rw [FieldDecl.takesTitles]
    cases StandardType.ofName? decl.typeName <;> rfl
  unfold gatherTitles at gathered
  dsimp only at gathered
  split at gathered
  · cases gathered
  split at gathered
  · cases gathered
  rw [FieldDecl.titleSource?, either]
  split at gathered
  · rename_i untitled
    cases gathered
    rw [if_neg (by simpa using untitled)]
    exact .inl ⟨rfl, rfl⟩
  · rename_i titled
    rw [if_pos (by simpa [Classical.or_iff_not_imp_left] using titled)]
    split at gathered
    · rename_i name named
      rw [named]
      split at gathered
      · rename_i present
        cases gathered
        exact .inr (.inl ⟨name, rfl, Table.contains_iff.mp present, rfl⟩)
      · cases gathered
    · rename_i titles unnamed brought
      rw [unnamed, brought]
      rcases Except.bind_eq_ok_iff.mp gathered with ⟨table, made, stored⟩
      cases stored
      exact .inr (.inr ⟨titles, table, rfl, made, rfl⟩)
    · rename_i unnamed nothing
      rw [unnamed, nothing]
      cases gathered
      exact .inl ⟨rfl, rfl⟩

theorem addFunctions_titles {owner : String} {decls : Table FunctionDecl} {g g' : Gathered}
    (added : addFunctions owner decls g = .ok g') :
    g'.titleNames = g.titleNames ∧ g'.titleTables = g.titleTables := by
  unfold addFunctions at added
  rcases Except.bind_eq_ok_iff.mp added with ⟨functions, -, made⟩
  cases made
  exact ⟨rfl, rfl⟩

/-- The titles of a field are registered under its owner and its own name. -/
theorem loadField_titleNames {names : TypeNames} {owner : String} {decl : FieldDecl} {g g' : Gathered}
    {field : Field} (loaded : loadField names owner decl g = .ok (field, g')) :
    g'.titleNames = g.titleNames ∨
      ∃ table, g'.titleNames = Table.insert (owner ++ "." ++ field.name) table g.titleNames := by
  unfold loadField at loaded
  rcases Except.bind_eq_ok_iff.mp loaded with ⟨kind, -, loaded⟩
  rcases Except.bind_eq_ok_iff.mp loaded with ⟨middle, functions, loaded⟩
  rcases Except.bind_eq_ok_iff.mp loaded with ⟨last, titles, loaded⟩
  rcases Except.bind_eq_ok_iff.mp loaded with ⟨marked, -, loaded⟩
  cases loaded
  have unchanged : middle.titleNames = g.titleNames := by
    unfold gatherFunctions at functions
    split at functions
    · exact (addFunctions_titles functions).1
    · cases functions
      rfl
  rcases gatherTitles_cases titles with ⟨-, rfl⟩ | ⟨name, -, -, rfl⟩ | ⟨_, table, -, -, rfl⟩
  · exact .inl unchanged
  · exact .inr ⟨name, congrArg _ unchanged⟩
  · exact .inr ⟨_, congrArg _ unchanged⟩

/-- The field that an entry of a class declares, if it declares one. -/
def EntityEntry.field? : EntityEntry -> Option FieldDecl
  | .functions _ => none
  | .field decl => some decl

/-- All fields of a document with the names of their declarations, as they come
while it is loaded. -/
def Document.written (document : Document) (names : TypeNames) : List (String × FieldDecl) :=
  document.structs.flatMap (fun entry => entry.2.map (Prod.mk entry.1)) ++
    (names.entities.map (fun name => (name, (document.entities.find? name).getD []))).flatMap
      (fun entry => (entry.2.filterMap EntityEntry.field?).map (Prod.mk entry.1))

/-- What is gathered answers to the fields that have been read so far. -/
structure Follows (Reached : List (String × FieldDecl) -> Gathered -> Prop) : Prop where
  titles : forall {done owner decl g g'}, gatherTitles (owner ++ "." ++ decl.name) decl g = .ok g' ->
    Reached done g -> Reached (done ++ [(owner, decl)]) g'
  functions : forall {done owner decls g g'}, addFunctions owner decls g = .ok g' ->
    Reached done g -> Reached done g'

namespace Follows

variable {Reached : List (String × FieldDecl) -> Gathered -> Prop} (follows : Follows Reached)
include follows

theorem field {names : TypeNames} {owner : String} {decl : FieldDecl} {done : List (String × FieldDecl)}
    {g g' : Gathered} {field : Field} (loaded : loadField names owner decl g = .ok (field, g'))
    (reached : Reached done g) : Reached (done ++ [(owner, decl)]) g' := by
  unfold loadField at loaded
  rcases Except.bind_eq_ok_iff.mp loaded with ⟨kind, -, loaded⟩
  rcases Except.bind_eq_ok_iff.mp loaded with ⟨middle, functions, loaded⟩
  rcases Except.bind_eq_ok_iff.mp loaded with ⟨last, titles, loaded⟩
  rcases Except.bind_eq_ok_iff.mp loaded with ⟨marked, -, loaded⟩
  cases loaded
  refine follows.titles titles ?_
  unfold gatherFunctions at functions
  split at functions
  · exact follows.functions functions reached
  · cases functions
    exact reached

theorem fields {names : TypeNames} {owner : String} {decls : List FieldDecl}
    {done : List (String × FieldDecl)} {g g' : Gathered} {fields : List Field}
    (loaded : loadFields names owner decls g = .ok (fields, g')) (reached : Reached done g) :
    Reached (done ++ decls.map (Prod.mk owner)) g' := by
  refine Except.foldlM_along (fun read (state : List Field × Gathered) =>
    Reached (done ++ read.map (Prod.mk owner)) state.2) ?_ ?_ loaded
  · rw [List.map_nil, List.append_nil]
    exact reached
  · rintro read decl ⟨earlier, g⟩ ⟨later, g'⟩ - reached step
    rcases Except.bind_eq_ok_iff.mp step with ⟨⟨field, g''⟩, loadedField, step⟩
    rcases Except.bind_eq_ok_iff.mp step with ⟨extended, -, step⟩
    cases step
    rw [List.map_append, ← List.append_assoc]
    exact follows.field loadedField reached

theorem entries {names : TypeNames} {owner : String} {entries : List EntityEntry}
    {done : List (String × FieldDecl)} {g g' : Gathered} {fields : List Field}
    (loaded : loadEntries names owner entries g = .ok (fields, g')) (reached : Reached done g) :
    Reached (done ++ (entries.filterMap EntityEntry.field?).map (Prod.mk owner)) g' := by
  refine Except.foldlM_along (fun read (state : List Field × Gathered) =>
    Reached (done ++ (read.filterMap EntityEntry.field?).map (Prod.mk owner)) state.2) ?_ ?_ loaded
  · rw [List.filterMap_nil, List.map_nil, List.append_nil]
    exact reached
  · rintro read entry ⟨earlier, g⟩ ⟨later, g'⟩ - reached step
    rw [List.filterMap_append, List.map_append, ← List.append_assoc]
    cases entry with
    | functions decls =>
        rcases Except.bind_eq_ok_iff.mp step with ⟨g'', added, step⟩
        cases step
        rw [show [EntityEntry.functions decls].filterMap EntityEntry.field? = [] from rfl, List.map_nil,
          List.append_nil]
        exact follows.functions added reached
    | field decl =>
        rcases Except.bind_eq_ok_iff.mp step with ⟨⟨field, g''⟩, loadedField, step⟩
        rcases Except.bind_eq_ok_iff.mp step with ⟨extended, -, step⟩
        cases step
        exact follows.field loadedField reached

omit follows in
theorem all {α : Type} {load : String -> α -> Gathered -> Except Fault (List Field × Gathered)}
    {written : α -> List FieldDecl}
    (each : forall {name decl done g fields g'}, load name decl g = .ok (fields, g') ->
      Reached done g -> Reached (done ++ (written decl).map (Prod.mk name)) g')
    {decls : Table α} {done : List (String × FieldDecl)} {g g' : Gathered} {tables : Table (List Field)}
    (loaded : loadAll load decls g = .ok (tables, g')) (reached : Reached done g) :
    Reached (done ++ decls.flatMap (fun entry => (written entry.2).map (Prod.mk entry.1))) g' := by
  refine Except.foldlM_along (fun (read : Table α) (state : Table (List Field) × Gathered) =>
    Reached (done ++ read.flatMap (fun entry => (written entry.2).map (Prod.mk entry.1))) state.2)
    ?_ ?_ loaded
  · rw [List.flatMap_nil, List.append_nil]
    exact reached
  · rintro read decl ⟨earlier, g⟩ ⟨later, g'⟩ - reached step
    rcases Except.bind_eq_ok_iff.mp step with ⟨⟨fields, g''⟩, loadedFields, step⟩
    cases step
    rw [List.flatMap_append, List.flatMap_singleton, ← List.append_assoc]
    exact each loadedFields reached

theorem typeFunctions {names : TypeNames} {decls : Table (Table FunctionDecl)}
    {done : List (String × FieldDecl)} {g g' : Gathered}
    (loaded : loadTypeFunctions names decls g = .ok g') (reached : Reached done g) : Reached done g' := by
  refine Except.foldlM_preserves (Reached done) reached ?_ loaded
  intro before entry after _ reached step
  split at step
  · cases step
  · exact follows.functions step reached

/-- In the end what is gathered answers to all fields of the document. -/
theorem stages {host : Host} {document : Document} {c : Catalog} (stages : Stages host document c)
    (begins : Reached [] ⟨[], stages.refs, []⟩) : Reached (document.written c.names) stages.gathered := by
  have structs := @all _ _ _ (fun decls => decls) follows.fields _ _ _ _ _ stages.structsLoaded begins
  have classes := all follows.entries stages.entitiesLoaded structs
  exact follows.typeFunctions stages.functionsLoaded classes

end Follows

end Schema
end MemoryAtlas
