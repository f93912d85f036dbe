import MemoryAtlas.Proofs.Schema.Filing

namespace MemoryAtlas

open Schema

/-!
# The virtual functions of a type

A document can declare functions of one type in several places: with a field for
the function table of a structure, in the field list of a class, with such a field
of a class, and in a section of their own.  Loading meets these places in that
order and appends what it reads to what the type already has.  Only when all are
read are the functions of each type sorted by their index, which is a number
although it is written as a text.

What is followed here is therefore one list of groups, each with the type that it
belongs to.  At any time the functions that have been gathered for a type are
those of its groups so far, each read once and in order.  Sorting is stable, so
functions with one index keep that order, and a class shows the functions of its
ancestors before its own.
-/

theorem Table.find?_map {α β : Type} (table : Table α) (change : α -> β) (name : String) :
    Table.find? (table.map (fun entry => (entry.1, change entry.2))) name = (table.find? name).map change := by
  induction table with
  | nil => rfl
  | cons entry rest inductionHypothesis =>
      rcases entry with ⟨key, value⟩
      simp only [Table.find?, List.map_cons, List.lookup_cons] at inductionHypothesis ⊢
      cases name == key with
      | true => rfl
      | false => exact inductionHypothesis

theorem Table.exists_of_mem_getD {α : Type} {table : Table (List α)} {name : String} {item : α}
    (member : item ∈ (table.find? name).getD []) : ∃ items, (name, items) ∈ table ∧ item ∈ items := by
  cases found : table.find? name with
  | none =>
      rw [found] at member
      cases member
  | some items =>
      rw [found] at member
      exact ⟨items, Table.mem_of_find? found, member⟩

namespace Schema

/-! ## Groups -/

/-- What a declared function is read as.  The text it is bound to is its index. -/
structure FunctionDecl.ReadAs (owner : String) (entry : String × FunctionDecl)
    (function : VirtualFunction) : Prop where
  index : Text.readWord 10 32 (Text.trim entry.1.toList) = .ok function.index
  name : function.name = entry.2.name
  params : function.params = entry.2.params
  returns : function.returns = entry.2.returns
  owner : function.owner = owner

/-- The functions that a field brings along.  Only a field for a function table
does. -/
def FieldDecl.functionList (decl : FieldDecl) : Table FunctionDecl :=
  match StandardType.ofName? decl.typeName with
  | some .functionTable => decl.functions.getD []
  | _ => []

def EntityEntry.functionList : EntityEntry -> Table FunctionDecl
  | .functions decls => decls
  | .field decl => decl.functionList

/-- The groups of functions that a document declares for a name: those of the
structure, then those of the class, then the one outside of any field. -/
def Document.functionLists (document : Document) (name : String) : List (Table FunctionDecl) :=
  ((document.structs.find? name).getD []).map FieldDecl.functionList ++
    ((document.entities.find? name).getD []).map EntityEntry.functionList ++
    (document.functions.find? name).toList

/-- The functions that belong to a name among groups of several names. -/
def functionsOfGroups (name : String) (groups : List (String × Table FunctionDecl)) :
    List (String × FunctionDecl) :=
  groups.flatMap (fun group => if group.1 = name then group.2 else [])

/-- The groups of all declarations, as they come while a document is loaded. -/
def Document.functionGroups (document : Document) (names : TypeNames) :
    List (String × Table FunctionDecl) :=
  document.structs.flatMap (fun entry => (entry.2.map FieldDecl.functionList).map (Prod.mk entry.1)) ++
    (names.entities.map (fun name => (name, (document.entities.find? name).getD []))).flatMap
      (fun entry => (entry.2.map EntityEntry.functionList).map (Prod.mk entry.1)) ++
    document.functions

theorem functionsOfGroups_append (name : String) (groups more : List (String × Table FunctionDecl)) :
    functionsOfGroups name (groups ++ more) = functionsOfGroups name groups ++ functionsOfGroups name more :=
  List.flatMap_append

/-- The groups that all belong to one name. -/
theorem functionsOfGroups_map (name owner : String) (lists : List (Table FunctionDecl)) :
    functionsOfGroups name (lists.map (Prod.mk owner)) = if owner = name then lists.flatten else [] := by
  rw [functionsOfGroups, List.flatMap_map]
  split
  · exact List.flatMap_id
  · exact List.flatMap_eq_nil_iff.mpr fun _ _ => rfl

/-- In a table each name has its groups in one place. -/
theorem functionsOfGroups_table {α : Type} {table : Table α} (distinct : table.names.Nodup)
    (lists : α -> List (Table FunctionDecl)) (name : String) :
    functionsOfGroups name (table.flatMap (fun entry => (lists entry.2).map (Prod.mk entry.1))) =
      ((table.find? name).elim [] lists).flatten := by
  induction table with
  | nil => rfl
  | cons entry rest inductionHypothesis =>
      rcases entry with ⟨key, value⟩
      rcases List.nodup_cons.mp distinct with ⟨fresh, later⟩
      rw [List.flatMap_cons, functionsOfGroups_append, functionsOfGroups_map, inductionHypothesis later,
        Table.find?, Table.find?, List.lookup_cons]
      by_cases same : key = name
      · subst same
        rw [if_pos rfl, beq_self_eq_true]
        have nothing : List.lookup key rest = none := Table.find?_eq_none_iff.mpr fresh
        rw [nothing]
        exact List.append_nil _
      · have apart : (name == key) = false := beq_eq_false_iff_ne.mpr (Ne.symm same)
        rw [if_neg same, apart]
        rfl

/-! ## Gathering -/

/-- For each name, the functions gathered are those of its groups so far. -/
def Gathered.Holds (groups : List (String × Table FunctionDecl)) (g : Gathered) : Prop :=
  forall name, List.Forall₂ (FunctionDecl.ReadAs name) (functionsOfGroups name groups)
    ((g.functions.find? name).getD [])

theorem readFunctions_readAs {owner : String} {decls : Table FunctionDecl} {functions : List VirtualFunction}
    (read : readFunctions owner decls = .ok functions) :
    List.Forall₂ (FunctionDecl.ReadAs owner) decls functions := by
  refine (Except.mapM_forall₂ read).imp ?_
  intro entry function made
  split at made
  · rename_i index numbered
    cases made
    exact ⟨numbered, rfl, rfl, rfl, rfl⟩
  · cases made

namespace Gathered.Holds

variable {groups : List (String × Table FunctionDecl)} {names : TypeNames} {owner : String} {g g' : Gathered}

theorem congr (holds : g.Holds groups) (same : g'.functions = g.functions) : g'.Holds groups := by
  rw [Gathered.Holds, same]
  exact holds

/-- A group without functions changes nothing. -/
theorem concat_nil (holds : g.Holds groups) (owner : String) : g.Holds (groups ++ [(owner, [])]) := by
  intro name
  have nothing : functionsOfGroups name [(owner, [])] = [] := by
    rw [functionsOfGroups, List.flatMap_singleton, ite_self]
  rw [functionsOfGroups_append, nothing, List.append_nil]
  exact holds name

theorem addFunctions {decls : Table FunctionDecl} (holds : g.Holds groups)
    (added : Schema.addFunctions owner decls g = .ok g') : g'.Holds (groups ++ [(owner, decls)]) := by
  unfold Schema.addFunctions at added
  rcases Except.bind_eq_ok_iff.mp added with ⟨functions, read, made⟩
  cases made
  intro name
  rw [functionsOfGroups_append, functionsOfGroups, functionsOfGroups, List.flatMap_singleton]
  by_cases same : owner = name
  · subst same
    rw [if_pos rfl, Table.find?_insert_self, Option.getD_some]
    exact List.rel_append (holds owner) (readFunctions_readAs read)
  · rw [if_neg same, List.append_nil, Table.find?_insert_of_ne _ _ (Ne.symm same)]
    exact holds name

theorem field {decl : FieldDecl} {field : Field} (holds : g.Holds groups)
    (loaded : loadField names owner decl g = .ok (field, g')) :
    g'.Holds (groups ++ [(owner, decl.functionList)]) := by
  unfold loadField at loaded
  rcases Except.bind_eq_ok_iff.mp loaded with ⟨kind, -, loaded⟩
  rcases Except.bind_eq_ok_iff.mp loaded with ⟨middle, functions, loaded⟩
  rcases Except.bind_eq_ok_iff.mp loaded with ⟨last, titles, loaded⟩
  rcases Except.bind_eq_ok_iff.mp loaded with ⟨marked, -, loaded⟩
  cases loaded
  have brought : middle.Holds (groups ++ [(owner, decl.functionList)]) := by
    unfold gatherFunctions at functions
    rw [FieldDecl.functionList]
    split at functions
    · rename_i isTable written
      rw [isTable, written]
      exact holds.addFunctions functions
    · rename_i unwritten
      cases functions
      split
      · rename_i isTable
        cases written : decl.functions with
        | none => exact holds.concat_nil owner
        | some list => exact absurd written (unwritten list isTable)
      · exact holds.concat_nil owner
  rcases gatherTitles_cases titles with ⟨-, rfl⟩ | ⟨name, -, -, rfl⟩ | ⟨_, table, -, -, rfl⟩
  · exact brought
  · exact brought.congr rfl
  · exact brought.congr rfl

theorem fields {decls : List FieldDecl} {fields : List Field} (holds : g.Holds groups)
    (loaded : loadFields names owner decls g = .ok (fields, g')) :
    g'.Holds (groups ++ (decls.map FieldDecl.functionList).map (Prod.mk owner)) := by
  refine Except.foldlM_along (fun read (state : List Field × Gathered) =>
    state.2.Holds (groups ++ (read.map FieldDecl.functionList).map (Prod.mk owner))) ?_ ?_ loaded
  · exact (List.append_nil groups).symm ▸ holds
  · rintro read decl ⟨earlier, g⟩ ⟨later, g'⟩ - holds step
    rcases Except.bind_eq_ok_iff.mp step with ⟨⟨field, g''⟩, loadedField, step⟩
    rcases Except.bind_eq_ok_iff.mp step with ⟨extended, -, step⟩
    cases step
    rw [List.map_append, List.map_append, ← List.append_assoc]
    exact holds.field loadedField

theorem entries {entries : List EntityEntry} {fields : List Field} (holds : g.Holds groups)
    (loaded : loadEntries names owner entries g = .ok (fields, g')) :
    g'.Holds (groups ++ (entries.map EntityEntry.functionList).map (Prod.mk owner)) := by
  refine Except.foldlM_along (fun read (state : List Field × Gathered) =>
    state.2.Holds (groups ++ (read.map EntityEntry.functionList).map (Prod.mk owner))) ?_ ?_ loaded
  · exact (List.append_nil groups).symm ▸ holds
  · rintro read entry ⟨earlier, g⟩ ⟨later, g'⟩ - holds step
    rw [List.map_append, List.map_append, ← List.append_assoc]
    cases entry with
    | functions decls =>
        rcases Except.bind_eq_ok_iff.mp step with ⟨g'', added, step⟩
        cases step
        exact holds.addFunctions added
    | field decl =>
        rcases Except.bind_eq_ok_iff.mp step with ⟨⟨field, g''⟩, loadedField, step⟩
        rcases Except.bind_eq_ok_iff.mp step with ⟨extended, -, step⟩
        cases step
        exact holds.field loadedField

theorem all {α : Type} {load : String -> α -> Gathered -> Except Fault (List Field × Gathered)}
    (lists : α -> List (Table FunctionDecl))
    (each : forall {name decl groups g fields g'}, Gathered.Holds groups g ->
      load name decl g = .ok (fields, g') -> g'.Holds (groups ++ (lists decl).map (Prod.mk name)))
    {decls : Table α} {tables : Table (List Field)} (holds : g.Holds groups)
    (loaded : loadAll load decls g = .ok (tables, g')) :
    g'.Holds (groups ++ decls.flatMap (fun entry => (lists entry.2).map (Prod.mk entry.1))) := by
  refine Except.foldlM_along (fun (read : Table α) (state : Table (List Field) × Gathered) =>
    state.2.Holds (groups ++ read.flatMap (fun entry => (lists entry.2).map (Prod.mk entry.1)))) ?_ ?_ loaded
  · exact (List.append_nil groups).symm ▸ holds
  · rintro read decl ⟨earlier, g⟩ ⟨later, g'⟩ - holds step
    rcases Except.bind_eq_ok_iff.mp step with ⟨⟨fields, g''⟩, loadedFields, step⟩
    cases step
    rw [List.flatMap_append, List.flatMap_singleton, ← List.append_assoc]
    exact each holds loadedFields

theorem typeFunctions {decls : Table (Table FunctionDecl)} (holds : g.Holds groups)
    (loaded : loadTypeFunctions names decls g = .ok g') : g'.Holds (groups ++ decls) := by
  refine Except.foldlM_along (fun (read : Table (Table FunctionDecl)) (state : Gathered) =>
    state.Holds (groups ++ read)) ?_ ?_ loaded
  · exact (List.append_nil groups).symm ▸ holds
  · intro read entry before after _ holds step
    split at step
    · cases step
    · rw [← List.append_assoc]
      exact holds.addFunctions step

end Gathered.Holds

/-- In the end the functions of all groups have been gathered. -/
theorem Stages.functions_held {host : Host} {document : Document} {c : Catalog}
    (stages : Stages host document c) :
    stages.gathered.Holds (document.functionGroups c.names) := by
  have begins : Gathered.Holds [] ⟨[], stages.refs, []⟩ := fun _ => .nil
  have structs := begins.all (List.map FieldDecl.functionList) Gathered.Holds.fields stages.structsLoaded
  have classes := structs.all (List.map EntityEntry.functionList) Gathered.Holds.entries stages.entitiesLoaded
  exact classes.typeFunctions stages.functionsLoaded

/-- A document whose tables stand in the order of their names, as all tables do
that have been read. -/
structure Document.Ordered (document : Document) : Prop where
  hierarchy : document.hierarchy.Ascending
  structs : document.structs.Ascending
  entities : document.entities.Ascending
  functions : document.functions.Ascending
  lists : forall name list, list ∈ document.functionLists name -> list.Ascending

theorem ascending_of_decodeFunctionEntry {json : Json} {decls : Table FunctionDecl}
    (decoded : decodeFunctionEntry json = some decls) : decls.Ascending := by
  unfold decodeFunctionEntry at decoded
  split at decoded
  · rcases Option.bind_eq_some_iff.mp decoded with ⟨members, -, decoded⟩
    split at decoded
    · rcases Option.bind_eq_some_iff.mp decoded with ⟨_, -, read⟩
      exact Json.decodeTable_ascending read
    · cases decoded
  · cases decoded

theorem ascending_of_decodeField {json : Json} {decl : FieldDecl} (decoded : decodeField json = some decl) :
    decl.functionList.Ascending := by
  rcases members_of_decodeField decoded with ⟨_, members, -, read⟩
  rw [FieldDecl.functionList]
  split
  · cases written : decl.functions with
    | none => exact List.Pairwise.nil
    | some list =>
        rw [written] at read
        exact Json.ascending_of_optionally_decodeTable read
  · exact List.Pairwise.nil

theorem ascending_of_decodeEntityEntry {json : Json} {entry : EntityEntry}
    (decoded : decodeEntityEntry json = some entry) : entry.functionList.Ascending := by
  unfold decodeEntityEntry at decoded
  split at decoded
  · split at decoded
    · rename_i read
      cases decoded
      exact ascending_of_decodeFunctionEntry read
    · rcases Option.map_eq_some_iff.mp decoded with ⟨decl, read, made⟩
      cases made
      exact ascending_of_decodeField read
  · cases decoded

/-- A document that has been read is in order, and so are the groups of functions
in it. -/
theorem ordered_of_decode {json : Json} {document : Document}
    (decoded : Document.decode json = some document) : document.Ordered := by
  rcases sections_of_decode decoded with ⟨_, _, _, written, -, structs, entities, functions⟩
  rcases ascending_of_decode decoded with ⟨hierarchyAscends, structsAscend, entitiesAscend, functionsAscend⟩
  refine ⟨hierarchyAscends, structsAscend, entitiesAscend, functionsAscend, fun name list listed => ?_⟩
  rcases List.mem_append.mp listed with inFields | outside
  · rcases List.mem_append.mp inFields with ofStruct | ofClass
    · rcases List.mem_map.mp ofStruct with ⟨decl, member, rfl⟩
      rcases Table.exists_of_mem_getD member with ⟨decls, filed, member⟩
      rcases exists_of_mem_section structs filed member with ⟨_, read⟩
      exact ascending_of_decodeField read
    · rcases List.mem_map.mp ofClass with ⟨entry, member, rfl⟩
      rcases Table.exists_of_mem_getD member with ⟨entries, filed, member⟩
      rcases exists_of_mem_section entities filed member with ⟨_, read⟩
      exact ascending_of_decodeEntityEntry read
  · have filed := Table.mem_of_find? (Option.mem_toList.mp outside)
    cases written with
    | none =>
        cases Option.some.inj functions ▸ filed
    | some part =>
        rcases Json.exists_of_mem_decodeTable functions filed with ⟨_, read⟩
        exact Json.decodeTable_ascending read

/-- The groups of one name stand together and in the order in which the document
lists them. -/
theorem Stages.functionsOfGroups_eq {host : Host} {document : Document} {c : Catalog}
    (stages : Stages host document c) (ordered : document.Ordered) (name : String) :
    functionsOfGroups name (document.functionGroups c.names) = (document.functionLists name).flatten := by
  have collected := collectNames_ok stages.collected
  have classes : (Table.names (c.names.entities.map (fun name =>
      (name, (document.entities.find? name).getD [])))).Nodup := by
    have distinct := (ordered.hierarchy.insert rootClass rootClass).nodup
    simpa [Table.names, Function.comp_def] using collected.2.1.nodup_iff.mpr distinct
  have outside := functionsOfGroups_table ordered.functions.nodup (fun list => [list]) name
  simp only [List.map_cons, List.map_nil, List.flatMap_singleton'] at outside
  rw [Document.functionGroups, functionsOfGroups_append, functionsOfGroups_append, outside,
    functionsOfGroups_table ordered.structs.nodup, functionsOfGroups_table classes,
    Table.find?_tabulate c.names.entities (fun name => (document.entities.find? name).getD []),
    Document.functionLists, List.flatten_append, List.flatten_append]
  congr 1
  · congr 1
    · cases document.structs.find? name <;> rfl
    · split
      · rfl
      · rename_i stranger
        have unlisted : document.entities.find? name = none := by
          refine Table.find?_eq_none_iff.mpr fun listed => stranger ?_
          exact collected.2.2.2.2 name listed
        rw [unlisted]
        rfl
  · cases document.functions.find? name <;> rfl

/-! ## Sorting -/

/-- The same functions by ascending index, those with one index in their order. -/
structure StablySorted (declared sorted : List VirtualFunction) : Prop where
  perm : sorted.Perm declared
  ascending : sorted.Pairwise (fun function later => function.index <= later.index)
  stable : forall index, sorted.filter (fun function => function.index = index) =
    declared.filter (fun function => function.index = index)

theorem stablySorted_mergeSort (declared : List VirtualFunction) :
    StablySorted declared (declared.mergeSort (fun a b => a.index <= b.index)) := by
  have trans : forall a b c : VirtualFunction, decide (a.index <= b.index) = true ->
      decide (b.index <= c.index) = true -> decide (a.index <= c.index) = true := by
    intro a b c first second
    exact decide_eq_true (Nat.le_trans (of_decide_eq_true first) (of_decide_eq_true second))
  have total : forall a b : VirtualFunction,
      (decide (a.index <= b.index) || decide (b.index <= a.index)) = true := by
    intro a b
    exact Bool.or_eq_true_iff.mpr ((Nat.le_total a.index b.index).imp decide_eq_true decide_eq_true)
  have perm := List.mergeSort_perm declared (fun a b => a.index <= b.index)
  refine ⟨perm, (List.pairwise_mergeSort trans total declared).imp of_decide_eq_true, fun index => ?_⟩
  -- The functions with this index are in order already, so sorting keeps them as a row.
  have level : (declared.filter (fun function => function.index = index)).Pairwise
      (fun a b => decide (a.index <= b.index) = true) := by
    refine List.pairwise_of_forall_mem_list fun a first b second => decide_eq_true (Nat.le_of_eq ?_)
    rw [of_decide_eq_true (List.mem_filter.mp first).2, of_decide_eq_true (List.mem_filter.mp second).2]
  have kept := (List.sublist_mergeSort trans total level List.filter_sublist).filter
    (fun function => decide (function.index = index))
  rw [List.filter_filter] at kept
  simp only [Bool.and_self] at kept
  exact (kept.eq_of_length (perm.filter _).length_eq.symm).symm

/-- The functions that are filed under a name are those of its groups, sorted. -/
theorem Stages.exists_declared {host : Host} {document : Document} {c : Catalog}
    (stages : Stages host document c)
    (ordered : document.Ordered) (name : String) :
    ∃ declared, List.Forall₂ (FunctionDecl.ReadAs name) (document.functionLists name).flatten declared ∧
      StablySorted declared ((c.functions.find? name).getD []) := by
  refine ⟨(stages.gathered.functions.find? name).getD [], ?_, ?_⟩
  · rw [← stages.functionsOfGroups_eq ordered name]
    exact stages.functions_held name
  · rw [stages.functions_eq, sortFunctions,
      Table.find?_map _ (fun functions : List VirtualFunction =>
        functions.mergeSort (fun a b => a.index <= b.index))]
    cases stages.gathered.functions.find? name with
    | none => exact ⟨.refl [], .nil, fun _ => rfl⟩
    | some declared => exact stablySorted_mergeSort declared

theorem owner_of_readAs {name : String} {entries : List (String × FunctionDecl)}
    {functions : List VirtualFunction} (read : List.Forall₂ (FunctionDecl.ReadAs name) entries functions) :
    forall function, function ∈ functions -> function.owner = name := by
  intro function member
  rcases exists_partner read function member with ⟨_, -, readAs⟩
  exact readAs.owner

end Schema

namespace Catalog

/-- The types whose functions a type shows: for a class its ancestors, for any
other type the type alone. -/
def functionOwners (c : Catalog) (name : String) : List String :=
  if c.isClass name then c.ancestors name else [name]

theorem functionsOf_eq (c : Catalog) (name : String) :
    c.functionsOf name = (c.functionOwners name).flatMap (fun owner => (c.functions.find? owner).getD []) := by
  rw [functionsOf, functionOwners]
  split
  · rfl
  · exact (List.flatMap_singleton _ _).symm

/-- Where lists of one owner each are put together, those of one owner are found
again as one of the lists. -/
theorem filter_flatMap_owners {own : String -> List VirtualFunction}
    (owned : forall name function, function ∈ own name -> function.owner = name) {owners : List String}
    (distinct : owners.Nodup) (name : String) :
    (owners.flatMap own).filter (fun function => function.owner = name) =
      if name ∈ owners then own name else [] := by
  induction owners with
  | nil => rfl
  | cons first rest inductionHypothesis =>
      rcases List.nodup_cons.mp distinct with ⟨fresh, later⟩
      rw [List.flatMap_cons, List.filter_append, inductionHypothesis later]
      by_cases same : first = name
      · subst same
        have whole : (own first).filter (fun function => function.owner = first) = own first :=
          List.filter_eq_self.mpr fun function member => decide_eq_true (owned first function member)
        rw [whole, if_neg fresh, if_pos List.mem_cons_self, List.append_nil]
      · have none : (own first).filter (fun function => function.owner = name) = [] := by
          refine List.filter_eq_nil_iff.mpr fun function member => ?_
          rw [owned first function member, decide_eq_true_iff]
          exact same
        rw [none, List.nil_append]
        simp only [List.mem_cons, Ne.symm same, false_or]

/-- A type that is no class shows the functions declared for it, sorted by their
index, and a class those of all its ancestors, the root's first.  Each declared
function is shown once and as a function of the type that declares it. -/
theorem functions_complete {host : Host} {json : Json} {document : Document} {c : Catalog}
    (decoded : Document.decode json = some document) (loaded : load host document = .ok c) :
    ∃ declared own : String -> List VirtualFunction,
      (forall name list, list ∈ document.functionLists name -> list.Ascending) ∧
      (forall name, List.Forall₂ (FunctionDecl.ReadAs name) (document.functionLists name).flatten
        (declared name)) ∧
      (forall name, StablySorted (declared name) (own name)) ∧
      (forall name, c.isClass name = false -> c.functionsOf name = own name) ∧
      (forall name, c.isClass name = true -> c.functionsOf name = (c.ancestors name).flatMap own ∧
        (c.ancestors name).head? = some rootClass ∧ (c.ancestors name).getLast? = some name) ∧
      forall name owner, (c.functionsOf name).filter (fun function => function.owner = owner) =
        if owner ∈ c.functionOwners name then own owner else [] := by
  have ordered := ordered_of_decode decoded
  rcases load_stages loaded with ⟨stages⟩
  choose declared read sorted using stages.exists_declared ordered
  refine ⟨declared, fun name => (c.functions.find? name).getD [], ordered.lists, read, sorted, ?_, ?_, ?_⟩
  · intro name stranger
    rw [functionsOf, stranger]
    rfl
  · intro name isClass
    rcases stages.ancestors_split isClass with ⟨upper, split, -⟩
    refine ⟨?_, ?_, ?_⟩
    · rw [functionsOf, isClass]
      rfl
    · rw [ancestors_of_isClass isClass]
      rfl
    · rw [split, List.getLast?_concat]
  · intro name owner
    rw [functionsOf_eq]
    refine filter_flatMap_owners ?_ ?_ owner
    · intro other function member
      exact owner_of_readAs (read other) function ((sorted other).perm.mem_iff.mp member)
    · rw [functionOwners]
      split
      · exact stages.nodup_ancestors name
      · exact List.nodup_singleton name

/-- A door with functions in each of the three places, and a lock with one. -/
def belledDoorText : Json :=
  let named := fun name => Json.object [(some "name", .string name)]
  let table := fun functions => Json.object [(some "field", .string "table"),
    (some "type", .string "VirtualFunctionTable"), (some "functions", .object functions)]
  .object
    [(some "entity_class_hierarchy", .object [(some "Door", .string "Entity")]),
     (some "fields", .object [(some "Lock", .array [table [(some "0", named "turn")]])]),
     (some "entity_fields", .object
       [(some "Door", .array
         [.object [(some "vftablefunctions", .object [(some "2", named "ring"), (some "10", named "close")])],
          table [(some "9", named "open")]]),
        (some "Entity", .array [table [(some "0", named "destroy")]])]),
     (some "vftablefunctions", .object [(some "Door", .object [(some "02", named "chime")])])]

/-- The document that is read from it. -/
def belledDoor : Document :=
  let named := fun name => FunctionDecl.mk name "" "void"
  let table := fun functions =>
    { Catalog.plainField "table" "VirtualFunctionTable" with functions := some functions }
  { Document.empty with
    hierarchy := [("Door", "Entity")]
    structs := [("Lock", [table [("0", named "turn")]])]
    entities := [("Door", [.functions [("10", named "close"), ("2", named "ring")],
      .field (table [("9", named "open")])]), ("Entity", [.field (table [("0", named "destroy")])])]
    functions := [("Door", [("02", named "chime")])] }

/-- The catalog of that document. -/
def belledDoorCatalog : Catalog :=
  { Catalog.empty with
    names := ⟨[], [], ["Lock"], ["Door", "Entity"]⟩
    composites := [("Lock", [⟨"table", .slotTable "Lock", "VirtualFunctionTable", none, none⟩])]
    entities := [("Door", [⟨"table", .slotTable "Door", "VirtualFunctionTable", none, none⟩]),
      ("Entity", [⟨"table", .slotTable "Entity", "VirtualFunctionTable", none, none⟩])]
    parents := [("Door", "Entity")]
    functions := [("Door", [⟨2, "ring", "", "void", "Door"⟩, ⟨2, "chime", "", "void", "Door"⟩,
        ⟨9, "open", "", "void", "Door"⟩, ⟨10, "close", "", "void", "Door"⟩]),
      ("Entity", [⟨0, "destroy", "", "void", "Entity"⟩]), ("Lock", [⟨0, "turn", "", "void", "Lock"⟩])] }

theorem load_belledDoor : load .standing belledDoor = .ok belledDoorCatalog := by
  let c := belledDoorCatalog
  let locks : Gathered := ⟨[], [], [("Lock", [⟨0, "turn", "", "void", "Lock"⟩])]⟩
  let classes : Gathered := ⟨[], [], [("Door", [⟨10, "close", "", "void", "Door"⟩,
    ⟨2, "ring", "", "void", "Door"⟩, ⟨9, "open", "", "void", "Door"⟩]),
    ("Entity", [⟨0, "destroy", "", "void", "Entity"⟩]), ("Lock", [⟨0, "turn", "", "void", "Lock"⟩])]⟩
  let all : Gathered := ⟨[], [], [("Door", [⟨10, "close", "", "void", "Door"⟩,
    ⟨2, "ring", "", "void", "Door"⟩, ⟨9, "open", "", "void", "Door"⟩, ⟨2, "chime", "", "void", "Door"⟩]),
    ("Entity", [⟨0, "destroy", "", "void", "Entity"⟩]), ("Lock", [⟨0, "turn", "", "void", "Lock"⟩])]⟩
  have names : (c.tables.flatMap Table.names).Perm ["Door", "Entity", "Lock"] := by decide
  exact load_of_stages ⟨[], c.composites, locks, classes, all, rfl, rfl, rfl, rfl, rfl, rfl, rfl, rfl,
    rfl, rfl, rfl, checkEmbedding_of_perm names (by decide) rfl, rfl, rfl, by cbv⟩

/-- The functions of the door, of which two have one index, come after that of the
root, and the lock shows its own. -/
theorem functions_complete_at_belledDoor : Document.decode belledDoorText = some belledDoor ∧
    load .standing belledDoor = .ok belledDoorCatalog ∧
    ∃ own : String -> List VirtualFunction, belledDoorCatalog.functionsOf "Door" = own "Entity" ++ own "Door" ∧
      belledDoorCatalog.functionsOf "Lock" = own "Lock" ∧
      (own "Door").map VirtualFunction.name = ["ring", "chime", "open", "close"] := by
  have decoded : Document.decode belledDoorText = some belledDoor := by rfl
  rcases functions_complete decoded load_belledDoor with ⟨-, own, -, -, -, others, classes, once⟩
  refine ⟨decoded, load_belledDoor, own, ?_, others "Lock" (by decide), ?_⟩
  · have ancestors : belledDoorCatalog.ancestors "Door" = ["Entity", "Door"] := by decide
    rw [(classes "Door" (by decide)).1, ancestors, List.flatMap_cons, List.flatMap_singleton]
  · have kept := once "Door" "Door"
    rw [if_pos (by decide)] at kept
    rw [← kept]
    decide

end Catalog
end MemoryAtlas
