import Mathlib.Data.List.Induction
import MemoryAtlas.Proofs.Schema.Loaded

namespace MemoryAtlas

open Schema

/-!
# Where titles come from

Titles are looked up in two steps.  The path of a field, its declaration and its
name with a dot between them, leads to the name of a table, and that name to the
table.  The tables of the document and those that fields bring along are kept
together, the latter under the path of their field.  So three things decide what
is found at a path: the fields whose paths are spelled that way, the fields that
bring a table under the name that those ask for, and the document's own table of
that name, which counts only if no field brings one.

None of this depends on the order in which the declarations are loaded.
-/

namespace TitleTable

/-- The numbers of a table stand in ascending order. -/
def Ascending (table : TitleTable) : Prop :=
  List.Pairwise (fun earlier later => earlier.1 < later.1) table

theorem lookup_cons (rest : TitleTable) (key number : Int) (title : String) :
    List.lookup number ((key, title) :: rest) =
      if number = key then some title else List.lookup number rest := by
  by_cases same : number = key
  · rw [if_pos same, List.lookup_cons, beq_iff_eq.mpr same]
  · rw [if_neg same, List.lookup_cons, beq_eq_false_iff_ne.mpr same]

theorem lookup_insert (table : TitleTable) (key number : Int) (title : String) :
    List.lookup number (table.insert key title) =
      if number = key then some title else List.lookup number table := by
  induction table with
  | nil => exact lookup_cons [] key number title
  | cons entry rest inductionHypothesis =>
      rcases entry with ⟨other, old⟩
      rw [insert]
      split
      · rename_i equal
        rw [lookup_cons, lookup_cons, ← equal]
        split <;> rfl
      split
      · exact lookup_cons _ key number title
      · rename_i different _
        rw [lookup_cons, inductionHypothesis, lookup_cons]
        by_cases here : number = other
        · have elsewhere : number ≠ key := fun same => different (same.symm.trans here)
          rw [if_pos here, if_pos here, if_neg elsewhere]
        · rw [if_neg here, if_neg here]

theorem mem_insert {table : TitleTable} {key : Int} {title : String} {entry : Int × String}
    (member : entry ∈ table.insert key title) : entry = (key, title) ∨ entry ∈ table := by
  induction table with
  | nil => exact .inl (List.mem_singleton.mp member)
  | cons first rest inductionHypothesis =>
      rcases first with ⟨other, old⟩
      rw [insert] at member
      split at member
      · rcases List.mem_cons.mp member with new | later
        · exact .inl new
        · exact .inr (List.mem_cons_of_mem _ later)
      split at member
      · exact List.mem_cons.mp member
      · rcases List.mem_cons.mp member with same | later
        · exact .inr (List.mem_cons.mpr (.inl same))
        · exact (inductionHypothesis later).imp_right (List.mem_cons_of_mem _)

theorem Ascending.insert {table : TitleTable} (ascending : table.Ascending) (key : Int) (title : String) :
    (table.insert key title).Ascending := by
  induction table with
  | nil => exact List.pairwise_singleton _ _
  | cons entry rest inductionHypothesis =>
      rcases entry with ⟨other, old⟩
      rcases List.pairwise_cons.mp ascending with ⟨above, later⟩
      rw [TitleTable.insert]
      split
      · rename_i equal
        subst equal
        exact List.pairwise_cons.mpr ⟨above, later⟩
      split
      · rename_i below
        refine List.pairwise_cons.mpr ⟨fun entry member => ?_, ascending⟩
        rcases List.mem_cons.mp member with rfl | listed
        · exact below
        · exact Int.lt_trans below (above entry listed)
      · rename_i different notBelow
        refine List.pairwise_cons.mpr ⟨fun entry member => ?_, inductionHypothesis later⟩
        rcases mem_insert member with rfl | listed
        · show other < key
          omega
        · exact above entry listed

/-- In an ascending table an entry is what its number is looked up as. -/
theorem Ascending.lookup_of_mem {table : TitleTable} (ascending : table.Ascending) {key : Int}
    {title : String} (member : (key, title) ∈ table) : List.lookup key table = some title := by
  rcases List.append_of_mem member with ⟨before, after, split⟩
  refine List.lookup_eq_some_iff.mpr ⟨before, after, split, fun entry earlier => ?_⟩
  rw [Ascending, split] at ascending
  have below := (List.pairwise_append.mp ascending).2.2 entry earlier _ List.mem_cons_self
  exact bne_iff_ne.mpr (Int.ne_of_gt below)

end TitleTable

namespace Schema

/-! ## Reading a table -/

/-- The title that a table gives to a number as it is written: that of the last
of its keys for the number. -/
def titleIn (titles : Table String) (number : Int) : Option String :=
  titles.foldl (fun found entry => if titleKey? entry.1 = some number then some entry.2 else found) none

theorem titleIn_concat (titles : Table String) (entry : String × String) (number : Int) :
    titleIn (titles ++ [entry]) number =
      if titleKey? entry.1 = some number then some entry.2 else titleIn titles number := by
  rw [titleIn, List.foldl_append]
  rfl

/-- Further entries do not change the title of a number that they have no key for. -/
theorem titleIn_append (titles : Table String) {later : Table String} {number : Int}
    (silent : forall entry, entry ∈ later -> titleKey? entry.1 ≠ some number) :
    titleIn (titles ++ later) number = titleIn titles number := by
  induction later using List.reverseRecOn with
  | nil => rw [List.append_nil]
  | append_singleton rest entry inductionHypothesis =>
      rw [← List.append_assoc, titleIn_concat, if_neg (silent entry (by simp))]
      exact inductionHypothesis fun other member => silent other (by simp [member])

/-- The table has been read from what is written: there is a number behind each
key, and of each number the last title has been kept. -/
structure ReadFrom (titles : Table String) (table : TitleTable) : Prop where
  numbered : forall entry, entry ∈ titles -> ∃ number, titleKey? entry.1 = some number
  ascending : table.Ascending
  answers : forall number, List.lookup number table = titleIn titles number

theorem ReadFrom.concat {titles : Table String} {table : TitleTable} (done : ReadFrom titles table)
    {entry : String × String} {key : Int} (keyed : titleKey? entry.1 = some key) :
    ReadFrom (titles ++ [entry]) (table.insert key entry.2) where
  numbered := by
    intro other member
    rcases List.mem_append.mp member with earlier | last
    · exact done.numbered other earlier
    · rw [List.mem_singleton.mp last]
      exact ⟨key, keyed⟩
  ascending := done.ascending.insert key entry.2
  answers := by
    intro number
    rw [TitleTable.lookup_insert, titleIn_concat, keyed, done.answers]
    by_cases same : number = key
    · rw [if_pos same, if_pos (congrArg some same.symm)]
    · rw [if_neg same, if_neg fun equal => same (Option.some.inj equal).symm]

theorem loadTitles_readFrom {owner : String} {titles : Table String} {table : TitleTable}
    (loaded : loadTitles owner titles = .ok table) : ReadFrom titles table := by
  refine Except.foldlM_along ReadFrom ?_ ?_ loaded
  · exact ⟨fun entry member => absurd member List.not_mem_nil, List.Pairwise.nil, fun number => rfl⟩
  · intro read entry before after _ done step
    split at step
    · rename_i key keyed
      cases step
      exact done.concat keyed
    · cases step

/-! ## Registering -/

/-- The name that the table of a source is kept under, for a field with a path. -/
def TitleSource.tableName (path : String) : TitleSource -> String
  | .shared name => name
  | .own _ => path

/-- One of the written fields has the path and this source for its titles. -/
def TitledBy (Written : String -> FieldDecl -> Prop) (path : String) (source : TitleSource) : Prop :=
  ∃ owner decl, Written owner decl ∧ owner ++ "." ++ decl.name = path ∧ decl.titleSource? = some source

/-- The fields that have been read so far. -/
def Among (done : List (String × FieldDecl)) (owner : String) (decl : FieldDecl) : Prop :=
  (owner, decl) ∈ done

theorem titledBy_concat {done : List (String × FieldDecl)} {owner path : String} {decl : FieldDecl}
    {source : TitleSource} :
    TitledBy (Among (done ++ [(owner, decl)])) path source <->
      TitledBy (Among done) path source ∨
        owner ++ "." ++ decl.name = path ∧ decl.titleSource? = some source := by
  constructor
  · rintro ⟨owner', decl', member, spelled, sourced⟩
    rcases List.mem_append.mp member with earlier | last
    · exact .inl ⟨owner', decl', earlier, spelled, sourced⟩
    · cases List.mem_singleton.mp last
      exact .inr ⟨spelled, sourced⟩
  · rintro (⟨owner', decl', member, spelled, sourced⟩ | ⟨spelled, sourced⟩)
    · exact ⟨owner', decl', List.mem_append_left _ member, spelled, sourced⟩
    · exact ⟨owner, decl, List.mem_append_right _ (List.mem_singleton.mpr rfl), spelled, sourced⟩

/-- The paths that lead to a table are those of the fields with a source, and
each leads where one of its sources says. -/
structure NamesRegistered (Titled : String -> TitleSource -> Prop) (names : Table String) : Prop where
  listed : forall path source, Titled path source -> path ∈ names.names
  named : forall path name, names.find? path = some name ->
    ∃ source, Titled path source ∧ source.tableName path = name

/-- Every table that a source needs is there.  A table is one that a field has
brought or, if no field has brought one of its name, one of the document. -/
structure TablesRegistered (refs : Table TitleTable) (Titled : String -> TitleSource -> Prop)
    (tables : Table TitleTable) : Prop where
  present : forall path source, Titled path source -> source.tableName path ∈ tables.names
  filled : forall name table, tables.find? name = some table ->
    (∃ titles, Titled name (.own titles) ∧ loadTitles name titles = .ok table) ∨
      (forall titles, ¬ Titled name (.own titles)) ∧ refs.find? name = some table

section Registering

variable {refs : Table TitleTable} {done : List (String × FieldDecl)} {owner : String} {decl : FieldDecl}

theorem NamesRegistered.insert {names : Table String} (registered : NamesRegistered (TitledBy (Among done)) names)
    {source : TitleSource} (sourced : decl.titleSource? = some source) :
    NamesRegistered (TitledBy (Among (done ++ [(owner, decl)])))
      (Table.insert (owner ++ "." ++ decl.name) (source.tableName (owner ++ "." ++ decl.name)) names) where
  listed := by
    intro path other titled
    rcases titledBy_concat.mp titled with earlier | ⟨spelled, -⟩
    · exact Table.mem_names_insert.mpr (.inr (registered.listed path other earlier))
    · exact Table.mem_names_insert.mpr (.inl spelled.symm)
  named := by
    intro path name found
    by_cases here : path = owner ++ "." ++ decl.name
    · subst here
      rw [Table.find?_insert_self] at found
      exact ⟨source, titledBy_concat.mpr (.inr ⟨rfl, sourced⟩), Option.some.inj found⟩
    · rw [Table.find?_insert_of_ne _ _ here] at found
      rcases registered.named path name found with ⟨other, titled, tabled⟩
      exact ⟨other, titledBy_concat.mpr (.inl titled), tabled⟩

/-- A field that names a table of the others changes no table. -/
theorem TablesRegistered.shared {tables : Table TitleTable}
    (registered : TablesRegistered refs (TitledBy (Among done)) tables) {name : String}
    (sourced : decl.titleSource? = some (.shared name)) (known : name ∈ tables.names) :
    TablesRegistered refs (TitledBy (Among (done ++ [(owner, decl)]))) tables where
  present := by
    intro path source titled
    rcases titledBy_concat.mp titled with earlier | ⟨-, last⟩
    · exact registered.present path source earlier
    · rw [sourced] at last
      cases last
      exact known
  filled := by
    intro other table found
    have same : forall titles, TitledBy (Among (done ++ [(owner, decl)])) other (.own titles) <->
        TitledBy (Among done) other (.own titles) := by
      intro titles
      rw [titledBy_concat, sourced]
      exact or_iff_left fun ⟨_, impossible⟩ => by cases impossible
    simp only [same]
    exact registered.filled other table found

theorem TablesRegistered.own {tables : Table TitleTable}
    (registered : TablesRegistered refs (TitledBy (Among done)) tables) {titles : Table String} {table : TitleTable}
    (sourced : decl.titleSource? = some (.own titles))
    (loaded : loadTitles (owner ++ "." ++ decl.name) titles = .ok table) :
    TablesRegistered refs (TitledBy (Among (done ++ [(owner, decl)])))
      (Table.insert (owner ++ "." ++ decl.name) table tables) where
  present := by
    intro path source titled
    rcases titledBy_concat.mp titled with earlier | ⟨spelled, last⟩
    · exact Table.mem_names_insert.mpr (.inr (registered.present path source earlier))
    · rw [sourced] at last
      cases last
      exact Table.mem_names_insert.mpr (.inl spelled.symm)
  filled := by
    intro name filed found
    by_cases here : name = owner ++ "." ++ decl.name
    · subst here
      rw [Table.find?_insert_self] at found
      cases found
      exact .inl ⟨titles, titledBy_concat.mpr (.inr ⟨rfl, sourced⟩), loaded⟩
    · rw [Table.find?_insert_of_ne _ _ here] at found
      have same : forall titles, TitledBy (Among (done ++ [(owner, decl)])) name (.own titles) <->
          TitledBy (Among done) name (.own titles) := by
        intro titles
        rw [titledBy_concat]
        exact or_iff_left fun ⟨spelled, _⟩ => here spelled.symm
      simp only [same]
      exact registered.filled name filed found

end Registering

/-- Loading registers the titles of all fields it reads. -/
theorem registered_follows (refs : Table TitleTable) : Follows (fun done g =>
    NamesRegistered (TitledBy (Among done)) g.titleNames ∧ TablesRegistered refs (TitledBy (Among done)) g.titleTables) where
  titles := by
    rintro done owner decl g g' gathered ⟨names, tables⟩
    rcases gatherTitles_cases gathered with ⟨untitled, rfl⟩ | ⟨name, shared, known, rfl⟩ |
      ⟨titles, table, own, loaded, rfl⟩
    · have same : TitledBy (Among (done ++ [(owner, decl)])) = TitledBy (Among done) := by
        funext path source
        rw [titledBy_concat, untitled]
        simp
      rw [same]
      exact ⟨names, tables⟩
    · exact ⟨names.insert shared, tables.shared shared known⟩
    · exact ⟨names.insert own, tables.own own loaded⟩
  functions := by
    rintro done owner decls g g' added registered
    rcases addFunctions_titles added with ⟨sameNames, sameTables⟩
    rw [sameNames, sameTables]
    exact registered

/-! ## What a document registers -/

/-- The document writes the field down for the structure or class of this name. -/
def Document.Writes (document : Document) (owner : String) (decl : FieldDecl) : Prop :=
  (∃ decls, (owner, decls) ∈ document.structs ∧ decl ∈ decls) ∨
    ∃ entries, document.entities.find? owner = some entries ∧ .field decl ∈ entries

/-- What is kept under the name of a table: titles that a field has brought
there, and the document's own only if no field has brought any. -/
def Document.Fills (document : Document) (name : String) (titles : Table String) : Prop :=
  TitledBy document.Writes name (.own titles) ∨
    (forall own, ¬ TitledBy document.Writes name (.own own)) ∧ document.titles.find? name = some titles

/-- Titles that a field with the path can come by. -/
def Document.Offers (document : Document) (path : String) (titles : Table String) : Prop :=
  ∃ source, TitledBy document.Writes path source ∧ document.Fills (source.tableName path) titles

theorem EntityEntry.mem_filterMap_field? {entries : List EntityEntry} {decl : FieldDecl} :
    decl ∈ entries.filterMap EntityEntry.field? <-> .field decl ∈ entries := by
  rw [List.mem_filterMap]
  constructor
  · rintro ⟨entry, member, declared⟩
    cases entry with
    | functions decls => cases declared
    | field other =>
        cases declared
        exact member
  · exact fun member => ⟨.field decl, member, rfl⟩

namespace Stages

variable {host : Host} {document : Document} {c : Catalog} (stages : Stages host document c)
include stages

/-- The fields read while a document is loaded are those that it writes down. -/
theorem among_written : Among (document.written c.names) = document.Writes := by
  have listed := (collectNames_ok stages.collected).2.2.2.2
  funext owner decl
  rw [Among, Document.written, List.mem_append, Document.Writes, List.mem_flatMap, List.mem_flatMap]
  refine propext (or_congr ?_ ?_)
  · constructor
    · rintro ⟨⟨name, decls⟩, bound, member⟩
      rcases List.mem_map.mp member with ⟨other, written, same⟩
      cases same
      exact ⟨decls, bound, written⟩
    · rintro ⟨decls, bound, written⟩
      exact ⟨(owner, decls), bound, List.mem_map_of_mem written⟩
  · constructor
    · rintro ⟨entry, bound, member⟩
      rcases List.mem_map.mp bound with ⟨name, -, rfl⟩
      rcases List.mem_map.mp member with ⟨other, written, same⟩
      cases same
      cases found : document.entities.find? name with
      | none =>
          rw [found] at written
          cases written
      | some entries =>
          rw [found] at written
          exact ⟨entries, rfl, EntityEntry.mem_filterMap_field?.mp written⟩
    · rintro ⟨entries, found, written⟩
      have named : owner ∈ document.entities.names :=
        Table.find?_isSome_iff.mp (Option.isSome_iff_exists.mpr ⟨entries, found⟩)
      refine ⟨(owner, entries), List.mem_map.mpr ⟨owner, listed owner named, by rw [found]; rfl⟩, ?_⟩
      exact List.mem_map_of_mem (EntityEntry.mem_filterMap_field?.mpr written)

theorem titles_registered : NamesRegistered (TitledBy document.Writes) c.titleNames ∧
    TablesRegistered stages.refs (TitledBy document.Writes) c.titleTables := by
  rw [← stages.among_written, stages.titleNames_eq, stages.titleTables_eq]
  refine (registered_follows stages.refs).stages stages ⟨⟨?_, ?_⟩, ⟨?_, ?_⟩⟩
  · rintro path source ⟨_, _, impossible, -⟩
    cases impossible
  · exact fun path name impossible => by cases impossible
  · rintro path source ⟨_, _, impossible, -⟩
    cases impossible
  · refine fun name table found => .inr ⟨?_, found⟩
    rintro titles ⟨_, _, impossible, -⟩
    cases impossible

/-- The document's own tables have been read from what it writes down. -/
theorem refs_readFrom {name : String} {table : TitleTable} (found : stages.refs.find? name = some table) :
    ∃ titles, document.titles.find? name = some titles ∧ ReadFrom titles table := by
  have aligned : List.Forall₂ (fun (entry : String × Table String) (entry' : String × TitleTable) =>
      entry'.1 = entry.1 ∧ ReadFrom entry.2 entry'.2) document.titles stages.refs := by
    refine (Except.mapM_forall₂ stages.titled).imp fun entry entry' made => ?_
    rcases Except.bind_eq_ok_iff.mp made with ⟨table, loaded, made⟩
    cases made
    exact ⟨rfl, loadTitles_readFrom loaded⟩
  exact Table.find?_of_forall₂ (fun _ titles table => ReadFrom titles table) aligned found

theorem tables_readFrom {name : String} {table : TitleTable} (found : c.titleTables.find? name = some table) :
    ∃ titles, document.Fills name titles ∧ ReadFrom titles table := by
  rcases stages.titles_registered.2.filled name table found with ⟨titles, brought, loaded⟩ | ⟨nobody, shared⟩
  · exact ⟨titles, .inl brought, loadTitles_readFrom loaded⟩
  · rcases stages.refs_readFrom shared with ⟨titles, written, readFrom⟩
    exact ⟨titles, .inr ⟨nobody, written⟩, readFrom⟩

/-- At a path without a source nothing is found. -/
theorem titlesOf_eq_none {owner field : String}
    (nobody : forall source, ¬ TitledBy document.Writes (owner ++ "." ++ field) source) :
    c.titlesOf owner field = none := by
  cases found : c.titleNames.find? (owner ++ "." ++ field) with
  | none => simp only [Catalog.titlesOf, found]; rfl
  | some name =>
      rcases stages.titles_registered.1.named _ name found with ⟨source, titled, -⟩
      exact absurd titled (nobody source)

/-- At a path with a source one of the tables is found that are offered there. -/
theorem titlesOf_offered {owner field : String} {source : TitleSource}
    (titled : TitledBy document.Writes (owner ++ "." ++ field) source) :
    ∃ titles table, document.Offers (owner ++ "." ++ field) titles ∧
      c.titlesOf owner field = some table ∧ ReadFrom titles table := by
  rcases stages.titles_registered with ⟨names, tables⟩
  have listed := names.listed _ source titled
  rcases Option.isSome_iff_exists.mp (Table.find?_isSome_iff.mpr listed) with ⟨name, named⟩
  rcases names.named _ name named with ⟨other, also, rfl⟩
  have present := tables.present _ other also
  rcases Option.isSome_iff_exists.mp (Table.find?_isSome_iff.mpr present) with ⟨table, found⟩
  rcases stages.tables_readFrom found with ⟨titles, fills, readFrom⟩
  refine ⟨titles, table, ⟨other, also, fills⟩, ?_, readFrom⟩
  simp only [Catalog.titlesOf, named]
  exact found

end Stages
end Schema

namespace Catalog

/-- A field shows the titles of a table as it is written.  There is a number
behind each of its keys, the last title of a number is the one that is shown,
and a number without a title is shown as unknown. -/
structure Shows (c : Catalog) (owner field : String) (titles : Table String) : Prop where
  numbered : forall entry, entry ∈ titles -> ∃ number, titleKey? entry.1 = some number
  shown : forall before key title after number, titles = before ++ (key, title) :: after ->
    titleKey? key = some number -> (forall later, later ∈ after -> titleKey? later.1 ≠ some number) ->
    c.title? owner field number = some title ∧ c.flagTitle owner field number = title ∧
      c.stateTitle owner field number = title
  unknown : forall number, (forall entry, entry ∈ titles -> titleKey? entry.1 ≠ some number) ->
    c.title? owner field number = none ∧ c.flagTitle owner field number = "Unknown" ∧
      c.stateTitle owner field number = "UNKNOWN STATE"

theorem title?_eq {c : Catalog} {owner field : String} {table : TitleTable}
    (found : c.titlesOf owner field = some table) (number : Int) :
    c.title? owner field number = List.lookup number table := by
  rw [title?, found]
  rfl

theorem titles_of_title?_eq_some {c : Catalog} {owner field title : String} {number : Int}
    (found : c.title? owner field number = some title) :
    c.flagTitle owner field number = title ∧ c.stateTitle owner field number = title := by
  rw [flagTitle, stateTitle, found]
  exact ⟨rfl, rfl⟩

theorem titles_of_title?_eq_none {c : Catalog} {owner field : String} {number : Int}
    (missing : c.title? owner field number = none) :
    c.flagTitle owner field number = "Unknown" ∧ c.stateTitle owner field number = "UNKNOWN STATE" := by
  rw [flagTitle, stateTitle, missing]
  exact ⟨rfl, rfl⟩

theorem shows_of_readFrom {c : Catalog} {owner field : String} {titles : Table String} {table : TitleTable}
    (found : c.titlesOf owner field = some table) (readFrom : ReadFrom titles table) :
    c.Shows owner field titles where
  numbered := readFrom.numbered
  shown := by
    intro before key title after number split keyed silent
    have answer : c.title? owner field number = some title := by
      rw [title?_eq found, readFrom.answers, split, List.append_cons, titleIn_append _ silent, titleIn_concat,
        if_pos keyed]
    exact ⟨answer, titles_of_title?_eq_some answer⟩
  unknown := by
    intro number silent
    have answer : c.title? owner field number = none := by
      rw [title?_eq found, readFrom.answers, ← List.nil_append titles, titleIn_append [] silent]
      rfl
    exact ⟨answer, titles_of_title?_eq_none answer⟩

end Catalog
end MemoryAtlas
