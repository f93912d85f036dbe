import MemoryAtlas.Proofs.Report.Owners
import MemoryAtlas.Proofs.Schema.Filing
import MemoryAtlas.Proofs.Schema.Titles

namespace MemoryAtlas

open Schema

/-!
# Which titles are shown

A field of flags or of a state is meant to show the titles that it names or
brings along, whatever else the document declares.  It does so unless it is
disturbed, and only two things disturb it: another field whose path is spelled
like its own, and a field that brings its own titles under the very name that
this one asks for.  Names without dots rule out both.

A table as it is written can have several keys for one number.  The last of them
counts.
-/

/-- Where the names of a table differ a name has one value. -/
theorem Table.eq_of_mem {α : Type} {table : Table α} (nodup : table.names.Nodup) {name : String}
    {value value' : α} (member : (name, value) ∈ table) (member' : (name, value') ∈ table) :
    value = value' :=
  congrArg Prod.snd (List.inj_on_of_nodup_map nodup member member' rfl)

namespace Schema

/-- Nothing in the document gets in the way of the titles of a field: no field
with its path has titles written elsewhere, and no field brings titles of its
own under the name of the table that it asks for. -/
structure Document.Undisturbed (document : Document) (owner : String) (decl : FieldDecl) : Prop where
  path : forall source, TitledBy document.Writes (owner ++ "." ++ decl.name) source ->
    decl.titleSource? = some source
  table : forall name own, decl.titles = some name -> ¬ TitledBy document.Writes name (.own own)

/-! ## Names that keep titles apart -/

/-- Field names and the names of asked-for tables have no dots, and every name
is given to one structure or one class. -/
structure Document.Tidy (document : Document) : Prop where
  fields : forall owner decl, document.Writes owner decl -> Dotless decl.name
  tables : forall owner decl name, document.Writes owner decl -> decl.titles = some name -> Dotless name
  structs : document.structs.names.Nodup
  apart : forall name, name ∈ document.structs.names -> name ∉ document.entities.names

/-- Loading has gone through every declaration of a section. -/
theorem loadAll_each {α : Type} {load : String -> α -> Gathered -> Except Fault (List Field × Gathered)}
    {decls : Table α} {before after : Gathered} {tables : Table (List Field)}
    (loaded : loadAll load decls before = .ok (tables, after)) :
    forall name decl, (name, decl) ∈ decls -> ∃ g fields g', load name decl g = .ok (fields, g') := by
  intro name decl member
  rcases exists_partner (loadAll_forall₂ loaded).flip (name, decl) member with ⟨entry, -, -, g, g', made⟩
  exact ⟨g, entry.2, g', made⟩

/-- In one declaration every field name is written once. -/
theorem Stages.eq_of_writes {host : Host} {document : Document} {c : Catalog}
    (stages : Stages host document c)
    (tidy : document.Tidy) {owner : String} {decl decl' : FieldDecl} (written : document.Writes owner decl)
    (written' : document.Writes owner decl') (same : decl'.name = decl.name) : decl' = decl := by
  have classless : forall entries, document.entities.find? owner = some entries ->
      owner ∈ document.entities.names := fun entries found =>
    Table.find?_isSome_iff.mp (Option.isSome_iff_exists.mpr ⟨entries, found⟩)
  rcases written with ⟨decls, bound, member⟩ | ⟨entries, found, member⟩
  · have struct : owner ∈ document.structs.names := List.mem_map.mpr ⟨_, bound, rfl⟩
    rcases written' with ⟨decls', bound', member'⟩ | ⟨entries', found', -⟩
    · rw [← Table.eq_of_mem tidy.structs bound bound'] at member'
      rcases loadAll_each stages.structsLoaded owner decls bound with ⟨g, fields, g', loaded⟩
      have nodup := (loadFields_keeps loaded).distinct
      rw [(loadFields_keeps loaded).names] at nodup
      exact List.inj_on_of_nodup_map nodup member' member same
    · exact absurd (classless entries' found') (tidy.apart owner struct)
  · rcases written' with ⟨decls', bound', -⟩ | ⟨entries', found', member'⟩
    · exact absurd (classless entries found) (tidy.apart owner (List.mem_map.mpr ⟨_, bound', rfl⟩))
    · rw [found] at found'
      cases found'
      have listed := (collectNames_ok stages.collected).2.2.2.2 owner (classless entries found)
      have bound : (owner, entries) ∈
          c.names.entities.map (fun name => (name, (document.entities.find? name).getD [])) :=
        List.mem_map.mpr ⟨owner, listed, by rw [found]; rfl⟩
      rcases loadAll_each stages.entitiesLoaded owner entries bound with ⟨g, fields, g', loaded⟩
      have nodup := (loadEntries_keeps loaded).distinct
      rw [(loadEntries_keeps loaded).names] at nodup
      exact List.inj_on_of_nodup_map nodup (EntityEntry.mem_filterMap_field?.mpr member')
        (EntityEntry.mem_filterMap_field?.mpr member) same

/-- In a tidy document no field is disturbed. -/
theorem Stages.undisturbed {host : Host} {document : Document} {c : Catalog}
    (stages : Stages host document c)
    (tidy : document.Tidy) {owner : String} {decl : FieldDecl} (written : document.Writes owner decl) :
    document.Undisturbed owner decl where
  path := by
    rintro source ⟨owner', decl', written', spelled, sourced⟩
    have split := congrArg Report.splitLast? spelled
    rw [Report.splitLast?_append (tidy.fields owner' decl' written'),
      Report.splitLast?_append (tidy.fields owner decl written)] at split
    rcases Prod.mk.inj (Option.some.inj split) with ⟨rfl, sameName⟩
    rw [← stages.eq_of_writes tidy written written' sameName]
    exact sourced
  table := by
    rintro name own asked ⟨owner', decl', written', rfl, -⟩
    have dotless := tidy.tables owner decl _ written asked
    have split := Report.splitLast?_of_dotless dotless
    rw [Report.splitLast?_append (tidy.fields owner' decl' written')] at split
    cases split

end Schema

namespace Catalog

/-- The titles of a field.  A field that names a table needs one to be there, in
the document or brought by a field, and a field with titles shows titles that
are offered at its path.  Unless it is disturbed, these are the ones that the
document keeps under the name it asks for, or the ones it brings along, or none.
A tidy document disturbs no field. -/
theorem shows_titles_of_writes {host : Host} {document : Document} {c : Catalog}
    (loaded : load host document = .ok c)
    {owner : String} {decl : FieldDecl} (written : document.Writes owner decl)
    (takes : decl.takesTitles = true) :
    (forall name, decl.titles = some name ->
      (name ∈ document.titles.names ∨ ∃ own, TitledBy document.Writes name (.own own)) ∧
      (document.Undisturbed owner decl -> ∃ titles, document.titles.find? name = some titles ∧
        c.Shows owner decl.name titles)) ∧
    (forall titles, decl.titles = none -> decl.flags.or decl.states = some titles ->
      document.Undisturbed owner decl -> c.Shows owner decl.name titles) ∧
    (decl.titles = none -> decl.flags.or decl.states = none -> document.Undisturbed owner decl ->
      c.titlesOf owner decl.name = none ∧ forall number,
        c.flagTitle owner decl.name number = "Unknown" ∧
        c.stateTitle owner decl.name number = "UNKNOWN STATE") ∧
    (decl.titleSource? ≠ none -> ∃ titles, document.Offers (owner ++ "." ++ decl.name) titles ∧
      c.Shows owner decl.name titles) ∧
    (document.Tidy -> document.Undisturbed owner decl) := by
  rcases load_stages loaded with ⟨stages⟩
  have source := decl.titleSource?_of_takesTitles takes
  have titledBy : forall source, decl.titleSource? = some source ->
      TitledBy document.Writes (owner ++ "." ++ decl.name) source :=
    fun source sourced => ⟨owner, decl, written, rfl, sourced⟩
  refine ⟨fun name asked => ⟨?_, fun undisturbed => ?_⟩, fun titles unnamed brought undisturbed => ?_,
    fun unnamed nothing undisturbed => ?_, fun sourced => ?_, fun tidy => stages.undisturbed tidy written⟩
  · rw [asked] at source
    have present := stages.titles_registered.2.present _ _ (titledBy _ source)
    rcases Option.isSome_iff_exists.mp (Table.find?_isSome_iff.mpr present) with ⟨table, found⟩
    rcases stages.tables_readFrom found with ⟨titles, brought | ⟨-, shared⟩, -⟩
    · exact .inr ⟨titles, brought⟩
    · exact .inl (Table.find?_isSome_iff.mp (Option.isSome_iff_exists.mpr ⟨titles, shared⟩))
  · rw [asked] at source
    rcases stages.titlesOf_offered (titledBy _ source) with ⟨titles, table, ⟨other, also, fills⟩, found, readFrom⟩
    have same := undisturbed.path other also
    rw [source] at same
    cases same
    rcases fills with brought | ⟨-, shared⟩
    · exact absurd brought (undisturbed.table name titles asked)
    · exact ⟨titles, shared, shows_of_readFrom found readFrom⟩
  · rw [unnamed, brought] at source
    rcases stages.titlesOf_offered (titledBy _ source) with ⟨other, table, ⟨which, also, fills⟩, found, readFrom⟩
    have same := undisturbed.path which also
    rw [source] at same
    cases same
    rcases fills with own | ⟨nobody, -⟩
    · have equal := undisturbed.path _ own
      rw [source] at equal
      cases equal
      exact shows_of_readFrom found readFrom
    · exact absurd (titledBy _ source) (nobody titles)
  · rw [unnamed, nothing] at source
    have nobody : forall source, ¬ TitledBy document.Writes (owner ++ "." ++ decl.name) source := by
      intro other also
      have same := undisturbed.path other also
      rw [source] at same
      cases same
    have missing := stages.titlesOf_eq_none nobody
    refine ⟨missing, fun number => titles_of_title?_eq_none ?_⟩
    rw [title?, missing]
    rfl
  · rcases Option.ne_none_iff_exists'.mp sourced with ⟨which, sourced⟩
    rcases stages.titlesOf_offered (titledBy which sourced) with ⟨titles, table, offers, found, readFrom⟩
    exact ⟨titles, offers, shows_of_readFrom found readFrom⟩

/-- Lamps with titles that all of them share, a torch with its own, and a field
without any. -/
def lampAndTorch : Document :=
  { Document.empty with
    titles := [("modes", [("-1", "Off"), ("0x1", "Dim"), ("200", "Bright")])]
    structs := [("Lamp", [{ plainField "mode" "State8" with titles := some "modes" }]),
      ("Torch", [{ plainField "mode" "State8" with states := some [("1", "On")] },
        plainField "marks" "Flags8"])] }

def lampAndTorchCatalog : Catalog :=
  { empty with
    names := ⟨[], [], ["Lamp", "Torch"], ["Entity"]⟩
    composites := [("Lamp", [⟨"mode", .scalar ⟨1, .state⟩, "State8", none, none⟩]),
      ("Torch", [⟨"mode", .scalar ⟨1, .state⟩, "State8", none, none⟩,
        ⟨"marks", .scalar ⟨1, .flags⟩, "Flags8", none, none⟩])]
    entities := [("Entity", [])]
    titleNames := [("Lamp.mode", "modes"), ("Torch.mode", "Torch.mode")]
    titleTables := [("Torch.mode", [(1, "On")]), ("modes", [(-1, "Off"), (1, "Dim"), (200, "Bright")])] }

theorem load_lampAndTorch : load .standing lampAndTorch = .ok lampAndTorchCatalog := by
  let c := lampAndTorchCatalog
  let refs : Table TitleTable := [("modes", [(-1, "Off"), (1, "Dim"), (200, "Bright")])]
  let gathered : Gathered := ⟨c.titleNames, c.titleTables, []⟩
  have names : (c.tables.flatMap Table.names).Perm ["Entity", "Lamp", "Torch"] := by decide
  exact load_of_stages ⟨refs, c.composites, gathered, gathered, gathered, rfl, rfl, rfl, rfl, rfl, rfl, rfl,
    rfl, rfl, rfl, rfl, checkEmbedding_of_perm names (by decide) rfl, rfl, rfl, rfl⟩

theorem tidy_lampAndTorch : lampAndTorch.Tidy := by
  have fields : forall decls, decls ∈ lampAndTorch.structs -> forall decl, decl ∈ decls.2 ->
      Dotless decl.name ∧ forall name, name ∈ decl.titles -> Dotless name := by decide
  have each : forall owner decl, lampAndTorch.Writes owner decl ->
      Dotless decl.name ∧ forall name, name ∈ decl.titles -> Dotless name := by
    rintro owner decl (⟨decls, bound, member⟩ | ⟨entries, impossible, -⟩)
    · exact fields (owner, decls) bound decl member
    · cases impossible
  exact ⟨fun owner decl written => (each owner decl written).1,
    fun owner decl name written asked => (each owner decl written).2 name asked, by decide, by decide⟩

theorem shows_titles_of_writes_at_lampAndTorch : load .standing lampAndTorch = .ok lampAndTorchCatalog ∧
    lampAndTorchCatalog.Shows "Lamp" "mode" [("-1", "Off"), ("0x1", "Dim"), ("200", "Bright")] ∧
    lampAndTorchCatalog.Shows "Torch" "mode" [("1", "On")] ∧
    lampAndTorchCatalog.titlesOf "Torch" "marks" = none := by
  have lamp : lampAndTorch.Writes "Lamp" { plainField "mode" "State8" with titles := some "modes" } :=
    .inl ⟨_, .head _, .head _⟩
  have torch : lampAndTorch.Writes "Torch" { plainField "mode" "State8" with states := some [("1", "On")] } :=
    .inl ⟨_, .tail _ (.head _), .head _⟩
  have marks : lampAndTorch.Writes "Torch" (plainField "marks" "Flags8") :=
    .inl ⟨_, .tail _ (.head _), .tail _ (.head _)⟩
  rcases shows_titles_of_writes load_lampAndTorch lamp (by decide) with ⟨shared, -, -, -, undisturbed⟩
  rcases (shared "modes" rfl).2 (undisturbed tidy_lampAndTorch) with ⟨titles, found, shows_⟩
  cases found
  rcases shows_titles_of_writes load_lampAndTorch torch (by decide) with ⟨-, own, -, -, undisturbed⟩
  have showsOwn := own _ rfl rfl (undisturbed tidy_lampAndTorch)
  rcases shows_titles_of_writes load_lampAndTorch marks (by decide) with ⟨-, -, none, -, undisturbed⟩
  exact ⟨load_lampAndTorch, shows_, showsOwn, (none rfl rfl (undisturbed tidy_lampAndTorch)).1⟩

/-- A torch that asks for a table whose name is also the path of a field. -/
def torchWithTable : Document :=
  { Document.empty with
    titles := [("Lamp.mode", [("1", "Dim")])]
    structs := [("Lamp", [{ plainField "mode" "State8" with states := some [("1", "Bright")] }]),
      ("Torch", [{ plainField "mode" "State8" with titles := some "Lamp.mode" }])] }

/-- The torch shows the titles of the lamp instead of the table. -/
theorem accepted_replaces_titles : ∃ c, load .standing torchWithTable = .ok c ∧
    torchWithTable.Writes "Torch" { plainField "mode" "State8" with titles := some "Lamp.mode" } ∧
    torchWithTable.titles.find? "Lamp.mode" = some [("1", "Dim")] ∧ titleKey? "1" = some 1 ∧
    c.title? "Torch" "mode" 1 = some "Bright" := by
  let c : Catalog :=
    { empty with
      names := ⟨[], [], ["Lamp", "Torch"], ["Entity"]⟩
      composites := [("Lamp", [⟨"mode", .scalar ⟨1, .state⟩, "State8", none, none⟩]),
        ("Torch", [⟨"mode", .scalar ⟨1, .state⟩, "State8", none, none⟩])]
      entities := [("Entity", [])]
      titleNames := [("Lamp.mode", "Lamp.mode"), ("Torch.mode", "Lamp.mode")]
      titleTables := [("Lamp.mode", [(1, "Bright")])] }
  let gathered : Gathered := ⟨c.titleNames, c.titleTables, []⟩
  have loaded : load .standing torchWithTable = .ok c :=
    load_of_stages ⟨[("Lamp.mode", [(1, "Dim")])], c.composites, gathered, gathered, gathered, rfl, rfl, rfl,
      rfl, rfl, rfl, rfl, rfl, rfl, rfl, rfl, by cbv, rfl, rfl, rfl⟩
  exact ⟨c, loaded, .inl ⟨_, .tail _ (.head _), .head _⟩, rfl, rfl, rfl⟩

end Catalog
end MemoryAtlas
