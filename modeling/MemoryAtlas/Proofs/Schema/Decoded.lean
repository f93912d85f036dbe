import MemoryAtlas.Proofs.Schema.Titles

namespace MemoryAtlas

open Schema

/-!
# Documents that have been read

The form of a document bounds what it can say.  A table that is read from an
object binds each name once and stands in the order of its names, and a number of
bytes is a word of sixty-four bits.  Loading asks for neither: it is the reading of
a document that sees to both.
-/

namespace Table

variable {α : Type}

/-- The names of a table stand in ascending order, so that no name is bound twice. -/
def Ascending (table : Table α) : Prop :=
  table.names.Pairwise (fun earlier later => earlier < later)

theorem Ascending.nodup {table : Table α} (ascending : table.Ascending) : table.names.Nodup := by
  refine List.Pairwise.imp ?_ ascending
  rintro earlier later below rfl
  exact String.lt_irrefl earlier below

theorem Ascending.insert {table : Table α} (ascending : table.Ascending) (name : String) (value : α) :
    (Table.insert name value table).Ascending := by
  induction table with
  | nil => exact List.pairwise_singleton _ _
  | cons entry rest inductionHypothesis =>
      rcases entry with ⟨key, old⟩
      rcases List.pairwise_cons.mp ascending with ⟨above, later⟩
      rw [Table.insert]
      split
      · rename_i equal
        subst equal
        exact List.pairwise_cons.mpr ⟨above, later⟩
      split
      · rename_i below
        refine List.pairwise_cons.mpr ⟨fun other member => ?_, ascending⟩
        rcases List.mem_cons.mp member with rfl | listed
        · exact below
        · exact String.lt_trans below (above other listed)
      · rename_i different notBelow
        refine List.pairwise_cons.mpr ⟨fun other member => ?_, inductionHypothesis later⟩
        rcases mem_names_insert.mp member with rfl | listed
        · rcases Classical.em (key < other) with below | notAbove
          · exact below
          · exact absurd (String.le_antisymm (String.not_lt.mp notAbove) (String.not_lt.mp notBelow)) different
        · exact above other listed

theorem ofBindings_ascending (bindings : List (String × α)) : (ofBindings bindings).Ascending := by
  suffices forall table : Table α, table.Ascending ->
      Table.Ascending (bindings.foldl (fun table b => Table.insert b.1 b.2 table) table) from
    this [] List.Pairwise.nil
  induction bindings with
  | nil => exact fun table ascending => ascending
  | cons binding rest inductionHypothesis =>
      exact fun table ascending => inductionHypothesis _ (ascending.insert binding.1 binding.2)

theorem mem_of_mem_ofBindings {bindings : List (String × α)} {entry : String × α}
    (member : entry ∈ ofBindings bindings) : entry ∈ bindings := by
  suffices forall table : Table α, entry ∈ bindings.foldl (fun table b => Table.insert b.1 b.2 table) table ->
      entry ∈ bindings ∨ entry ∈ table from
    (this [] member).resolve_right List.not_mem_nil
  clear member
  induction bindings with
  | nil => exact fun table member => .inr member
  | cons binding rest inductionHypothesis =>
      intro table member
      rcases inductionHypothesis _ member with later | inserted
      · exact .inl (List.mem_cons_of_mem binding later)
      · rcases mem_insert inserted with rfl | earlier
        · exact .inl List.mem_cons_self
        · exact .inr earlier

end Table

namespace Json

variable {α : Type} {decode : Json -> Option α}

theorem decodeTable_ascending {json : Json} {table : Table α}
    (decoded : decodeTable decode json = some table) : table.Ascending := by
  cases json with
  | object members =>
      rcases Option.bind_eq_some_iff.mp decoded with ⟨bindings, -, made⟩
      cases made
      exact Table.ofBindings_ascending bindings
  | _ => cases decoded

theorem exists_of_mem_decodeTable {json : Json} {table : Table α}
    (decoded : decodeTable decode json = some table) {entry : String × α} (member : entry ∈ table) :
    ∃ part, decode part = some entry.2 := by
  cases json with
  | object members =>
      rcases Option.bind_eq_some_iff.mp decoded with ⟨bindings, read, made⟩
      cases made
      rcases Option.mapM_ok read entry (Table.mem_of_mem_ofBindings member) with ⟨source, -, read⟩
      rcases Option.bind_eq_some_iff.mp read with ⟨name, -, rest⟩
      rcases Option.bind_eq_some_iff.mp rest with ⟨value, valueRead, made⟩
      cases made
      exact ⟨source.2, valueRead⟩
  | _ => cases decoded

theorem exists_of_mem_decodeList {json : Json} {items : List α}
    (decoded : decodeList decode json = some items) {item : α} (member : item ∈ items) :
    ∃ part, decode part = some item := by
  cases json with
  | array parts =>
      rcases Option.mapM_ok decoded item member with ⟨part, -, read⟩
      exact ⟨part, read⟩
  | _ => cases decoded

theorem lt_of_optionally_decodeNatural {limit n : Nat} {value : Option Json}
    (decoded : optionally (decodeNatural limit) value = some (some n)) : n < limit := by
  cases value with
  | none => cases decoded
  | some json =>
      cases json with
      | natural written =>
          rcases Option.map_eq_some_iff.mp decoded with ⟨read, bounded, made⟩
          cases made
          rw [decodeNatural] at bounded
          split at bounded
          · cases bounded
            assumption
          · cases bounded
      | _ => cases decoded

theorem ascending_of_optionally_decodeTable {value : Option Json} {table : Table α}
    (decoded : optionally (decodeTable decode) value = some (some table)) : table.Ascending := by
  cases value with
  | none => cases decoded
  | some json =>
      cases json with
      | object members =>
          rcases Option.map_eq_some_iff.mp decoded with ⟨_, read, made⟩
          cases made
          exact decodeTable_ascending read
      | _ => cases decoded

end Json

namespace Schema

/-- The hierarchy, the structures, the classes and the functions of types are read
from sections of their own, each of which may be missing. -/
theorem sections_of_decode {json : Json} {document : Document}
    (decoded : Document.decode json = some document) :
    ∃ hierarchy structs entities functions : Option Json,
      Json.otherwise [] (Json.decodeTable Json.decodeText) hierarchy = some document.hierarchy ∧
      Json.otherwise [] (Json.decodeTable (Json.decodeList decodeField)) structs = some document.structs ∧
      Json.otherwise [] (Json.decodeTable (Json.decodeList decodeEntityEntry)) entities =
        some document.entities ∧
      Json.otherwise [] (Json.decodeTable (Json.decodeTable decodeFunction)) functions =
        some document.functions := by
  unfold Document.decode at decoded
  rcases Option.bind_eq_some_iff.mp decoded with ⟨sections, -, decoded⟩
  split at decoded
  · rcases Option.bind_eq_some_iff.mp decoded with ⟨hierarchy, hierarchyRead, decoded⟩
    rcases Option.bind_eq_some_iff.mp decoded with ⟨rules, -, decoded⟩
    rcases Option.bind_eq_some_iff.mp decoded with ⟨pointerTypes, -, decoded⟩
    rcases Option.bind_eq_some_iff.mp decoded with ⟨inlineTypes, -, decoded⟩
    rcases Option.bind_eq_some_iff.mp decoded with ⟨alignments, -, decoded⟩
    rcases Option.bind_eq_some_iff.mp decoded with ⟨titles, -, decoded⟩
    rcases Option.bind_eq_some_iff.mp decoded with ⟨structs, structsRead, decoded⟩
    rcases Option.bind_eq_some_iff.mp decoded with ⟨entities, entitiesRead, decoded⟩
    rcases Option.bind_eq_some_iff.mp decoded with ⟨functions, functionsRead, decoded⟩
    cases decoded
    exact ⟨_, _, _, _, hierarchyRead, structsRead, entitiesRead, functionsRead⟩
  · cases decoded

/-- The tables of a document that has been read bind no name twice. -/
theorem ascending_of_decode {json : Json} {document : Document}
    (decoded : Document.decode json = some document) :
    document.hierarchy.Ascending ∧ document.structs.Ascending ∧ document.entities.Ascending ∧
      document.functions.Ascending := by
  have ofSection : forall {α : Type} {decode : Json -> Option α} {value : Option Json} {table : Table α},
      Json.otherwise [] (Json.decodeTable decode) value = some table -> table.Ascending := by
    intro α decode value table decoded
    cases value with
    | none =>
        cases decoded
        exact List.Pairwise.nil
    | some json => exact Json.decodeTable_ascending decoded
  rcases sections_of_decode decoded with ⟨_, _, _, _, hierarchy, structs, entities, functions⟩
  exact ⟨ofSection hierarchy, ofSection structs, ofSection entities, ofSection functions⟩

/-- The numbers of bytes that fields are written with are words. -/
def Document.WordSized (document : Document) : Prop :=
  forall owner decl, document.Writes owner decl -> forall bytes, decl.offset = some bytes -> bytes < wordCount 64

/-- What all structures and classes have to say about their fields holds of every field
that is written. -/
theorem Document.Writes.of_all {document : Document} {Sound : FieldDecl -> Prop}
    (structs : forall entry, entry ∈ document.structs -> forall decl, decl ∈ entry.2 -> Sound decl)
    (entities : forall entry, entry ∈ document.entities ->
      forall decl, decl ∈ entry.2.filterMap EntityEntry.field? -> Sound decl)
    {owner : String} {decl : FieldDecl} (written : document.Writes owner decl) : Sound decl := by
  rcases written with ⟨decls, declared, member⟩ | ⟨entries, found, member⟩
  · exact structs _ declared decl member
  · exact entities _ (Table.mem_of_find? found) decl (EntityEntry.mem_filterMap_field?.mpr member)

/-- A document without numbers of bytes. -/
theorem wordSized_of_none {document : Document}
    (structs : forall entry, entry ∈ document.structs -> forall decl, decl ∈ entry.2 -> decl.offset = none)
    (entities : forall entry, entry ∈ document.entities ->
      forall decl, decl ∈ entry.2.filterMap EntityEntry.field? -> decl.offset = none) :
    document.WordSized := by
  intro owner decl written bytes sized
  rw [written.of_all structs entities] at sized
  cases sized

/-- The number of bytes and the functions of a field are read from members of their
own, each of which may be missing. -/
theorem members_of_decodeField {json : Json} {decl : FieldDecl} (decoded : decodeField json = some decl) :
    ∃ offset functions : Option Json,
      Json.optionally (Json.decodeNatural (wordCount 64)) offset = some decl.offset ∧
      Json.optionally (Json.decodeTable decodeFunction) functions = some decl.functions := by
  unfold decodeField at decoded
  rcases Option.bind_eq_some_iff.mp decoded with ⟨members, -, decoded⟩
  split at decoded
  · rcases Option.bind_eq_some_iff.mp decoded with ⟨name, -, decoded⟩
    rcases Option.bind_eq_some_iff.mp decoded with ⟨typeName, -, decoded⟩
    rcases Option.bind_eq_some_iff.mp decoded with ⟨comment, -, decoded⟩
    rcases Option.bind_eq_some_iff.mp decoded with ⟨pointer, -, decoded⟩
    rcases Option.bind_eq_some_iff.mp decoded with ⟨offset, offsetRead, decoded⟩
    rcases Option.bind_eq_some_iff.mp decoded with ⟨declaredOffset, -, decoded⟩
    rcases Option.bind_eq_some_iff.mp decoded with ⟨count, -, decoded⟩
    rcases Option.bind_eq_some_iff.mp decoded with ⟨flags, -, decoded⟩
    rcases Option.bind_eq_some_iff.mp decoded with ⟨states, -, decoded⟩
    rcases Option.bind_eq_some_iff.mp decoded with ⟨titles, -, decoded⟩
    rcases Option.bind_eq_some_iff.mp decoded with ⟨keyType, -, decoded⟩
    rcases Option.bind_eq_some_iff.mp decoded with ⟨valueType, -, decoded⟩
    rcases Option.bind_eq_some_iff.mp decoded with ⟨elementType, -, decoded⟩
    rcases Option.bind_eq_some_iff.mp decoded with ⟨functions, functionsRead, decoded⟩
    cases decoded
    exact ⟨_, _, offsetRead, functionsRead⟩
  · cases decoded

/-- Every item of a list in one of the sections has been read by itself. -/
theorem exists_of_mem_section {α : Type} {decode : Json -> Option α} {value : Option Json}
    {table : Table (List α)}
    (decoded : Json.otherwise [] (Json.decodeTable (Json.decodeList decode)) value = some table)
    {entry : String × List α} (filed : entry ∈ table) {item : α} (member : item ∈ entry.2) :
    ∃ part, decode part = some item := by
  cases value with
  | none =>
      cases decoded
      cases filed
  | some json =>
      rcases Json.exists_of_mem_decodeTable decoded filed with ⟨_, read⟩
      exact Json.exists_of_mem_decodeList read member

/-- Every field that a document writes has been read by itself. -/
theorem exists_of_writes {json : Json} {document : Document}
    (decoded : Document.decode json = some document) {owner : String} {decl : FieldDecl}
    (written : document.Writes owner decl) : ∃ part, decodeField part = some decl := by
  rcases sections_of_decode decoded with ⟨_, _, _, _, -, structs, entities, -⟩
  rcases written with ⟨decls, declared, member⟩ | ⟨entries, found, member⟩
  · exact exists_of_mem_section structs declared member
  · rcases exists_of_mem_section entities (Table.mem_of_find? found) member with ⟨part, read⟩
    unfold decodeEntityEntry at read
    split at read
    · split at read
      · cases read
      · rcases Option.map_eq_some_iff.mp read with ⟨_, read, made⟩
        cases made
        exact ⟨part, read⟩
    · cases read

/-- A document that has been read gives its numbers of bytes as words. -/
theorem wordSized_of_decode {json : Json} {document : Document}
    (decoded : Document.decode json = some document) : document.WordSized := by
  intro owner decl written bytes sized
  rcases exists_of_writes decoded written with ⟨_, read⟩
  rcases members_of_decodeField read with ⟨_, _, offset, -⟩
  rw [sized] at offset
  exact Json.lt_of_optionally_decodeNatural offset

end Schema
end MemoryAtlas
