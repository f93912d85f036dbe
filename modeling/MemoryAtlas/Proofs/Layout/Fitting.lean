import MemoryAtlas.Proofs.Layout.Unresolved
import MemoryAtlas.Proofs.Schema.Filing

namespace MemoryAtlas

open Schema Shape

/-!
# Sizes and the address space

Addresses are words of sixty-four bits, and so are the numbers that a document
is written with.  The sizes that are computed from them are sums and products of
such numbers, and nothing in loading asks whether they are words as well.

Whether they all are can be told from few of them: the total of each list of
fields and the total of each class chain.  Every other size, every place at
which a part ends and every distance of an element is at most one of these, or
is a size that the document writes down itself.
-/

namespace Kind

/-- A kind and the kinds that it is written with. -/
def mentioned : Kind -> List Kind
  | .pointerTo target => .pointerTo target :: target.mentioned
  | .fixedArray element count => .fixedArray element count :: element.mentioned
  | kind => [kind]

/-- What a declared field can be before its marks are applied: a short scalar, a
text of no more than the written number of bytes, a gap if the field is not marked
as a pointer, or something else that is written with no other kind. -/
def Unmarked (decl : FieldDecl) : Kind -> Prop
  | .scalar s => s.width ≤ 8
  | .fixedArray (.scalar s) count =>
    s.width ≤ 8 ∧ ∃ bytes, decl.offset = some bytes ∧ s.width * count ≤ bytes
  | .skip _ => decl.pointer = false
  | .fixedArray _ _ | .pointerTo _ => False
  | _ => True

theorem Unmarked.mentioned {decl : FieldDecl} {kind inner : Kind} (unmarked : kind.Unmarked decl)
    (member : inner ∈ kind.mentioned) : inner = kind ∨ ∃ s : Scalar, inner = .scalar s ∧ s.width ≤ 8 := by
  cases kind with
  | pointerTo target => cases unmarked
  | fixedArray element count =>
      cases element with
      | scalar s =>
          rcases List.mem_cons.mp member with same | inside
          · exact .inl same
          · exact .inr ⟨s, List.mem_singleton.mp inside, unmarked.1⟩
      | _ => cases unmarked
  | _ => exact .inl (List.mem_singleton.mp member)

end Kind

/-! ## Kinds of declared fields -/

theorem TypeNames.unmarked_of_resolve {names : TypeNames} {name : String} {kind : Kind}
    (resolved : names.resolve name = some kind) (decl : FieldDecl) : kind.Unmarked decl := by
  unfold resolve at resolved
  split at resolved
  · rename_i s standard
    cases resolved
    exact (StandardType.width_of_ofName? standard).2
  · cases resolved
    trivial
  · cases resolved
    trivial
  · cases resolved
  · repeat' split at resolved
    all_goals cases resolved
    all_goals trivial

namespace Schema

theorem baseKind_unmarked {names : TypeNames} {owner : String} {decl : FieldDecl} {base : Kind}
    (based : baseKind names owner decl = .ok base) : base.Unmarked decl := by
  unfold baseKind at based
  dsimp only at based
  split at based
  · split at based
    · cases based
    · rename_i unmarked
      split at based <;> cases based
      exact Bool.eq_false_iff.mpr unmarked
  · split at based <;> cases based
    rename_i bytes written
    exact ⟨by decide, bytes, written, Nat.mul_div_le bytes 2⟩
  · split at based <;> cases based
    rename_i bytes written
    exact ⟨by decide, bytes, written, Nat.le_of_eq (Nat.one_mul bytes)⟩
  · rcases Except.bind_eq_ok_iff.mp based with ⟨element, -, made⟩
    cases made
    trivial
  · rcases Except.bind_eq_ok_iff.mp based with ⟨key, -, rest⟩
    rcases Except.bind_eq_ok_iff.mp rest with ⟨value, -, made⟩
    cases made
    trivial
  · rcases Except.bind_eq_ok_iff.mp based with ⟨key, -, made⟩
    cases made
    trivial
  · cases based
    trivial
  · cases based
    trivial
  · cases based
    trivial
  · rename_i s standard
    cases based
    exact (StandardType.width_of_ofName? standard).2
  · split at based
    · rename_i resolved
      cases based
      exact TypeNames.unmarked_of_resolve resolved decl
    · cases based

/-- The mark of a pointer.  Only a pointer type is a pointer without it. -/
theorem pointer_cases (pointer : Bool) (base : Kind) :
    let inner := match pointer, base with
      | true, .ownedPointer name => .ownedPointer name
      | true, kind => .pointerTo kind
      | false, kind => kind
    inner = base ∧ (pointer = true -> ∃ name, base = .ownedPointer name) ∨
      inner = .pointerTo base ∧ pointer = true := by
  dsimp only
  split
  · exact .inl ⟨rfl, fun _ => ⟨_, rfl⟩⟩
  · exact .inr ⟨rfl, rfl⟩
  · exact .inl ⟨rfl, nofun⟩

/-- The marks of a field: perhaps a pointer, and around it perhaps a count, which
is not 0. -/
theorem markedKind_cases {path : String} {decl : FieldDecl} {base kind : Kind}
    (marked : markedKind path decl base = .ok kind) :
    ∃ inner,
      (inner = base ∧ (decl.pointer = true -> ∃ name, base = .ownedPointer name) ∨
        inner = .pointerTo base ∧ decl.pointer = true) ∧
      (decl.count = none ∧ kind = inner ∨
        ∃ count, decl.count = some count ∧ 0 < count ∧ kind = .fixedArray inner count) := by
  unfold markedKind at marked
  dsimp only at marked
  split at marked
  · cases marked
    exact ⟨_, pointer_cases decl.pointer base, .inl ⟨‹_›, rfl⟩⟩
  · cases marked
  · rename_i count notZero counted
    cases marked
    exact ⟨_, pointer_cases decl.pointer base,
      .inr ⟨count, counted, Nat.pos_of_ne_zero fun zero => notZero zero, rfl⟩⟩

/-- What a field is written with is the field's own kind, the element of its
array, a short scalar, or what stands behind its mark as a pointer. -/
theorem FieldDecl.KeptAs.mentioned {names : TypeNames} {owner : String} {decl : FieldDecl} {field : Field}
    (kept : decl.KeptAs names owner field) {kind : Kind} (member : kind ∈ field.kind.mentioned) :
    kind = field.kind ∨ (∃ count, 0 < count ∧ field.kind = .fixedArray kind count) ∨
      (∃ s : Scalar, kind = .scalar s ∧ s.width ≤ 8) ∨ decl.pointer = true ∧ kind.Unmarked decl := by
  rcases kept.kind with ⟨base, based, marked⟩
  have unmarked := baseKind_unmarked based
  rcases markedKind_cases marked with ⟨inner, pointed, counted⟩
  have inside : kind ∈ inner.mentioned -> kind = inner ∨ (∃ s : Scalar, kind = .scalar s ∧ s.width ≤ 8) ∨
      decl.pointer = true ∧ kind.Unmarked decl := by
    intro member
    rcases pointed with ⟨rfl, -⟩ | ⟨rfl, isPointer⟩
    · exact (unmarked.mentioned member).imp_right .inl
    · rcases List.mem_cons.mp member with same | behind
      · exact .inl same
      · rcases unmarked.mentioned behind with rfl | short
        · exact .inr (.inr ⟨isPointer, unmarked⟩)
        · exact .inr (.inl short)
  rcases counted with ⟨-, same⟩ | ⟨count, -, positive, same⟩
  · rw [same] at member ⊢
    exact (inside member).imp_right .inr
  · rw [same] at member ⊢
    rcases List.mem_cons.mp member with whole | element
    · exact .inl whole
    · rcases inside element with rfl | other
      · exact .inr (.inl ⟨count, positive, rfl⟩)
      · exact .inr (.inr other)

/-- Every field in the tables of a catalog is kept of a field that the document
writes. -/
theorem Stages.field_kept {host : Host} {document : Document} {c : Catalog}
    (stages : Stages host document c)
    {table : Table (List Field)} (listed : table ∈ c.tables) {entry : String × List Field}
    (filed : entry ∈ table) {field : Field} (member : field ∈ entry.2) :
    ∃ decl, document.Writes entry.1 decl ∧ decl.KeptAs c.names entry.1 field := by
  have structs : entry ∈ stages.structs ->
      ∃ decl, document.Writes entry.1 decl ∧ decl.KeptAs c.names entry.1 field := by
    intro filed
    rcases exists_partner (loadAll_forall₂ stages.structsLoaded) entry filed with
      ⟨source, declared, same, g, g', loaded⟩
    rcases exists_partner (loadFields_keeps loaded).each field member with ⟨decl, written, kept⟩
    rw [same]
    exact ⟨decl, .inl ⟨source.2, declared, written⟩, kept⟩
  simp only [Catalog.tables, List.mem_cons, List.not_mem_nil, or_false, stages.composites_eq,
    stages.pointers_eq, stages.inlines_eq] at listed
  rcases listed with rfl | rfl | rfl | rfl
  · exact structs (List.mem_filter.mp filed).1
  · exact structs (List.mem_filter.mp filed).1
  · exact structs (List.mem_filter.mp filed).1
  · rcases exists_partner (loadAll_forall₂ stages.entitiesLoaded) entry filed with
      ⟨source, declared, same, g, g', loaded⟩
    rcases List.mem_map.mp declared with ⟨name, -, rfl⟩
    rcases exists_partner (loadEntries_keeps loaded).each field member with ⟨decl, written, kept⟩
    rw [same]
    exact ⟨decl, Document.writes_of_mem_classDecls written, kept⟩

end Schema

namespace Catalog

/-! ## What is computed -/

/-- The kinds of a catalog: what its fields are written with, what a type name
stands for, and the classes. -/
inductive Occurs (c : Catalog) : Kind -> Prop where
  | written {table : Table (List Field)} {entry : String × List Field} {field : Field} {kind : Kind}
      (listed : table ∈ c.tables) (filed : entry ∈ table) (member : field ∈ entry.2)
      (mentioned : kind ∈ field.kind.mentioned) : Occurs c kind
  | named {name : String} {kind : Kind} (resolved : c.resolve name = some kind) : Occurs c kind
  | ofClass (name : String) : Occurs c (.entity name)

/-- The sizes and distances that are computed for a catalog: the size of a kind
or of a list of fields; in such a list and in a class chain the place at which a
part ends, with any number of pointers that may be followed; and the distance of
an element from the start of its array. -/
inductive Computes (c : Catalog) : Nat -> Prop where
  | size {kind : Kind} (occurs : c.Occurs kind) : Computes c (c.sizeOf kind)
  | fields {table : Table (List Field)} {entry : String × List Field} (listed : table ∈ c.tables)
      (filed : entry ∈ table) : Computes c (c.sizeOfFields entry.2)
  | part (reach : Nat) {table : Table (List Field)} {entry : String × List Field} {part : Part}
      (listed : table ∈ c.tables) (filed : entry ∈ table)
      (laid : part ∈ layFields (c.shape reach) 0 entry.2) : Computes c (part.2.1 + part.2.2.size)
  | inherited (reach : Nat) (name : String) {part : Part}
      (laid : part ∈ c.layClasses (c.shape reach) 0 (c.ancestors name)) :
      Computes c (part.2.1 + part.2.2.size)
  | element {element : Kind} {count i : Nat} (occurs : c.Occurs (.fixedArray element count))
      (inside : i < count) : Computes c (i * c.sizeOf element)

/-- The lists of fields and the class chains end within the address space. -/
structure TotalsFit (c : Catalog) : Prop where
  fields : forall table, table ∈ c.tables -> forall entry, entry ∈ table -> c.sizeOfFields entry.2 < 2 ^ 64
  chains : forall name, name ∈ c.entities.names -> c.sizeOf (.entity name) < 2 ^ 64

theorem le_extent_of_mem {parts : List Part} {part : Part} (member : part ∈ parts) :
    part.2.1 + part.2.2.size ≤ extent parts := by
  induction parts with
  | nil => cases member
  | cons first rest inductionHypothesis =>
      rcases first with ⟨name, offset, shape⟩
      rw [extent]
      rcases List.mem_cons.mp member with rfl | later
      · exact Nat.le_max_left _ _
      · exact Nat.le_trans (inductionHypothesis later) (Nat.le_max_right _ _)

theorem sizeOfFields_eq (c : Catalog) (fields : List Field) :
    c.sizeOfFields fields = fieldsEnd c.sizeOf 0 fields :=
  extent_layFields (c.shape 0) 0 fields

section Sizes

variable {c : Catalog} (consistent : c.Consistent) (wellFounded : WellFounded c.Holds)
include consistent wellFounded

theorem extent_layFields_shape (reach : Nat) (fields : List Field) :
    extent (layFields (c.shape reach) 0 fields) = c.sizeOfFields fields := by
  rw [extent_layFields, sizeOfFields_eq]
  exact fieldsEnd_congr (fun field _ => size_shape consistent wellFounded reach field.kind) 0

theorem extent_layClasses_shape (reach : Nat) (name : String) :
    extent (c.layClasses (c.shape reach) 0 (c.ancestors name)) = c.sizeOf (.entity name) := by
  have total : extent (c.partsOf (c.shape reach) (.entity name)) = _ :=
    c.extent_partsOf (c.shape reach) rfl
  rw [sizeOf_eq consistent wellFounded]
  exact total.trans (sizeStep_congr fun inner _ => size_shape consistent wellFounded reach inner)

omit consistent wellFounded in
/-- No field takes more room than the list that it stands in. -/
theorem sizeOf_le_sizeOfFields {fields : List Field} {field : Field} (member : field ∈ fields) :
    c.sizeOf field.kind ≤ c.sizeOfFields fields := by
  rcases exists_mem_layFields member (c.shape 0) 0 with ⟨offset, listed⟩
  exact Nat.le_trans (Nat.le_add_left _ offset) (le_extent_of_mem listed)

theorem sizeOf_fixedArray (element : Kind) (count : Nat) :
    c.sizeOf (.fixedArray element count) = c.sizeOf element * count :=
  sizeOf_fixedArray_of_acc consistent (wellFounded.apply element) count

theorem sizeOf_scalar (s : Scalar) : c.sizeOf (.scalar s) = s.width := by
  rw [sizeOf_eq consistent wellFounded]
  rfl

namespace TotalsFit

variable (totals : c.TotalsFit)
include totals

omit consistent wellFounded in
/-- A list of fields that is looked up is filed in a table, or it is empty. -/
theorem fieldsOf (kind : Kind) : c.sizeOfFields (c.fieldsOf kind) < 2 ^ 64 := by
  rcases c.fieldsOf_eq_nil_or_filed kind with none | ⟨table, listed, entry, filed, same⟩
  · rw [none]
    exact Nat.two_pow_pos 64
  · rw [same]
    exact totals.fields table listed entry filed

/-- A name that stands for no class has the chain of the root. -/
theorem entity (name : String) : c.sizeOf (.entity name) < 2 ^ 64 := by
  cases isClass : c.isClass name with
  | true => exact totals.chains name (consistent.mem_entities_of_isClass isClass)
  | false =>
      have same : c.ancestors name = c.ancestors rootClass :=
        (ancestors_of_not_isClass isClass).trans c.ancestors_root.symm
      have root := totals.chains rootClass (consistent.mem_entities_of_isClass c.isClass_root)
      rw [sizeOf_eq consistent wellFounded, sizeStep] at root ⊢
      rw [same]
      exact root

/-- What stands behind a pointer takes the room of its declaration, or what the
field says, or little. -/
theorem unmarked {decl : FieldDecl} {kind : Kind} (unmarked : kind.Unmarked decl)
    (isPointer : decl.pointer = true)
    (short : forall bytes, decl.offset = some bytes -> bytes < 2 ^ 64) : c.sizeOf kind < 2 ^ 64 := by
  have declared : c.sizeOf kind = c.sizeStep c.sizeOf kind := sizeOf_eq consistent wellFounded kind
  cases kind with
  | scalar s =>
      have narrow : s.width ≤ 8 := unmarked
      rw [sizeOf_scalar consistent wellFounded]
      omega
  | fixedArray element count =>
      cases element with
      | scalar s =>
          rcases unmarked with ⟨-, bytes, written, within⟩
          rw [sizeOf_fixedArray consistent wellFounded, sizeOf_scalar consistent wellFounded]
          exact Nat.lt_of_le_of_lt within (short bytes written)
      | _ => cases unmarked
  | pointerTo target => cases unmarked
  | skip bytes =>
      have unmarkedGap : decl.pointer = false := unmarked
      rw [isPointer] at unmarkedGap
      cases unmarkedGap
  | entity name => exact entity consistent wellFounded totals name
  | inlineStruct name =>
      rw [declared, sizeStep, ← sizeOfFields_eq]
      exact fieldsOf totals (.inlineStruct name)
  | composite name =>
      rw [declared, sizeStep, ← sizeOfFields_eq]
      exact fieldsOf totals (.composite name)
  | ownedPointer name => exact declared ▸ (by decide : pointerSize < 2 ^ 64)
  | dynamicArray element => exact declared ▸ (by decide : vectorHeadSize < 2 ^ 64)
  | orderedMap key value => exact declared ▸ (by decide : treeHeadSize < 2 ^ 64)
  | foreignString width => exact declared ▸ (by decide : stringHeadSize < 2 ^ 64)
  | slotTable owner => exact declared ▸ (by decide : pointerSize < 2 ^ 64)

end TotalsFit

/-! ## Words everywhere -/

section Fits

variable {host : Host} {document : Document}
  (stages : Stages host document c) (wordSized : document.WordSized)
  (totals : c.TotalsFit)
include stages wordSized totals

/-- A size is at most the total of a list or a chain, unless it is that of what
stands behind a pointer, which a declaration bounds. -/
theorem TotalsFit.size {kind : Kind} (occurs : c.Occurs kind) : c.sizeOf kind < 2 ^ 64 := by
  cases occurs with
  | @written table entry field _ listed filed member mentioned =>
      rcases stages.field_kept listed filed member with ⟨decl, written, kept⟩
      have fieldFits : c.sizeOf field.kind < 2 ^ 64 :=
        Nat.lt_of_le_of_lt (sizeOf_le_sizeOfFields member) (totals.fields table listed entry filed)
      rcases kept.mentioned mentioned with rfl | ⟨count, positive, array⟩ | ⟨s, rfl, narrow⟩ | ⟨isPointer, target⟩
      · exact fieldFits
      · rw [array, sizeOf_fixedArray consistent wellFounded] at fieldFits
        exact Nat.lt_of_le_of_lt (Nat.le_mul_of_pos_right _ positive) fieldFits
      · rw [sizeOf_scalar consistent wellFounded]
        omega
      · exact totals.unmarked consistent wellFounded target isPointer (wordSized entry.1 decl written)
  | named resolved =>
      let decl := { plainField "" "" with pointer := true }
      exact totals.unmarked consistent wellFounded (TypeNames.unmarked_of_resolve resolved decl) rfl
        fun bytes written => by cases written
  | ofClass name => exact totals.entity consistent wellFounded name

theorem TotalsFit.computes {n : Nat} (computes : c.Computes n) : n < 2 ^ 64 := by
  cases computes with
  | size occurs => exact totals.size consistent wellFounded stages wordSized occurs
  | fields listed filed => exact totals.fields _ listed _ filed
  | part reach listed filed laid =>
      have within := le_extent_of_mem laid
      rw [extent_layFields_shape consistent wellFounded] at within
      exact Nat.lt_of_le_of_lt within (totals.fields _ listed _ filed)
  | inherited reach name laid =>
      have within := le_extent_of_mem laid
      rw [extent_layClasses_shape consistent wellFounded] at within
      exact Nat.lt_of_le_of_lt within (totals.entity consistent wellFounded name)
  | @element element count i occurs inside =>
      have whole := totals.size consistent wellFounded stages wordSized occurs
      rw [sizeOf_fixedArray consistent wellFounded, Nat.mul_comm] at whole
      exact Nat.lt_of_le_of_lt (Nat.mul_le_mul_right _ (Nat.le_of_lt inside)) whole

end Fits
end Sizes

/-- All that is computed of sizes and distances are words exactly if every list
of fields and every class chain ends within the address space. -/
theorem computes_fit_iff {host : Host} {document : Document} {c : Catalog}
    (loaded : load host document = .ok c)
    (terminates : forall kind, ∃ size, c.SizeRun kind size) (wordSized : document.WordSized) :
    (forall n, c.Computes n -> n < 2 ^ 64) <-> c.TotalsFit := by
  have consistent := load_consistent loaded
  have wellFounded := wellFounded_of_terminates terminates
  constructor
  · intro fits
    exact ⟨fun table listed entry filed => fits _ (.fields listed filed),
      fun name _ => fits _ (.size (.ofClass name))⟩
  · rcases load_stages loaded with ⟨stages⟩
    exact fun totals n => totals.computes consistent wellFounded stages wordSized

theorem computes_fit_iff_at_doorWithLocks : load .standing doorWithLocks = .ok doorCatalog ∧
    (forall kind, ∃ size, doorCatalog.SizeRun kind size) ∧ doorWithLocks.WordSized ∧
    (forall n, doorCatalog.Computes n -> n < 2 ^ 64) ∧ doorCatalog.Computes (doorCatalog.typeSize "Door") := by
  have wordSized : doorWithLocks.WordSized := wordSized_of_none (by decide) (by decide)
  have totals : doorCatalog.TotalsFit := ⟨by decide, by decide⟩
  exact ⟨load_doorWithLocks, doorCatalog_terminates, wordSized,
    (computes_fit_iff load_doorWithLocks doorCatalog_terminates wordSized).mpr totals, .size (.ofClass "Door")⟩

/-- A structure whose only field is placed at the last byte of the address space. -/
def farTail : Document :=
  { Document.empty with
    structs := [("Tail", [{ plainField "last" "Dword" with declaredOffset := some (2 ^ 64 - 1) }])] }

/-- The catalog of that document. -/
def tailCatalog : Catalog :=
  { empty with
    names := ⟨[], [], ["Tail"], ["Entity"]⟩
    composites := [("Tail", [⟨"last", .scalar ⟨4, .signed⟩, "Dword", some (2 ^ 64 - 1), none⟩])]
    entities := [("Entity", [])] }

theorem load_farTail : load .standing farTail = .ok tailCatalog := by
  let c := tailCatalog
  let gathered : Gathered := ⟨[], [], []⟩
  have names : (c.tables.flatMap Table.names).Perm ["Entity", "Tail"] := by decide
  exact load_of_stages ⟨[], c.composites, gathered, gathered, gathered, rfl, rfl, rfl, rfl, rfl, rfl, rfl, rfl,
    rfl, rfl, rfl, checkEmbedding_of_perm names (by decide) rfl, rfl, rfl, rfl⟩

/-- Loading accepts the structure, which ends three bytes behind the address space. -/
theorem accepted_overflows : load .standing farTail = .ok tailCatalog ∧
    (forall kind, ∃ size, tailCatalog.SizeRun kind size) ∧ farTail.WordSized ∧
    tailCatalog.resolve "Tail" = some (.composite "Tail") ∧
    tailCatalog.Computes (tailCatalog.sizeOf (.composite "Tail")) ∧
    tailCatalog.sizeOf (.composite "Tail") = 2 ^ 64 + 3 := by
  have terminates := terminates_of_no_class_filed load_farTail (by decide)
  have resolved : tailCatalog.resolve "Tail" = some (.composite "Tail") := by decide
  have wordSized : farTail.WordSized := wordSized_of_none (by decide) (by decide)
  exact ⟨load_farTail, terminates, wordSized, resolved, .size (.named resolved), by decide⟩

end Catalog
end MemoryAtlas
