import MemoryAtlas.Proofs.Layout.Words

namespace MemoryAtlas

open Schema

/-!
# The room that declarations ask for

How much room a field takes can be read off the document.  One copy takes a room of its
own, or what the fields of its declared type come to, where each begins at the offset
that it declares or else where the one before it ends.  A class takes the room of its
whole chain.  All of it is taken as often as the count says.

The loader makes kinds of the declarations, and sizes and places are worked out from
those, in words.  As long as they are words they are the declared ones except for wide
texts: one that is declared with an odd number of bytes loses the last of them, and
every field behind it begins a byte early.
-/

namespace Schema

/-! ## Reading sizes off a document -/

/-- The room of one copy of a field, given the room of the values of declared types. -/
def FieldDecl.unit (names : TypeNames) (text : Nat -> Nat) (extent : String -> Nat) (decl : FieldDecl) :
    Nat :=
  match decl.heldType? names with
  | some type => extent type
  | none => decl.ownUnit text

/-- The room of all copies. -/
def FieldDecl.room (names : TypeNames) (text : Nat -> Nat) (extent : String -> Nat) (decl : FieldDecl) :
    Nat :=
  decl.count.getD 1 * decl.unit names text extent

/-- Where the declared fields begin, from a place on: at the offset that they declare,
or else where the field before them ends. -/
def declStarts (room : FieldDecl -> Nat) : Nat -> List FieldDecl -> List (String × Nat)
  | _, [] => []
  | cursor, decl :: rest =>
    let start := decl.declaredOffset.getD cursor
    (decl.name, start) :: declStarts room (start + room decl) rest

/-- Where the last of the declared fields ends. -/
def declsEnd (room : FieldDecl -> Nat) : Nat -> List FieldDecl -> Nat
  | _, [] => 0
  | cursor, decl :: rest =>
    let finish := decl.declaredOffset.getD cursor + room decl
    max finish (declsEnd room finish rest)

/-- The declarations that a declared type is made of: that of a structure, or those of
all classes in a chain. -/
def Document.layers (document : Document) (c : Catalog) (name : String) : List (List FieldDecl) :=
  match document.structs.find? name with
  | some decls => [decls]
  | none => (c.ancestors name).map document.classDecls

/-- The room of a declared type.  A type that holds itself has none. -/
inductive Document.Extends (document : Document) (c : Catalog) (text : Nat -> Nat) : String -> Nat -> Prop
  | intro {name : String} (extent : String -> Nat)
      (known : forall decls, decls ∈ document.layers c name -> forall decl, decl ∈ decls ->
        forall type, decl.heldType? c.names = some type -> Extends document c text type (extent type)) :
      Extends document c text name
        ((document.layers c name).map (declsEnd (FieldDecl.room c.names text extent) 0)).sum

/-- The room of a declared field. -/
def Document.Takes (document : Document) (c : Catalog) (text : Nat -> Nat) (decl : FieldDecl) (size : Nat) :
    Prop :=
  ∃ extent : String -> Nat,
    (forall type, decl.heldType? c.names = some type -> document.Extends c text type (extent type)) ∧
    size = decl.room c.names text extent

theorem FieldDecl.room_congr {names : TypeNames} {text : Nat -> Nat} {first second : String -> Nat}
    {decl : FieldDecl} (agree : forall type, decl.heldType? names = some type -> first type = second type) :
    decl.room names text first = decl.room names text second := by
  unfold room unit
  split
  · rw [agree _ ‹_›]
  · rfl

theorem declsEnd_congr {first second : FieldDecl -> Nat} {decls : List FieldDecl}
    (agree : forall decl, decl ∈ decls -> first decl = second decl) (cursor : Nat) :
    declsEnd first cursor decls = declsEnd second cursor decls := by
  induction decls generalizing cursor with
  | nil => rfl
  | cons decl rest inductionHypothesis =>
      rw [declsEnd, declsEnd, agree decl List.mem_cons_self,
        inductionHypothesis fun other member => agree other (List.mem_cons_of_mem decl member)]

/-- No declared field takes more room than there is up to where the last one ends. -/
theorem le_declsEnd {room : FieldDecl -> Nat} {decls : List FieldDecl} {decl : FieldDecl}
    (member : decl ∈ decls) (cursor : Nat) : room decl ≤ declsEnd room cursor decls := by
  induction decls generalizing cursor with
  | nil => cases member
  | cons first rest inductionHypothesis =>
      rw [declsEnd]
      rcases List.mem_cons.mp member with rfl | later
      · exact Nat.le_trans (Nat.le_add_left _ _) (Nat.le_max_left _ _)
      · exact Nat.le_trans (inductionHypothesis later _) (Nat.le_max_right _ _)

theorem declStarts_congr {first second : FieldDecl -> Nat} {decls : List FieldDecl}
    (agree : forall decl, decl ∈ decls -> first decl = second decl) (cursor : Nat) :
    declStarts first cursor decls = declStarts second cursor decls := by
  induction decls generalizing cursor with
  | nil => rfl
  | cons decl rest inductionHypothesis =>
      rw [declStarts, declStarts, agree decl List.mem_cons_self,
        inductionHypothesis fun other member => agree other (List.mem_cons_of_mem decl member)]

/-- A declared type has only one size. -/
theorem Document.Extends.unique {document : Document} {c : Catalog} {text : Nat -> Nat} {name : String}
    {first second : Nat} (one : document.Extends c text name first)
    (other : document.Extends c text name second) : first = second := by
  induction one generalizing second with
  | intro extent known inductionHypothesis =>
      cases other with
      | intro extent' known' =>
          refine congrArg List.sum (List.map_congr_left fun decls layer => declsEnd_congr (fun decl member =>
            FieldDecl.room_congr fun type held => ?_) 0)
          exact inductionHypothesis decls layer decl member type held (known' decls layer decl member type held)

end Schema

/-! ## Fields -/

namespace Catalog

/-- The room of a named type, as it is worked out from its kind. -/
def extentOf (c : Catalog) (type : String) : Nat :=
  ((c.resolve type).map c.sizeOf).getD 0

theorem extentOf_of_resolve {c : Catalog} {type : String} {kind : Kind} (resolved : c.resolve type = some kind) :
    c.extentOf type = c.sizeOf kind := by
  rw [extentOf, resolved]
  rfl

end Catalog

namespace Schema
namespace FieldDecl.KeptAs

variable {c : Catalog} {owner : String} {decl : FieldDecl} {field : Field}
  (kept : decl.KeptAs c.names owner field)
include kept

/-- The type that a field holds stands for a kind with parts. -/
theorem held_below {type : String} (holds : decl.heldType? c.names = some type) :
    ∃ kind, c.resolve type = some kind ∧ kind.structName? = some type ∧
      Relation.ReflTransGen c.Holds kind field.kind := by
  rcases kept.makes with ⟨copy, made, copies⟩
  cases made with
  | plain holdsNone _ _ =>
      rw [holds] at holdsNone
      cases holdsNone
  | held holds' resolved named =>
      rw [holds] at holds'
      cases holds'
      refine ⟨copy, resolved, named, ?_⟩
      rcases copies with ⟨-, same⟩ | ⟨count, -, same⟩
      · rw [same]
      · rw [same]
        exact .single (List.mem_singleton.mpr rfl)

/-- A field is accessible as soon as the type is that it holds. -/
theorem acc_of_held (each : forall type kind, decl.heldType? c.names = some type -> c.resolve type = some kind ->
      kind.structName? = some type -> Acc c.Holds kind) : Acc c.Holds field.kind := by
  rcases kept.makes with ⟨copy, made, copies⟩
  have one : Acc c.Holds copy := by
    cases made with
    | plain _ plain _ => exact Catalog.acc_of_plain plain
    | held holds resolved named => exact each _ copy holds resolved named
  rcases copies with ⟨-, same⟩ | ⟨count, -, same⟩
  · exact same ▸ one
  · exact same ▸ Catalog.acc_fixedArray one count

/-- The size of a field is the room of its declaration. -/
theorem sizeOf_eq_room (consistent : c.Consistent) (accessible : Acc c.Holds field.kind) :
    c.sizeOf field.kind = decl.room c.names wholeUnits c.extentOf := by
  rcases kept.makes with ⟨copy, made, copies⟩
  have one : c.sizeOf copy = decl.unit c.names wholeUnits c.extentOf := by
    cases made with
    | plain holdsNone _ sized => rw [sized c consistent, unit, holdsNone]
    | held holds resolved _ =>
        rw [unit, holds]
        exact (Catalog.extentOf_of_resolve resolved).symm
  rcases copies with ⟨single, same⟩ | ⟨count, written, same⟩
  · rw [same, one, room, single, Option.getD_none, Nat.one_mul]
  · have below : c.Holds copy field.kind := by
      rw [same]
      exact List.mem_singleton.mpr rfl
    rw [same, Catalog.sizeOf_fixedArray_of_acc consistent (accessible.inv below), one, room, written,
      Option.getD_some, Nat.mul_comm]

end FieldDecl.KeptAs

/-! ## Lists of fields -/

/-- A field is laid out as it is declared, under its name and at the offset that it
declares, and takes the room of its declaration. -/
structure FieldDecl.LaidAs (room : FieldDecl -> Nat) (sizes : Kind -> Nat) (decl : FieldDecl)
    (field : Field) : Prop where
  name : field.name = decl.name
  declaredOffset : field.declaredOffset = decl.declaredOffset
  size : sizes field.kind = room decl

theorem fieldsEnd_eq_declsEnd {room : FieldDecl -> Nat} {sizes : Kind -> Nat} {decls : List FieldDecl}
    {fields : List Field} (laid : List.Forall₂ (FieldDecl.LaidAs room sizes) decls fields) (cursor : Nat) :
    Catalog.fieldsEnd sizes cursor fields = declsEnd room cursor decls := by
  induction laid generalizing cursor with
  | nil => rfl
  | cons first _ inductionHypothesis =>
      rw [Catalog.fieldsEnd, declsEnd, first.declaredOffset, first.size, inductionHypothesis]

/-- Every field begins where its declaration says, or else where the room of the
field before it ends. -/
theorem starts_layFields {room : FieldDecl -> Nat} {expand : Kind -> Shape} {decls : List FieldDecl}
    {fields : List Field}
    (laid : List.Forall₂ (FieldDecl.LaidAs room fun kind => (expand kind).size) decls fields) (cursor : Nat) :
    (Catalog.layFields expand cursor fields).map (fun part => (part.1, part.2.1)) =
      declStarts room cursor decls := by
  induction laid generalizing cursor with
  | nil => rfl
  | cons first _ inductionHypothesis =>
      rw [Catalog.layFields, declStarts, List.map_cons, inductionHypothesis, first.name,
        first.declaredOffset, first.size]

theorem KeepsFields.laid {names : TypeNames} {owner : String} {decls : List FieldDecl} {fields : List Field}
    (kept : KeepsFields names owner decls fields) {room : FieldDecl -> Nat} {sizes : Kind -> Nat}
    (sized : forall decl field, decl ∈ decls -> field ∈ fields -> decl.KeptAs names owner field ->
      sizes field.kind = room decl) : List.Forall₂ (FieldDecl.LaidAs room sizes) decls fields := by
  have each := kept.each
  clear kept
  induction each with
  | nil => exact .nil
  | @cons decl field _ _ first _ inductionHypothesis =>
      have here := sized decl field List.mem_cons_self List.mem_cons_self first
      exact .cons ⟨first.name, first.declaredOffset, here⟩
        (inductionHypothesis fun other field' member member' =>
          sized other field' (List.mem_cons_of_mem decl member) (List.mem_cons_of_mem field member'))

/-! ## Declared types -/

/-- The kind under which the fields of a declaration are filed. -/
inductive Document.Files (document : Document) : Kind -> List FieldDecl -> Prop
  | struct {name : String} {decls : List FieldDecl} (declared : document.structs.find? name = some decls) :
      Files document (document.structKind name) decls
  | ofClass {name : String} (isClass : name = rootClass ∨ name ∈ document.hierarchy.names) :
      Files document (.entity name) (document.classDecls name)

section Declared

variable {host : Host} {document : Document} {c : Catalog} (stages : Stages host document c)
include stages

theorem Document.Files.keeps {kind : Kind} {decls : List FieldDecl}
    (files : document.Files kind decls) :
    ∃ owner, KeepsFields c.names owner decls (c.fieldsOf kind) := by
  cases files with
  | struct declared => exact ⟨_, stages.fieldsOf_structKind declared⟩
  | @ofClass name isClass =>
      have names := (collectNames_ok stages.collected).2.1
      have named : name ∈ c.names.entities := names.mem_iff.mpr (Table.mem_names_insert.mpr isClass)
      rcases stages.class_kept named with ⟨fields, found, kept⟩
      have filed : c.fieldsOf (.entity name) = fields := by
        rw [Catalog.fieldsOf, found, Option.getD_some]
      exact ⟨name, filed ▸ kept⟩

/-- What a type is made of in the document is what its kind is made of. -/
theorem layers_declared {name : String} {kind : Kind} (resolved : c.resolve name = some kind)
    (named : kind.structName? = some name) :
    List.Forall₂ document.Files (c.layers kind) (document.layers c name) := by
  have custom := TypeNames.custom_of_resolve resolved (.inr named)
  rw [Document.layers]
  split
  · rename_i decls declared
    have listed : name ∈ document.structs.names :=
      Table.find?_isSome_iff.mp (Option.isSome_of_eq_some declared)
    have same := Option.some.inj (resolved.symm.trans (stages.resolve_struct listed custom))
    have single : c.layers kind = [document.structKind name] := by
      rw [same, Document.structKind]
      split
      · rfl
      split
      · rfl
      · rfl
    rw [single]
    exact .cons (.struct declared) .nil
  · rename_i undeclared
    have unlisted : name ∉ c.names.structs := by
      rw [(collectNames_ok stages.collected).1, ← Table.find?_isSome_iff, undeclared]
      exact Bool.false_ne_true
    have entity : kind = .entity name := by
      rcases collectNames_ok stages.collected with ⟨-, -, pointersListed, inlinesListed, -⟩
      rcases TypeNames.resolve_cases resolved with ⟨unnamed, -⟩ | ⟨-, pointer | inline | struct | entity⟩
      · rw [named] at unnamed
        cases unnamed
      · exact absurd (pointersListed name pointer.2) unlisted
      · exact absurd (inlinesListed name inline.2.2) unlisted
      · exact absurd struct.2.2.2 unlisted
      · exact entity.1
    rw [entity, Catalog.layers]
    rw [List.forall₂_map_left_iff, List.forall₂_map_right_iff, List.forall₂_same]
    exact fun ancestor above => .ofClass (stages.mem_hierarchy_of_mem_ancestors above)

/-- A declared type whose kind is accessible has a size, which is that of the kind. -/
theorem extends_of_acc (consistent : c.Consistent) {name : String} {kind : Kind}
    (accessible : Acc c.Holds kind) (resolved : c.resolve name = some kind)
    (named : kind.structName? = some name) : document.Extends c wholeUnits name (c.sizeOf kind) := by
  have deep := accessible.transGen
  induction deep generalizing name with
  | intro kind _ inductionHypothesis =>
      have files := layers_declared stages resolved named
      have structured : kind.structName?.isSome := Option.isSome_of_eq_some named
      have held (layer : Kind) (among : layer ∈ c.layers kind) (field : Field)
          (member : field ∈ c.fieldsOf layer) : c.Holds field.kind kind :=
        (Catalog.mem_heldKinds_iff structured).mpr ⟨layer, among, field, member, rfl⟩
      have total : c.sizeOf kind =
          ((document.layers c name).map (declsEnd (FieldDecl.room c.names wholeUnits c.extentOf) 0)).sum := by
        rw [Catalog.sizeOf_eq_of_acc consistent accessible, Catalog.sizeStep_eq_layers structured]
        refine congrArg List.sum (map_eq_of_forall₂ files fun layer decls among filed => ?_)
        rcases filed.keeps stages with ⟨owner, kept⟩
        exact fieldsEnd_eq_declsEnd (kept.laid fun decl field _ member keptAs =>
          keptAs.sizeOf_eq_room consistent (accessible.inv (held layer among field member))) 0
      rw [total]
      refine .intro c.extentOf fun decls listed decl member type holds => ?_
      rcases exists_partner files decls listed with ⟨layer, among, filed⟩
      rcases filed.keeps stages with ⟨owner, kept⟩
      rcases exists_partner kept.each.flip decl member with ⟨field, filedField, keptAs⟩
      rcases keptAs.held_below holds with ⟨inner, resolvedInner, namedInner, path⟩
      have below := Relation.TransGen.tail' path (held layer among field filedField)
      rw [Catalog.extentOf_of_resolve resolvedInner]
      exact inductionHypothesis inner below
        (Catalog.acc_of_reflTransGen (accessible.inv (held layer among field filedField)) path)
        resolvedInner namedInner

/-- A declared type that has a size in the document is accessible. -/
theorem acc_of_extends {text : Nat -> Nat} {name : String} {size : Nat}
    (sized : document.Extends c text name size) {kind : Kind} (resolved : c.resolve name = some kind)
    (named : kind.structName? = some name) : Acc c.Holds kind := by
  induction sized generalizing kind with
  | intro extent known inductionHypothesis =>
      have files := layers_declared stages resolved named
      refine .intro kind fun inner held => ?_
      rcases (Catalog.mem_heldKinds_iff (Option.isSome_of_eq_some named)).mp held with
        ⟨layer, among, field, member, rfl⟩
      rcases exists_partner files.flip layer among with ⟨decls, listed, filed⟩
      rcases filed.keeps stages with ⟨owner, kept⟩
      rcases exists_partner kept.each field member with ⟨decl, written, keptAs⟩
      exact keptAs.acc_of_held fun type kind holds resolved named =>
        inductionHypothesis decls listed decl written type holds resolved named

section Fields

variable (consistent : c.Consistent) {owner : String} {decl : FieldDecl} {field : Field}
  (kept : decl.KeptAs c.names owner field)
include consistent kept

omit consistent in
/-- A field is accessible as soon as the type that it holds has a size in the document. -/
theorem FieldDecl.KeptAs.acc_of_extends {text : Nat -> Nat} {extent : String -> Nat}
    (known : forall type, decl.heldType? c.names = some type -> document.Extends c text type (extent type)) :
    Acc c.Holds field.kind :=
  kept.acc_of_held fun type _ holds resolved named => Schema.acc_of_extends stages (known type holds) resolved named

/-- The type that a field holds has only the size of its kind. -/
theorem FieldDecl.KeptAs.room_eq {extent : String -> Nat} (known : forall type,
      decl.heldType? c.names = some type -> document.Extends c wholeUnits type (extent type)) :
    decl.room c.names wholeUnits extent = decl.room c.names wholeUnits c.extentOf := by
  refine FieldDecl.room_congr fun type holds => ?_
  rcases kept.held_below holds with ⟨kind, resolved, named, -⟩
  have accessible := Schema.acc_of_extends stages (known type holds) resolved named
  rw [Catalog.extentOf_of_resolve resolved]
  exact (known type holds).unique (extends_of_acc stages consistent accessible resolved named)

/-- A size of a field is computed exactly if its declaration has one, and it is that one. -/
theorem FieldDecl.KeptAs.sizeRun_iff_takes (size : Nat) :
    c.SizeRun field.kind size <-> document.Takes c wholeUnits decl size := by
  constructor
  · intro run
    have accessible := run.accessible
    rw [run.eq_sizeOf consistent]
    refine ⟨c.extentOf, fun type holds => ?_, kept.sizeOf_eq_room consistent accessible⟩
    rcases kept.held_below holds with ⟨kind, resolved, named, path⟩
    rw [Catalog.extentOf_of_resolve resolved]
    exact extends_of_acc stages consistent (Catalog.acc_of_reflTransGen accessible path) resolved named
  · rintro ⟨extent, known, rfl⟩
    have accessible := kept.acc_of_extends stages known
    rw [kept.room_eq stages consistent known, ← kept.sizeOf_eq_room consistent accessible]
    exact Catalog.sizeRun consistent accessible

end Fields

/-- If all declared fields end at words, their sizes and the place where the last of
them ends are worked out in words, and every field begins where the declarations say. -/
theorem Document.Files.starts (consistent : c.Consistent) {kind : Kind} {decls : List FieldDecl}
    (filed : document.Files kind decls) {extent : String -> Nat}
    (known : forall decl, decl ∈ decls -> forall type, decl.heldType? c.names = some type ->
      document.Extends c wholeUnits type (extent type))
    (fits : declsEnd (FieldDecl.room c.names wholeUnits extent) 0 decls < 2 ^ 64) :
    (forall field, field ∈ c.fieldsOf kind -> c.WordRun field.kind (c.sizeOf field.kind)) ∧
    Catalog.fieldsEnd? c.sizeOf 0 (c.fieldsOf kind) =
      some (declsEnd (FieldDecl.room c.names wholeUnits extent) 0 decls) ∧
    forall reach, (Catalog.layFields (c.shape reach) 0 (c.fieldsOf kind)).map (fun part => (part.1, part.2.1)) =
      declStarts (FieldDecl.room c.names wholeUnits extent) 0 decls := by
  rcases filed.keeps stages with ⟨owner, kept⟩
  have run {decl : FieldDecl} {field : Field} (written : decl ∈ decls)
      (keptAs : decl.KeptAs c.names owner field) :
      c.SizeRun field.kind (decl.room c.names wholeUnits extent) :=
    (keptAs.sizeRun_iff_takes stages consistent _).mpr ⟨extent, known decl written, rfl⟩
  have size {decl : FieldDecl} {field : Field} (written : decl ∈ decls)
      (keptAs : decl.KeptAs c.names owner field) :
      c.sizeOf field.kind = decl.room c.names wholeUnits extent :=
    ((run written keptAs).eq_sizeOf consistent).symm
  refine ⟨fun field member => ?_, ?_, fun reach => ?_⟩
  · rcases exists_partner kept.each field member with ⟨decl, written, keptAs⟩
    rw [size written keptAs]
    exact (run written keptAs).wordRun stages keptAs.counted (Nat.lt_of_le_of_lt (le_declsEnd written 0) fits)
  · have ends := fieldsEnd_eq_declsEnd (kept.laid fun decl field written _ keptAs => size written keptAs) 0
    exact Catalog.fieldsEnd?_eq_some_iff.mpr ⟨ends, fits⟩
  · refine starts_layFields (kept.laid fun decl field written _ keptAs => ?_) 0
    rw [Catalog.size_shape_of_acc consistent (run written keptAs).accessible, size written keptAs]

end Declared

/-! ## Odd texts -/

/-- No copy of the field is a wide text of an odd number of bytes. -/
def FieldDecl.EvenText (decl : FieldDecl) : Prop :=
  decl.pointer = false -> StandardType.ofName? decl.typeName = some .wideText ->
    decl.offset.getD 0 % 2 = 0

instance (decl : FieldDecl) : Decidable decl.EvenText :=
  inferInstanceAs (Decidable (_ -> _ -> _))

theorem FieldDecl.EvenText.ownUnit_eq {decl : FieldDecl} (even : decl.EvenText) :
    decl.ownUnit wholeUnits = decl.ownUnit id := by
  unfold ownUnit
  split
  · rfl
  rename_i unmarked
  split
  · rename_i standard known
    cases standard with
    | wideText =>
        have pairs := even (Bool.eq_false_iff.mpr unmarked) known
        show decl.offset.getD 0 / 2 * 2 = decl.offset.getD 0
        omega
    | _ => rfl
  · rfl

theorem FieldDecl.room_of_ownUnit {names : TypeNames} {text text' : Nat -> Nat} {extent : String -> Nat}
    {decl : FieldDecl} (same : decl.ownUnit text = decl.ownUnit text') :
    decl.room names text extent = decl.room names text' extent := by
  unfold room unit
  split
  · rfl
  · rw [same]

theorem Document.Files.writes {document : Document} {kind : Kind} {decls : List FieldDecl}
    (files : document.Files kind decls) {decl : FieldDecl} (member : decl ∈ decls) :
    ∃ owner, document.Writes owner decl := by
  cases files with
  | struct declared => exact ⟨_, .inl ⟨decls, Table.mem_of_find? declared, member⟩⟩
  | ofClass _ => exact ⟨_, Document.writes_of_mem_classDecls member⟩

theorem Document.writes_of_mem_layers {document : Document} {c : Catalog} {name : String}
    {decls : List FieldDecl} (layer : decls ∈ document.layers c name) {decl : FieldDecl}
    (member : decl ∈ decls) : ∃ owner, document.Writes owner decl := by
  unfold Document.layers at layer
  split at layer
  · rename_i declared
    rw [List.mem_singleton.mp layer] at member
    exact ⟨name, .inl ⟨_, Table.mem_of_find? declared, member⟩⟩
  · rcases List.mem_map.mp layer with ⟨ancestor, -, rfl⟩
    exact ⟨ancestor, Document.writes_of_mem_classDecls member⟩

section Texts

variable {document : Document} {c : Catalog} {text text' : Nat -> Nat}
  (same : forall owner decl, document.Writes owner decl -> decl.ownUnit text = decl.ownUnit text')
include same

theorem Document.Extends.of_same {name : String} {size : Nat} (sized : document.Extends c text name size) :
    document.Extends c text' name size := by
  induction sized with
  | @intro name extent known inductionHypothesis =>
      have total : (document.layers c name).map (declsEnd (FieldDecl.room c.names text extent) 0) =
          (document.layers c name).map (declsEnd (FieldDecl.room c.names text' extent) 0) := by
        refine List.map_congr_left fun decls layer => declsEnd_congr (fun decl member => ?_) 0
        rcases Document.writes_of_mem_layers layer member with ⟨owner, written⟩
        exact FieldDecl.room_of_ownUnit (same owner decl written)
      rw [total]
      exact .intro extent inductionHypothesis

theorem Document.Takes.of_same {decl : FieldDecl} {size : Nat} (own : decl.ownUnit text = decl.ownUnit text')
    (takes : document.Takes c text decl size) : document.Takes c text' decl size := by
  rcases takes with ⟨extent, known, rfl⟩
  exact ⟨extent, fun type holds => (known type holds).of_same same, FieldDecl.room_of_ownUnit own⟩

end Texts

/-- Sizes and places are those that the document asks for if a wide text of so many
bytes takes `text` of them, as long as they are words.  A size of an accepted field of
the given sort is worked out in words exactly if the declaration takes this size and it
is a word.  If all fields of a declaration end at words, their sizes are worked out, and
each begins at the offset that it declares or else where the one before it ends. -/
structure Document.LaidOut (document : Document) (c : Catalog) (text : Nat -> Nat)
    (Admitted : FieldDecl -> Prop) : Prop where
  sizes : forall owner decl g g' field, Admitted decl ->
    loadField c.names owner decl g = .ok (field, g') -> forall size,
    c.WordRun field.kind size ∧ c.sizeOf field.kind = size <->
      document.Takes c text decl size ∧ size < 2 ^ 64
  starts : forall kind decls, document.Files kind decls -> forall extent : String -> Nat,
    (forall decl, decl ∈ decls -> forall type, decl.heldType? c.names = some type ->
      document.Extends c text type (extent type)) ->
    declsEnd (FieldDecl.room c.names text extent) 0 decls < 2 ^ 64 ->
    (forall field, field ∈ c.fieldsOf kind -> c.WordRun field.kind (c.sizeOf field.kind)) ∧
    Catalog.fieldsEnd? c.sizeOf 0 (c.fieldsOf kind) =
      some (declsEnd (FieldDecl.room c.names text extent) 0 decls) ∧
    forall reach, (Catalog.layFields (c.shape reach) 0 (c.fieldsOf kind)).map (fun part => (part.1, part.2.1)) =
      declStarts (FieldDecl.room c.names text extent) 0 decls

theorem laidOut_wholeUnits {host : Host} {document : Document} {c : Catalog}
    (loaded : load host document = .ok c) :
    document.LaidOut c wholeUnits fun _ => True := by
  rcases load_stages loaded with ⟨stages⟩
  have consistent := load_consistent loaded
  refine ⟨fun owner decl g g' field _ loadedField size => ?_,
    fun kind decls filed extent known fits => filed.starts stages consistent known fits⟩
  have kept := loadField_keptAs loadedField
  rw [Catalog.wordRun_iff stages kept.counted, ← kept.sizeRun_iff_takes stages consistent size]
  exact and_iff_left_of_imp fun run => (run.1.eq_sizeOf consistent).symm

/-- As long as sizes and places are words, an accepted document is laid out as it asks
for, but for wide texts, of which only whole units are kept.  If every wide text that it
writes has an even number of bytes, it is laid out as it asks for. -/
theorem laidOut_but_for_odd_texts {host : Host} {document : Document} {c : Catalog}
    (loaded : load host document = .ok c) :
    document.LaidOut c wholeUnits (fun _ => True) ∧
      ((forall owner decl, document.Writes owner decl -> decl.EvenText) ->
        document.LaidOut c id FieldDecl.EvenText) := by
  have laidOut := laidOut_wholeUnits loaded
  refine ⟨laidOut, fun even => ?_⟩
  have same := fun owner decl written => (even owner decl written).ownUnit_eq
  have back := fun owner decl written => (same owner decl written).symm
  constructor
  · intro owner decl g g' field evenText loadedField size
    rw [laidOut.sizes owner decl g g' field trivial loadedField size]
    exact and_congr_left' ⟨.of_same same evenText.ownUnit_eq, .of_same back evenText.ownUnit_eq.symm⟩
  · intro kind decls filed extent known fits
    have asKept := fun decl member type holds => (known decl member type holds).of_same back
    have rooms : forall decl, decl ∈ decls ->
        decl.room c.names wholeUnits extent = decl.room c.names id extent := by
      intro decl member
      rcases filed.writes member with ⟨owner, written⟩
      exact FieldDecl.room_of_ownUnit (same owner decl written)
    rw [← declStarts_congr rooms 0]
    rw [← declsEnd_congr rooms 0] at fits ⊢
    exact laidOut.starts kind decls filed extent asKept fits

/-- A shelf with two labels and a pointer to one.  The text of a label is declared with
five bytes, which is no number of whole units. -/
def labelledShelf : Document :=
  { Document.empty with
    structs := [
      ("Label", [{ Catalog.plainField "text" "UTF16StringFixedSize" with offset := some 5 },
        Catalog.plainField "next" "Byte"]),
      ("Shelf", [{ Catalog.plainField "labels" "Label" with count := some 2 },
        { Catalog.plainField "first" "Label" with pointer := true }, Catalog.plainField "depth" "Word"])] }

/-- The catalog of that document. -/
def shelfCatalog : Catalog :=
  { Catalog.empty with
    names := ⟨[], [], ["Label", "Shelf"], ["Entity"]⟩
    composites := [
      ("Label", [⟨"text", .fixedArray (.scalar ⟨2, .char16⟩) 2, "UTF16StringFixedSize", none, none⟩,
        ⟨"next", .scalar ⟨1, .signed⟩, "Byte", none, none⟩]),
      ("Shelf", [⟨"labels", .fixedArray (.composite "Label") 2, "Label", none, none⟩,
        ⟨"first", .pointerTo (.composite "Label"), "Label", none, none⟩,
        ⟨"depth", .scalar ⟨2, .signed⟩, "Word", none, none⟩])]
    entities := [("Entity", [])] }

theorem load_labelledShelf : load .standing labelledShelf = .ok shelfCatalog := by
  let c := shelfCatalog
  let gathered : Gathered := ⟨[], [], []⟩
  have names : (c.tables.flatMap Table.names).Perm ["Entity", "Label", "Shelf"] := by decide
  exact load_of_stages ⟨[], c.composites, gathered, gathered, gathered, rfl, rfl, rfl, rfl, rfl, rfl, rfl, rfl,
    rfl, rfl, rfl, checkEmbedding_of_perm names (by decide) rfl, rfl, rfl, rfl⟩

/-- A label holds no declared type. -/
theorem label_extends (text : Nat -> Nat) (size : Nat)
    (total : ((labelledShelf.layers shelfCatalog "Label").map
      (declsEnd (FieldDecl.room shelfCatalog.names text fun _ => 0) 0)).sum = size) :
    labelledShelf.Extends shelfCatalog text "Label" size := by
  have plain : forall decls, decls ∈ labelledShelf.layers shelfCatalog "Label" -> forall decl, decl ∈ decls ->
      decl.heldType? shelfCatalog.names = none := by decide
  rw [← total]
  refine .intro _ fun decls layer decl member type holds => ?_
  rw [plain decls layer decl member] at holds
  cases holds

theorem laidOut_but_for_odd_texts_at_labelledShelf :
    let labels := { Catalog.plainField "labels" "Label" with count := some 2 }
    load .standing labelledShelf = .ok shelfCatalog ∧ labelledShelf.Takes shelfCatalog wholeUnits labels 10 ∧
      shelfCatalog.WordRun (.fixedArray (.composite "Label") 2) 10 ∧
      Catalog.fieldsEnd? shelfCatalog.sizeOf 0 (shelfCatalog.fieldsOf (.composite "Shelf")) = some 20 ∧
      (forall reach, (Catalog.layFields (shelfCatalog.shape reach) 0
        (shelfCatalog.fieldsOf (.composite "Shelf"))).map (fun part => (part.1, part.2.1)) =
          [("labels", 0), ("first", 10), ("depth", 18)]) ∧
      Catalog.doorWithLocks.LaidOut Catalog.doorCatalog id FieldDecl.EvenText := by
  intro labels
  have label : labelledShelf.Extends shelfCatalog wholeUnits "Label" 5 := label_extends wholeUnits 5 rfl
  have known : forall decl : FieldDecl, decl ∈ (labelledShelf.structs.find? "Shelf").getD [] -> forall type,
      decl.heldType? shelfCatalog.names = some type -> labelledShelf.Extends shelfCatalog wholeUnits type 5 := by
    intro decl member type holds
    have named : forall decl, decl ∈ (labelledShelf.structs.find? "Shelf").getD [] ->
        decl.heldType? shelfCatalog.names = none ∨ decl.heldType? shelfCatalog.names = some "Label" := by decide
    rcases named decl member with none | same
    · rw [none] at holds
      cases holds
    · rw [same] at holds
      cases holds
      exact label
  have takes : labelledShelf.Takes shelfCatalog wholeUnits labels 10 :=
    ⟨fun _ => 5, known labels (by decide), rfl⟩
  have laidOut := (laidOut_but_for_odd_texts load_labelledShelf).1
  have run := (laidOut.sizes "Shelf" labels ⟨[], [], []⟩ ⟨[], [], []⟩ _ trivial rfl 10).mpr ⟨takes, by decide⟩
  have declared : labelledShelf.structs.find? "Shelf" = some _ := rfl
  have starts := laidOut.starts _ _ (.struct declared) (fun _ => 5) known (by decide)
  have even : forall owner decl, Catalog.doorWithLocks.Writes owner decl -> decl.EvenText :=
    fun owner decl written => written.of_all (by decide) (by decide)
  exact ⟨load_labelledShelf, takes, run.1, starts.2.1, starts.2.2,
    (laidOut_but_for_odd_texts Catalog.load_doorWithLocks).2 even⟩

/-- Loading accepts a text of five bytes and gives it four, so that the field behind it
begins a byte early. -/
theorem accepted_shortens_text :
    let text := { Catalog.plainField "text" "UTF16StringFixedSize" with offset := some 5 }
    load .standing labelledShelf = .ok shelfCatalog ∧
      (∃ field, loadField shelfCatalog.names "Label" text ⟨[], [], []⟩ = .ok (field, ⟨[], [], []⟩) ∧
        shelfCatalog.sizeOf field.kind = 4 ∧ shelfCatalog.SizeRun field.kind 4) ∧
      (forall size, labelledShelf.Takes shelfCatalog id text size <-> size = 5) ∧
      (Catalog.layFields (shelfCatalog.shape 0) 0 (shelfCatalog.fieldsOf (.composite "Label"))).map
        (fun part => (part.1, part.2.1)) = [("text", 0), ("next", 4)] := by
  intro text
  have size : shelfCatalog.sizeOf (.fixedArray (.scalar ⟨2, .char16⟩) 2) = 4 := by decide
  have accessible : Acc shelfCatalog.Holds (.fixedArray (.scalar ⟨2, .char16⟩) 2) :=
    Catalog.acc_of_plain rfl
  have run := Catalog.sizeRun (load_consistent load_labelledShelf) accessible
  rw [size] at run
  have holdsNone : text.heldType? shelfCatalog.names = none := by decide
  refine ⟨load_labelledShelf, ⟨_, rfl, size, run⟩, fun wanted => ⟨?_, ?_⟩, rfl⟩
  · rintro ⟨extent, -, rfl⟩
    rfl
  · rintro rfl
    refine ⟨fun _ => 0, fun type holds => ?_, rfl⟩
    rw [holdsNone] at holds
    cases holds

end Schema
end MemoryAtlas
