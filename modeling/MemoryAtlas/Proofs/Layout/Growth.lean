import MemoryAtlas.Proofs.Layout.Unfolding
import MemoryAtlas.Proofs.Layout.Visits

namespace MemoryAtlas

open Schema Shape

/-!
# How shapes grow from declarations

The shape of a kind is computed with bounds: on the declarations nested in each
other and on the pointers followed one behind the other.  `Catalog.Grown` says
what comes out of that computation without saying how.  A shape has grown from
a kind if it is the kind's own leaf, or an array of something grown from the
element, or a declaration whose parts have grown from its fields.

Whatever is to hold of every value in a layout is proved by induction on growth,
one case for each way in which a shape can begin.  A structure that contains
itself is cut off, and the relation records that this happens only in catalogs
whose nesting is not well founded.
-/

namespace Kind

/-- The room of a kind that is laid out in one piece, pointers left out. -/
def undividedSize? : Kind -> Option Nat
  | .scalar s => some s.width
  | .fixedArray (.scalar s) count => some (s.width * count)
  | .dynamicArray _ => some vectorHeadSize
  | .orderedMap _ _ => some treeHeadSize
  | .foreignString _ => some stringHeadSize
  | .slotTable _ => some pointerSize
  | _ => none

def isPointer : Kind -> Bool
  | .pointerTo _ | .ownedPointer _ => true
  | _ => false

def isEntity : Kind -> Bool
  | .entity _ => true
  | _ => false

/-- The declaration that a pointer leads to, if it leads to one. -/
def target? : Kind -> Option Kind
  | .ownedPointer name => some (.ownedPointer name)
  | .pointerTo target => if target.structName?.isSome then some target else none
  | _ => none

/-- A pointer leads to a declaration as an owned pointer, or marked as a pointer
to a structure or class. -/
theorem target?_cases {kind target : Kind} (leads : kind.target? = some target) :
    (∃ name, kind = .ownedPointer name ∧ target = .ownedPointer name) ∨
      kind = .pointerTo target ∧ target.structName?.isSome := by
  cases kind with
  | ownedPointer name =>
      cases leads
      exact .inl ⟨name, rfl, rfl⟩
  | pointerTo inner =>
      rw [target?] at leads
      split at leads
      · rename_i structured
        cases leads
        exact .inr ⟨rfl, structured⟩
      · cases leads
  | _ => cases leads

theorem declaration?_of_target? {kind target : Kind} (leads : kind.target? = some target) :
    kind.declaration? = target.declaration? := by
  rcases target?_cases leads with ⟨name, rfl, rfl⟩ | ⟨rfl, structured⟩
  · rfl
  · cases target with
    | inlineStruct name => rfl
    | composite name => rfl
    | entity name => rfl
    | _ => cases structured

theorem isPointer_of_target? {kind target : Kind} (leads : kind.target? = some target) :
    kind.isPointer = true := by
  rcases target?_cases leads with ⟨name, rfl, -⟩ | ⟨rfl, -⟩ <;> rfl

end Kind

namespace Catalog

/-- The fields that the parts of a declaration are made of, with those of all
ancestors where the declaration is a class. -/
def partFields (c : Catalog) : Kind -> List Field
  | .entity name => (c.ancestors name).flatMap (fun ancestor => c.fieldsOf (.entity ancestor))
  | kind => c.fieldsOf kind

theorem partFields_eq_fieldsOf {c : Catalog} {kind : Kind} (plain : kind.isEntity = false) :
    c.partFields kind = c.fieldsOf kind := by
  cases kind with
  | entity name => cases plain
  | _ => rfl

theorem mem_partFields_of_plain {c : Catalog} {kind : Kind} {field : Field} (plain : kind.isEntity = false)
    (member : field ∈ c.fieldsOf kind) : field ∈ c.partFields kind := by
  rw [partFields_eq_fieldsOf plain]
  exact member

theorem mem_partFields_of_ancestor {c : Catalog} {name ancestor : String} {field : Field}
    (above : ancestor ∈ c.ancestors name) (member : field ∈ c.fieldsOf (.entity ancestor)) :
    field ∈ c.partFields (.entity name) :=
  List.mem_flatMap.mpr ⟨ancestor, above, member⟩

theorem mem_fieldsOf_of_mem_partFields {c : Catalog} {kind : Kind} {field : Field}
    (member : field ∈ c.partFields kind) : ∃ outer, field ∈ c.fieldsOf outer := by
  cases kind with
  | entity name =>
      rcases List.mem_flatMap.mp member with ⟨ancestor, -, own⟩
      exact ⟨.entity ancestor, own⟩
  | _ =>
      rw [partFields_eq_fieldsOf rfl] at member
      exact ⟨_, member⟩

/-- What a kind holds by value are the kinds of its fields. -/
theorem heldKinds_eq (c : Catalog) {kind : Kind} (structured : kind.structName?.isSome) :
    c.heldKinds kind = (c.partFields kind).map Field.kind := by
  cases kind with
  | inlineStruct name => rfl
  | composite name => rfl
  | entity name => simp [heldKinds, partFields, List.map_flatMap]
  | _ => cases structured

/-- A shape that the declarations allow for a kind, with the given number of
pointers followed one behind the other. -/
inductive Grown (c : Catalog) : Nat -> Kind -> Shape -> Prop where
  | gap (reach bytes : Nat) : Grown c reach (.skip bytes) (.gap bytes)
  | atom (reach : Nat) {kind : Kind} {size : Nat} (undivided : kind.undividedSize? = some size) :
      Grown c reach kind (.atom kind size)
  | array {reach : Nat} {element : Kind} {shape : Shape} (count : Nat)
      (divided : element.isScalar = false) (grown : Grown c reach element shape) :
      Grown c reach (.fixedArray element count) (.array (.fixedArray element count) shape count)
  | record {reach : Nat} {kind : Kind} (expand : Kind -> Shape) (structured : kind.structName?.isSome)
      (held : forall field, field ∈ c.partFields kind -> Grown c reach field.kind (expand field.kind)) :
      Grown c reach kind (.record kind (c.partsOf expand kind))
  | endless (reach : Nat) {kind : Kind} (structured : kind.structName?.isSome)
      (infinite : ¬ WellFounded c.Holds) : Grown c reach kind (.endless kind)
  | unfollowed {kind : Kind} (pointer : kind.isPointer = true) : Grown c 0 kind (.pointer kind [])
  | followed {reach : Nat} {kind target : Kind} (expand : Kind -> Shape)
      (leads : kind.target? = some target)
      (held : forall field, field ∈ c.partFields target ->
        Grown c reach field.kind (expand field.kind)) :
      Grown c (reach + 1) kind (.pointer kind (c.partsOf expand target))
  | starred {reach : Nat} {target : Kind} {shape : Shape} (plain : target.structName? = none)
      (grown : Grown c reach target shape) :
      Grown c (reach + 1) (.pointerTo target) (.pointer (.pointerTo target) [("*", 0, shape)])

/-- Filling in a kind gives a grown shape if structures and pointers are filled
in with grown shapes. -/
theorem grown_shapeWith {c : Catalog} {reach : Nat} {record : Kind -> Shape}
    {target : Kind -> List Part} {kind : Kind}
    (structures : kind.core.structName?.isSome -> c.Grown reach kind.core (record kind.core))
    (pointers : forall pointer, pointer.isPointer = true ->
      c.Grown reach pointer (.pointer pointer (target pointer))) :
    c.Grown reach kind (shapeWith record target kind) := by
  induction kind with
  | fixedArray element count inductionHypothesis =>
      rw [shapeWith]
      cases scalar : element.isScalar with
      | false => exact .array count scalar (inductionHypothesis structures)
      | true =>
          cases element with
          | scalar s => exact .atom reach rfl
          | _ => cases scalar
  | inlineStruct name => exact structures rfl
  | composite name => exact structures rfl
  | entity name => exact structures rfl
  | pointerTo target => exact pointers _ rfl
  | ownedPointer name => exact pointers _ rfl
  | skip bytes => exact .gap reach bytes
  | _ => exact .atom reach rfl

theorem grown_shapeWithin {c : Catalog} {reach depth : Nat} {target : Kind -> List Part} {kind : Kind}
    (nests : WellFounded c.Holds -> c.NestsWithin depth kind)
    (pointers : forall pointer, pointer.isPointer = true ->
      c.Grown reach pointer (.pointer pointer (target pointer))) :
    c.Grown reach kind (c.shapeWithin target depth kind) := by
  induction depth generalizing kind with
  | zero =>
      refine grown_shapeWith (fun structured => .endless reach structured fun wellFounded => ?_) pointers
      have plain : kind.core.structName? = none := nests wellFounded
      rw [plain] at structured
      cases structured
  | succ depth inductionHypothesis =>
      refine grown_shapeWith (fun structured => .record _ structured fun field member => ?_) pointers
      refine inductionHypothesis fun wellFounded => nests wellFounded field.kind ?_
      rw [heldKinds_eq c structured]
      exact List.mem_map_of_mem member

/-- Every computed shape has grown from its kind. -/
theorem Consistent.grown {c : Catalog} (consistent : c.Consistent) (reach : Nat) (kind : Kind) :
    c.Grown reach kind (c.shape reach kind) := by
  have nests := fun (wellFounded : WellFounded c.Holds) (kind : Kind) =>
    consistent.nestsWithin (wellFounded.apply kind)
  induction reach generalizing kind with
  | zero =>
      exact grown_shapeWithin (fun wellFounded => nests wellFounded kind) (fun pointer => .unfollowed)
  | succ reach inductionHypothesis =>
      refine grown_shapeWithin (fun wellFounded => nests wellFounded kind) fun pointer isPointer => ?_
      cases pointer with
      | ownedPointer name =>
          have leads : (Kind.ownedPointer name).target? = some (.ownedPointer name) := rfl
          exact .followed (c.shape reach) leads fun field _ => inductionHypothesis field.kind
      | pointerTo target =>
          rw [targetParts]
          split
          · rename_i structured
            exact .followed _ (if_pos structured) fun field _ => inductionHypothesis field.kind
          · rename_i plain
            exact .starred (Option.not_isSome_iff_eq_none.mp plain) (inductionHypothesis target)
      | _ => cases isPointer

/-! ## Visits of parts -/

/-- The parts of a declaration that is not a class are its fields; those of a
class are its ancestors, each with the fields of its own. -/
inductive VisitsPart (c : Catalog) (expand : Kind -> Shape) (kind : Kind) (owner : Option String) :
    Visit -> Prop where
  | field {field : Field} {inner : Visit} (offset : Nat) (plain : kind.isEntity = false)
      (member : field ∈ c.fieldsOf kind) (visited : inner ∈ (expand field.kind).visits) :
      VisitsPart c expand kind owner (inner.part owner field.name offset)
  | header {name ancestor : String} (offset size : Nat) (isClass : kind = .entity name)
      (above : ancestor ∈ c.ancestors name) :
      VisitsPart c expand kind owner ((Visit.self (.entity ancestor) size).part owner ancestor offset)
  | inherited {name ancestor : String} {field : Field} {inner : Visit} (offset offset' : Nat)
      (isClass : kind = .entity name) (above : ancestor ∈ c.ancestors name)
      (member : field ∈ c.fieldsOf (.entity ancestor)) (visited : inner ∈ (expand field.kind).visits) :
      VisitsPart c expand kind owner
        ((inner.part (some ancestor) field.name offset').part owner ancestor offset)

theorem mem_layFields {expand : Kind -> Shape} {cursor : Nat} {fields : List Field} {part : Part}
    (member : part ∈ layFields expand cursor fields) :
    ∃ field ∈ fields, ∃ offset, part = (field.name, offset, expand field.kind) := by
  induction fields generalizing cursor with
  | nil => cases member
  | cons field rest inductionHypothesis =>
      rcases List.mem_cons.mp member with rfl | later
      · exact ⟨field, List.mem_cons_self, _, rfl⟩
      · rcases inductionHypothesis later with ⟨other, listed, same⟩
        exact ⟨other, List.mem_cons_of_mem field listed, same⟩

theorem mem_layClasses {c : Catalog} {expand : Kind -> Shape} {cursor : Nat} {chain : List String}
    {part : Part} (member : part ∈ c.layClasses expand cursor chain) :
    ∃ name ∈ chain, ∃ offset, part =
      (name, offset, .record (.entity name) (layFields expand 0 (c.fieldsOf (.entity name)))) := by
  induction chain generalizing cursor with
  | nil => cases member
  | cons name rest inductionHypothesis =>
      rcases List.mem_cons.mp member with rfl | later
      · exact ⟨name, List.mem_cons_self, _, rfl⟩
      · rcases inductionHypothesis later with ⟨other, listed, same⟩
        exact ⟨other, List.mem_cons_of_mem name listed, same⟩

theorem visitsPart_of_mem {c : Catalog} {expand : Kind -> Shape} {kind : Kind} {owner : Option String}
    {v : Visit} (member : v ∈ visitsOfParts owner (c.partsOf expand kind)) :
    c.VisitsPart expand kind owner v := by
  rcases mem_visitsOfParts.mp member with ⟨part, listed, inner, visited, rfl⟩
  have fields : kind.isEntity = false -> part ∈ layFields expand 0 (c.fieldsOf kind) ->
      c.VisitsPart expand kind owner (inner.part owner part.1 part.2.1) := by
    intro plain listed
    rcases mem_layFields listed with ⟨field, declared, offset, rfl⟩
    exact .field offset plain declared visited
  cases kind with
  | entity name =>
      rcases mem_layClasses listed with ⟨ancestor, above, offset, rfl⟩
      rcases List.mem_cons.mp visited with rfl | below
      · exact .header offset _ rfl above
      · rcases mem_visitsOfParts.mp below with ⟨part, own, inner, reached, rfl⟩
        rcases mem_layFields own with ⟨field, declared, offset', rfl⟩
        exact .inherited offset offset' rfl above declared reached
  | _ => exact fields rfl listed

/-- Whatever is visited in a declaration is the header of a class in its chain,
or has been visited in one of its fields. -/
theorem VisitsPart.header_or_field {c : Catalog} {expand : Kind -> Shape} {kind : Kind}
    {owner : Option String} {v : Visit} (visited : c.VisitsPart expand kind owner v) :
    (∃ name ancestor, kind = .entity name ∧ ancestor ∈ c.ancestors name ∧ v.kind = .entity ancestor) ∨
      ∃ field, field ∈ c.partFields kind ∧ ∃ inner, inner ∈ (expand field.kind).visits ∧
        v.kind = inner.kind ∧ v.size = inner.size := by
  cases visited with
  | @field field inner offset plain declared visited =>
      exact .inr ⟨field, mem_partFields_of_plain plain declared, inner, visited, rfl, rfl⟩
  | header offset size isClass above => exact .inl ⟨_, _, isClass, above, rfl⟩
  | @inherited name ancestor field inner offset offset' isClass above declared visited =>
      subst isClass
      exact .inr ⟨field, mem_partFields_of_ancestor above declared, inner, visited, rfl, rfl⟩

/-- What is true of the visit of any value by itself, and stays true when the
value is reached as an element, as a part of a declaration or through a pointer,
is true of every visit of a grown shape. -/
theorem Grown.forall_visits {c : Catalog} (Good : Visit -> Prop)
    (self : forall kind size, Good (.self kind size))
    (element : forall (i offset : Nat) v, Good v -> Good (v.part none (toString i) offset))
    (star : forall v, Good v -> Good (v.part none "*" 0))
    (behind : forall v, Good v -> Good v.behind)
    (parts : forall expand kind,
      (forall field, field ∈ c.partFields kind -> forall v, v ∈ (expand field.kind).visits -> Good v) ->
      forall v, v ∈ visitsOfParts kind.declaration? (c.partsOf expand kind) -> Good v)
    {reach : Nat} {kind : Kind} {shape : Shape} (grown : c.Grown reach kind shape) {v : Visit}
    (member : v ∈ shape.visits) : Good v := by
  induction grown generalizing v with
  | gap reach bytes => cases member
  | atom reach undivided =>
      rw [List.mem_singleton.mp member]
      exact self _ _
  | array count divided grown inductionHypothesis =>
      rcases List.mem_cons.mp member with rfl | below
      · exact self _ _
      · rcases List.mem_flatMap.mp below with ⟨i, -, mapped⟩
        rcases List.mem_map.mp mapped with ⟨inner, visited, rfl⟩
        exact element i _ inner (inductionHypothesis visited)
  | @record reach kind expand structured held inductionHypothesis =>
      rcases List.mem_cons.mp member with rfl | below
      · exact self _ _
      · exact parts expand kind (fun field declared v => inductionHypothesis field declared) v below
  | endless reach structured infinite =>
      rw [List.mem_singleton.mp member]
      exact self _ _
  | unfollowed pointer =>
      rw [List.mem_singleton.mp member]
      exact self _ _
  | @followed reach kind target expand leads held inductionHypothesis =>
      rcases List.mem_cons.mp member with rfl | below
      · exact self _ _
      · rcases List.mem_map.mp below with ⟨inner, visited, rfl⟩
        rw [Kind.declaration?_of_target? leads] at visited
        have reached := parts expand target (fun field declared v => inductionHypothesis field declared)
          inner visited
        exact behind inner reached
  | @starred reach target shape plain grown inductionHypothesis =>
      have unnamed : (Kind.pointerTo target).declaration? = none := plain
      rcases List.mem_cons.mp member with rfl | below
      · exact self _ _
      · rcases List.mem_map.mp below with ⟨inner, reached, rfl⟩
        rcases mem_visitsOfParts.mp reached with ⟨part, listed, inner, visited, rfl⟩
        rw [List.mem_singleton.mp listed] at visited ⊢
        rw [unnamed]
        exact behind _ (star inner (inductionHypothesis visited))

/-- A property of kinds that passes on to everything that is laid out with a kind. -/
structure Hereditary (c : Catalog) (Holds : Kind -> Prop) : Prop where
  element : forall {element count}, Holds (.fixedArray element count) -> Holds element
  target : forall {target}, Holds (.pointerTo target) -> Holds target
  field : forall {kind field}, Holds kind -> field ∈ c.partFields kind -> Holds field.kind
  header : forall {name ancestor}, Holds (.entity name) -> ancestor ∈ c.ancestors name ->
    Holds (.entity ancestor)

/-- A kind with the property that has room as the kind of a grown shape, or is
the kind of a header in a class chain. -/
def Arises (c : Catalog) (Holds : Kind -> Prop) (kind : Kind) (size : Nat) : Prop :=
  Holds kind ∧
    ((∃ reach shape, c.Grown reach kind shape ∧ size = shape.size) ∨ ∃ name, kind = .entity name)

/-- Whatever a walk comes to inherits the properties of the kind that it began
with. -/
theorem Grown.arises {c : Catalog} {Holds : Kind -> Prop} (hereditary : c.Hereditary Holds)
    {reach : Nat} {kind : Kind} {shape : Shape} (grown : c.Grown reach kind shape) (begins : Holds kind)
    {v : Visit} (member : v ∈ shape.visits) : c.Arises Holds v.kind v.size := by
  have parts : forall {owner expand kind v}, Holds kind -> v ∈ visitsOfParts owner (c.partsOf expand kind) ->
      (forall field, field ∈ c.partFields kind -> Holds field.kind ->
        forall inner, inner ∈ (expand field.kind).visits -> c.Arises Holds inner.kind inner.size) ->
      c.Arises Holds v.kind v.size := by
    intro owner expand kind v begins member each
    rcases (visitsPart_of_mem member).header_or_field with
      ⟨name, ancestor, rfl, above, isHeader⟩ | ⟨field, declared, inner, visited, sameKind, sameSize⟩
    · rw [isHeader]
      exact ⟨hereditary.header begins above, .inr ⟨ancestor, rfl⟩⟩
    · rw [sameKind, sameSize]
      exact each field declared (hereditary.field begins declared) inner visited
  induction grown generalizing v with
  | gap reach bytes => cases member
  | atom reach undivided =>
      rw [List.mem_singleton.mp member]
      exact ⟨begins, .inl ⟨_, _, .atom reach undivided, rfl⟩⟩
  | array count divided grown inductionHypothesis =>
      rcases List.mem_cons.mp member with rfl | below
      · exact ⟨begins, .inl ⟨_, _, .array count divided grown, rfl⟩⟩
      · rcases List.mem_flatMap.mp below with ⟨i, -, mapped⟩
        rcases List.mem_map.mp mapped with ⟨inner, visited, rfl⟩
        have inner := inductionHypothesis (hereditary.element begins) visited
        exact inner
  | record expand structured held inductionHypothesis =>
      rcases List.mem_cons.mp member with rfl | below
      · exact ⟨begins, .inl ⟨_, _, .record expand structured held, rfl⟩⟩
      · exact parts begins below (fun field declared begins inner visited =>
          inductionHypothesis field declared begins visited)
  | endless reach structured infinite =>
      rw [List.mem_singleton.mp member]
      exact ⟨begins, .inl ⟨_, _, .endless reach structured infinite, rfl⟩⟩
  | unfollowed pointer =>
      rw [List.mem_singleton.mp member]
      exact ⟨begins, .inl ⟨_, _, .unfollowed pointer, rfl⟩⟩
  | @followed reach kind target expand leads held inductionHypothesis =>
      rcases List.mem_cons.mp member with rfl | below
      · exact ⟨begins, .inl ⟨_, _, .followed expand leads held, rfl⟩⟩
      · rcases List.mem_map.mp below with ⟨inner, visited, rfl⟩
        have led : Holds target := by
          rcases Kind.target?_cases leads with ⟨name, rfl, rfl⟩ | ⟨rfl, -⟩
          · exact begins
          · exact hereditary.target begins
        have inner := parts led visited (fun field declared begins inner visited =>
          inductionHypothesis field declared begins visited)
        exact inner
  | starred plain grown inductionHypothesis =>
      rcases List.mem_cons.mp member with rfl | below
      · exact ⟨begins, .inl ⟨_, _, .starred plain grown, rfl⟩⟩
      · rcases List.mem_map.mp below with ⟨inner, reached, rfl⟩
        rcases mem_visitsOfParts.mp reached with ⟨part, listed, inner, visited, rfl⟩
        rw [List.mem_singleton.mp listed] at visited
        have inner := inductionHypothesis (hereditary.target begins) visited
        exact inner

/-! ## Named types -/

/-- The fields that a named type is made of: those of the whole chain if it is a
class. -/
def typeFields (c : Catalog) (name : String) : List Field :=
  if c.isClass name then c.partFields (.entity name) else c.fieldsNamed name

theorem mem_fieldsOf_of_mem_typeFields {c : Catalog} {name : String} {field : Field}
    (member : field ∈ c.typeFields name) : ∃ outer, field ∈ c.fieldsOf outer := by
  rw [typeFields] at member
  split at member
  · exact mem_fieldsOf_of_mem_partFields member
  · rw [fieldsNamed] at member
    cases resolved : c.resolve name with
    | none => simp [resolved] at member
    | some kind =>
        rw [resolved] at member
        exact ⟨kind, member⟩

/-- A class is visited like the declaration that it is, anything else field by
field. -/
theorem typeVisits_cases {c : Catalog} {reach : Nat} {name : String} {v : Visit}
    (member : v ∈ c.typeVisits reach name) :
    (c.isClass name = true ∧ c.VisitsPart (c.shape reach) (.entity name) (some name) v) ∨
      c.isClass name = false ∧ ∃ field, field ∈ c.fieldsNamed name ∧
        ∃ inner, inner ∈ (c.shape reach field.kind).visits ∧ ∃ offset,
          v = inner.part (some name) field.name offset := by
  rw [typeVisits, topParts] at member
  split at member
  · rename_i isClass
    have chain : v ∈ visitsOfParts (some name) (c.partsOf (c.shape reach) (.entity name)) := member
    exact .inl ⟨isClass, visitsPart_of_mem chain⟩
  · rename_i stranger
    rcases mem_visitsOfParts.mp member with ⟨part, listed, inner, visited, rfl⟩
    rcases mem_layFields listed with ⟨field, declared, offset, rfl⟩
    exact .inr ⟨Bool.eq_false_iff.mpr stranger, field, declared, inner, visited, offset, rfl⟩

/-- Whatever is visited in a named type is the header of a class in its chain,
or has been visited in one of its fields. -/
theorem header_or_field_of_mem_typeVisits {c : Catalog} {reach : Nat} {name : String} {v : Visit}
    (member : v ∈ c.typeVisits reach name) :
    (∃ ancestor, ancestor ∈ c.ancestors name ∧ v.kind = .entity ancestor) ∨
      ∃ field, field ∈ c.typeFields name ∧ ∃ inner, inner ∈ (c.shape reach field.kind).visits ∧
        v.kind = inner.kind ∧ v.size = inner.size := by
  rcases typeVisits_cases member with
    ⟨isClass, visited⟩ | ⟨stranger, field, declared, inner, visited, offset, rfl⟩
  · rw [typeFields, if_pos isClass]
    rcases visited.header_or_field with ⟨_, ancestor, same, header⟩ | field
    · cases same
      exact .inl ⟨ancestor, header⟩
    · exact .inr field
  · rw [typeFields, stranger]
    exact .inr ⟨field, declared, inner, visited, rfl, rfl⟩

end Catalog
end MemoryAtlas
