import MemoryAtlas.Proofs.Layout.Growth
import MemoryAtlas.Proofs.Layout.Runs

namespace MemoryAtlas

open Schema Shape

/-!
# Where values stand

Which values a layout has, and by which names one comes to them, can be said
from the declarations alone: a value has its fields below its own name, an array
its elements, and a pointer that may still be followed what it leads to.
`Catalog.Stands` says this without sizes, addresses or bounds on nesting.

A walk that ends comes to everything that stands in it.  The other way round a
walk comes to nothing but what stands there, and to the classes of chains, each
of which is recorded with a header of its own.
-/

/-! ## Visits by their routes -/

namespace Shape

/-- One of the visits comes by the route to a value of the kind. -/
def Visited (visits : List Visit) (route : List String) (kind : Kind) : Prop :=
  ∃ v, v ∈ visits ∧ v.route = route ∧ v.kind = kind

/-- Wherever the inner visits come, the outer ones come by the same route behind
a lead. -/
def Covers (outer inner : List Visit) (lead : List String) : Prop :=
  forall route kind, Visited inner route kind -> Visited outer (lead ++ route) kind

theorem Covers.trans {outer middle inner : List Visit} {lead further : List String}
    (first : Covers outer middle lead) (second : Covers middle inner further) :
    Covers outer inner (lead ++ further) := by
  intro route kind visited
  rw [List.append_assoc]
  exact first _ kind (second route kind visited)

theorem Covers.refl (visits : List Visit) : Covers visits visits [] :=
  fun _ _ visited => visited

/-- Visits to which others are added still come where they came. -/
theorem Covers.of_subset {outer inner : List Visit} (subset : inner ⊆ outer) : Covers outer inner [] := by
  rintro route kind ⟨v, visited, came, same⟩
  exact ⟨v, subset visited, came, same⟩

theorem covers_part {owner : Option String} {parts : List Part} {part : Part} (listed : part ∈ parts) :
    Covers (visitsOfParts owner parts) part.2.2.visits [part.1] := by
  rintro route kind ⟨v, visited, rfl, rfl⟩
  exact ⟨v.part owner part.1 part.2.1, mem_visitsOfParts.mpr ⟨part, listed, v, visited, rfl⟩, rfl, rfl⟩

/-- What the parts of a record cover the record covers. -/
theorem Covers.record {kind : Kind} {parts : List Part} {inner : List Visit} {lead : List String}
    (covers : Covers (visitsOfParts kind.declaration? parts) inner lead) :
    Covers (Shape.record kind parts).visits inner lead :=
  (Covers.of_subset (List.subset_cons_self _ _)).trans covers

theorem Covers.array {kind : Kind} {element : Shape} {count i : Nat} {inner : List Visit}
    {lead : List String} (within : i < count) (covers : Covers element.visits inner lead) :
    Covers (Shape.array kind element count).visits inner (toString i :: lead) := by
  have listed : (toString i, i * element.size, element) ∈ elementParts element count :=
    List.mem_map_of_mem (List.mem_range.mpr within)
  rw [visits_array]
  exact (Covers.of_subset (List.subset_cons_self _ _)).trans ((covers_part listed).trans covers)

/-- What the parts behind a pointer cover the pointer covers. -/
theorem Covers.pointer {kind : Kind} {parts : List Part} {inner : List Visit} {lead : List String}
    (covers : Covers (visitsOfParts kind.declaration? parts) inner lead) :
    Covers (Shape.pointer kind parts).visits inner lead := by
  intro route reached visited
  rcases covers route reached visited with ⟨v, behind, came, same⟩
  exact ⟨v.behind, List.mem_cons_of_mem _ (List.mem_map_of_mem behind), came, same⟩

end Shape

namespace Catalog

/-! ## Where fields stand -/

/-- The names that lead to the value of a field among the parts of a declaration. -/
inductive FieldRoute (c : Catalog) : Kind -> List String -> Field -> Prop where
  | own {kind : Kind} {field : Field} (plain : kind.isEntity = false) (member : field ∈ c.fieldsOf kind) :
      FieldRoute c kind [field.name] field
  | inherited {name ancestor : String} {field : Field} (above : ancestor ∈ c.ancestors name)
      (member : field ∈ c.fieldsOf (.entity ancestor)) :
      FieldRoute c (.entity name) [ancestor, field.name] field

/-- In the layout of the outer kind, with so many pointers that may be followed,
a value of the inner kind stands at the route, with so many of them left. -/
inductive Stands (c : Catalog) : Nat -> Kind -> List String -> Nat -> Kind -> Prop where
  | here (reach : Nat) (kind : Kind) : Stands c reach kind [] reach kind
  | element {reach left count i : Nat} {element inner : Kind} {route : List String}
      (divided : element.isScalar = false) (within : i < count)
      (below : Stands c reach element route left inner) :
      Stands c reach (.fixedArray element count) (toString i :: route) left inner
  | field {reach left : Nat} {kind inner : Kind} {lead route : List String} {field : Field}
      (structured : kind.structName?.isSome) (leads : c.FieldRoute kind lead field)
      (below : Stands c reach field.kind route left inner) :
      Stands c reach kind (lead ++ route) left inner
  | behind {reach left : Nat} {kind target inner : Kind} {lead route : List String} {field : Field}
      (points : kind.target? = some target) (leads : c.FieldRoute target lead field)
      (below : Stands c reach field.kind route left inner) :
      Stands c (reach + 1) kind (lead ++ route) left inner
  | star {reach left : Nat} {target inner : Kind} {route : List String}
      (plain : target.structName? = none) (below : Stands c reach target route left inner) :
      Stands c (reach + 1) (.pointerTo target) ("*" :: route) left inner

/-- In the layout of a named type a value of the kind stands at the route, in
one of the fields that the type is made of. -/
def StandsIn (c : Catalog) (reach : Nat) (type : String) (route : List String) (left : Nat) (inner : Kind) :
    Prop :=
  ∃ lead field rest, route = lead ++ rest ∧ c.Stands reach field.kind rest left inner ∧
    if c.isClass type then c.FieldRoute (.entity type) lead field
    else lead = [field.name] ∧ field ∈ c.fieldsNamed type

/-- The fields that a named type is made of can all be laid out to the end. -/
def LayoutEnds (c : Catalog) (o : LayoutOptions) (m : Memory) (type : String) : Prop :=
  forall field, field ∈ c.typeFields type -> ∃ place, c.PlaceRun m o.reach field.kind place

/-! ## Fields among their parts -/

theorem exists_mem_layFields {fields : List Field} {field : Field} (member : field ∈ fields)
    (expand : Kind -> Shape) (cursor : Nat) :
    ∃ offset, (field.name, offset, expand field.kind) ∈ layFields expand cursor fields := by
  induction fields generalizing cursor with
  | nil => cases member
  | cons first rest inductionHypothesis =>
      rcases List.mem_cons.mp member with rfl | later
      · exact ⟨_, List.mem_cons_self⟩
      · rcases inductionHypothesis later _ with ⟨offset, listed⟩
        exact ⟨offset, List.mem_cons_of_mem _ listed⟩

theorem exists_mem_layClasses (c : Catalog) {chain : List String} {name : String} (member : name ∈ chain)
    (expand : Kind -> Shape) (cursor : Nat) :
    ∃ offset, (name, offset, Shape.record (.entity name) (layFields expand 0 (c.fieldsOf (.entity name)))) ∈
      c.layClasses expand cursor chain := by
  induction chain generalizing cursor with
  | nil => cases member
  | cons first rest inductionHypothesis =>
      rcases List.mem_cons.mp member with rfl | later
      · exact ⟨_, List.mem_cons_self⟩
      · rcases inductionHypothesis later _ with ⟨offset, listed⟩
        exact ⟨offset, List.mem_cons_of_mem _ listed⟩

/-- The parts of a declaration cover each of its fields. -/
theorem FieldRoute.covers {c : Catalog} {kind : Kind} {lead : List String} {field : Field}
    (leads : c.FieldRoute kind lead field) (expand : Kind -> Shape) (owner : Option String) :
    Covers (visitsOfParts owner (c.partsOf expand kind)) (expand field.kind).visits lead := by
  cases leads with
  | own plain member =>
      have parts : c.partsOf expand kind = layFields expand 0 (c.fieldsOf kind) := by
        cases kind with
        | entity name => cases plain
        | _ => rfl
      rcases exists_mem_layFields member expand 0 with ⟨offset, listed⟩
      rw [parts]
      exact covers_part listed
  | @inherited name ancestor field above member =>
      rcases c.exists_mem_layClasses above expand 0 with ⟨offset, listed⟩
      rcases exists_mem_layFields member expand 0 with ⟨offset', own⟩
      exact (covers_part listed).trans (covers_part own).record

theorem FieldRoute.mem_partFields {c : Catalog} {kind : Kind} {lead : List String} {field : Field}
    (leads : c.FieldRoute kind lead field) : field ∈ c.partFields kind := by
  cases leads with
  | own plain member => exact mem_partFields_of_plain plain member
  | inherited above member => exact mem_partFields_of_ancestor above member

theorem FieldRoute.held {c : Catalog} {kind : Kind} {lead : List String} {field : Field}
    (leads : c.FieldRoute kind lead field) (structured : kind.structName?.isSome) :
    field.kind ∈ c.heldKinds kind := by
  rw [heldKinds_eq c structured]
  exact List.mem_map_of_mem leads.mem_partFields

theorem FieldRoute.pointed {c : Catalog} {kind target : Kind} {lead : List String} {field : Field}
    (leads : c.FieldRoute target lead field) (points : kind.target? = some target) :
    field.kind ∈ c.pointedKinds kind := by
  rcases Kind.target?_cases points with ⟨name, rfl, rfl⟩ | ⟨rfl, structured⟩
  · cases leads with
    | own plain member => exact List.mem_map_of_mem member
  · rw [pointedKinds, if_pos structured]
    exact leads.held structured

/-! ## Walks cover what stands in them -/

theorem PlaceRun.held {c : Catalog} {m : Memory} {reach : Nat} {kind inner : Kind}
    {place : String -> Address -> List Entry} (run : c.PlaceRun m reach kind place)
    (held : inner ∈ c.heldKinds kind) : ∃ place, c.PlaceRun m reach inner place := by
  cases run with
  | last sizes place sized placed => exact ⟨_, placed inner held⟩
  | onward sizes place behind sized placed => exact ⟨_, placed inner held⟩

theorem PlaceRun.pointed {c : Catalog} {m : Memory} {reach : Nat} {kind inner : Kind}
    {place : String -> Address -> List Entry} (run : c.PlaceRun m (reach + 1) kind place)
    (pointed : inner ∈ c.pointedKinds kind) : ∃ place, c.PlaceRun m reach inner place := by
  cases run with
  | onward sizes place behind sized placed sizedBehind placedBehind => exact ⟨_, placedBehind inner pointed⟩

section Shapes

variable {c : Catalog} (consistent : c.Consistent)
include consistent

theorem shape_of_structured {kind : Kind} (accessible : Acc c.Holds kind)
    (structured : kind.structName?.isSome) (reach : Nat) :
    c.shape reach kind = .record kind (c.partsOf (c.shape reach) kind) := by
  rw [shape_eq consistent accessible]
  cases kind with
  | inlineStruct name => rfl
  | composite name => rfl
  | entity name => rfl
  | _ => cases structured

theorem shape_of_isPointer {kind : Kind} (pointer : kind.isPointer = true) (reach : Nat) :
    c.shape reach kind = .pointer kind (c.targetsAt reach kind) := by
  have accessible : Acc c.Holds kind := by
    refine .intro _ fun inner held => ?_
    cases kind with
    | pointerTo target => cases held
    | ownedPointer name => cases held
    | _ => cases pointer
  rw [shape_eq consistent accessible]
  cases kind with
  | pointerTo target => rfl
  | ownedPointer name => rfl
  | _ => cases pointer

theorem shape_of_array {element : Kind} {count : Nat} (accessible : Acc c.Holds (.fixedArray element count))
    (divided : element.isScalar = false) (reach : Nat) :
    c.shape reach (.fixedArray element count) =
      .array (.fixedArray element count) (c.shape reach element) count := by
  have held : c.Holds element (.fixedArray element count) := List.mem_cons_self
  rw [shape_eq consistent accessible, shapeWith, ← shape_eq consistent (accessible.inv held), divided]
  rfl

omit consistent in
theorem targetParts_of_target {kind target : Kind} (points : kind.target? = some target)
    (expand : Kind -> Shape) : c.targetParts expand kind = c.partsOf expand target := by
  rcases Kind.target?_cases points with ⟨name, rfl, rfl⟩ | ⟨rfl, structured⟩
  · rfl
  · exact if_pos structured

/-- A walk that ends comes to everything that stands in it, and goes on from
there to the end. -/
theorem Stands.covers {m : Memory} {reach left : Nat} {outer inner : Kind} {route : List String}
    (stands : c.Stands reach outer route left inner) {place : String -> Address -> List Entry}
    (run : c.PlaceRun m reach outer place) :
    (∃ place, c.PlaceRun m left inner place) ∧
      Covers (c.shape reach outer).visits (c.shape left inner).visits route := by
  induction stands generalizing place with
  | here reach kind => exact ⟨⟨place, run⟩, Covers.refl _⟩
  | element divided within below inductionHypothesis =>
      rcases run.held List.mem_cons_self with ⟨_, inside⟩
      rcases inductionHypothesis inside with ⟨ends, covers⟩
      rw [shape_of_array consistent run.accessible divided]
      exact ⟨ends, covers.array within⟩
  | @field reach left kind inner lead route field structured leads below inductionHypothesis =>
      rcases run.held (leads.held structured) with ⟨_, inside⟩
      rcases inductionHypothesis inside with ⟨ends, covers⟩
      rw [shape_of_structured consistent run.accessible structured]
      exact ⟨ends, ((leads.covers (c.shape reach) kind.declaration?).trans covers).record⟩
  | @behind reach left kind target inner lead route field points leads below inductionHypothesis =>
      rcases run.pointed (leads.pointed points) with ⟨_, inside⟩
      rcases inductionHypothesis inside with ⟨ends, covers⟩
      rw [shape_of_isPointer consistent (Kind.isPointer_of_target? points), targetsAt,
        targetParts_of_target points]
      exact ⟨ends, ((leads.covers (c.shape reach) kind.declaration?).trans covers).pointer⟩
  | @star reach left target inner route plain below inductionHypothesis =>
      have starred : target ∈ c.pointedKinds (.pointerTo target) := by
        rw [pointedKinds, plain]
        exact List.mem_cons_self
      rcases run.pointed starred with ⟨_, inside⟩
      rcases inductionHypothesis inside with ⟨ends, covers⟩
      have parts : c.targetParts (c.shape reach) (.pointerTo target) = [("*", 0, c.shape reach target)] := by
        rw [targetParts, plain]
        rfl
      have listed : ("*", 0, c.shape reach target) ∈ [("*", 0, c.shape reach target)] := List.mem_cons_self
      rw [shape_of_isPointer consistent rfl, targetsAt, parts]
      exact ⟨ends, ((covers_part listed).trans covers).pointer⟩

/-- Everything but a gap is visited itself. -/
theorem visited_self {kind : Kind} (solid : forall bytes, kind ≠ .skip bytes) (reach : Nat) :
    Visited (c.shape reach kind).visits [] kind := by
  generalize made : c.shape reach kind = shape
  have grown := consistent.grown reach kind
  rw [made] at grown
  cases grown with
  | gap => exact absurd rfl (solid _)
  | _ => exact ⟨_, List.mem_cons_self, rfl, rfl⟩

/-- A layout that ends comes to everything that stands in one of its fields. -/
theorem StandsIn.covers {o : LayoutOptions} {m : Memory} {type : String} {left : Nat} {inner : Kind}
    {route : List String} (stands : c.StandsIn o.reach type route left inner)
    (ends : c.LayoutEnds o m type) :
    (∃ place, c.PlaceRun m left inner place) ∧
      Covers (c.typeVisits o.reach type) (c.shape left inner).visits route := by
  rcases stands with ⟨lead, field, rest, rfl, stands, leads⟩
  rw [typeVisits, topParts]
  cases isClass : c.isClass type with
  | true =>
      rw [LayoutEnds, typeFields, isClass] at ends
      rw [isClass] at leads
      rcases ends field leads.mem_partFields with ⟨_, run⟩
      rcases stands.covers consistent run with ⟨further, covers⟩
      exact ⟨further, (leads.covers (c.shape o.reach) (some type)).trans covers⟩
  | false =>
      rw [LayoutEnds, typeFields, isClass] at ends
      rw [isClass] at leads
      rcases leads with ⟨rfl, member⟩
      rcases ends field member with ⟨_, run⟩
      rcases stands.covers consistent run with ⟨further, covers⟩
      rcases exists_mem_layFields member (c.shape o.reach) 0 with ⟨offset, listed⟩
      exact ⟨further, (covers_part listed).trans covers⟩

end Shapes

/-! ## Nothing else is visited -/

/-- The visit is of a class in a chain, recorded under the name of the class. -/
def IsHeader (v : Visit) : Prop :=
  ∃ ancestor, v.route.getLast? = some ancestor ∧ v.kind = .entity ancestor

theorem IsHeader.behind_lead {v w : Visit} (header : IsHeader v) (lead : List String)
    (route : w.route = lead ++ v.route) (same : w.kind = v.kind) : IsHeader w := by
  rcases header with ⟨ancestor, last, isClass⟩
  refine ⟨ancestor, ?_, same.trans isClass⟩
  rw [route, List.getLast?_append, last]
  rfl

/-- What is visited in a declaration is a header, or has been visited in a field
to which a route leads. -/
theorem VisitsPart.header_or_leads {c : Catalog} {expand : Kind -> Shape} {kind : Kind}
    {owner : Option String} {v : Visit} (visited : c.VisitsPart expand kind owner v) :
    IsHeader v ∨ ∃ lead field, c.FieldRoute kind lead field ∧
      ∃ inner, inner ∈ (expand field.kind).visits ∧ v.route = lead ++ inner.route ∧ v.kind = inner.kind := by
  cases visited with
  | @field field inner offset plain member visited =>
      exact .inr ⟨[field.name], field, .own plain member, inner, visited, rfl, rfl⟩
  | header offset size isClass above => exact .inl ⟨_, rfl, rfl⟩
  | @inherited name ancestor field inner offset offset' isClass above member visited =>
      subst isClass
      exact .inr ⟨[ancestor, field.name], field, .inherited above member, inner, visited, rfl, rfl⟩

/-- What a walk comes to stands there, unless it is a header. -/
theorem Grown.header_or_stands {c : Catalog} {reach : Nat} {kind : Kind} {shape : Shape}
    (grown : c.Grown reach kind shape) {v : Visit} (visited : v ∈ shape.visits) :
    IsHeader v ∨ ∃ left, c.Stands reach kind v.route left v.kind := by
  induction grown generalizing v with
  | gap reach bytes => cases visited
  | atom reach undivided =>
      rw [List.mem_singleton.mp visited]
      exact .inr ⟨reach, .here reach _⟩
  | array count divided grown inductionHypothesis =>
      rcases List.mem_cons.mp visited with rfl | below
      · exact .inr ⟨_, .here _ _⟩
      · rcases List.mem_flatMap.mp below with ⟨i, within, mapped⟩
        rcases List.mem_map.mp mapped with ⟨inner, reached, rfl⟩
        rcases inductionHypothesis reached with header | ⟨left, stands⟩
        · exact .inl (header.behind_lead [toString i] rfl rfl)
        · exact .inr ⟨left, .element divided (List.mem_range.mp within) stands⟩
  | @record reach kind expand structured held inductionHypothesis =>
      rcases List.mem_cons.mp visited with rfl | below
      · exact .inr ⟨reach, .here reach kind⟩
      · rcases (visitsPart_of_mem below).header_or_leads with
          header | ⟨lead, field, leads, inner, reached, route, same⟩
        · exact .inl header
        · rcases inductionHypothesis field leads.mem_partFields reached with header | ⟨left, stands⟩
          · exact .inl (header.behind_lead lead route same)
          · rw [route, same]
            exact .inr ⟨left, .field structured leads stands⟩
  | endless reach structured infinite =>
      rw [List.mem_singleton.mp visited]
      exact .inr ⟨reach, .here reach _⟩
  | unfollowed pointer =>
      rw [List.mem_singleton.mp visited]
      exact .inr ⟨0, .here 0 _⟩
  | @followed reach kind target expand points held inductionHypothesis =>
      rcases List.mem_cons.mp visited with rfl | below
      · exact .inr ⟨_, .here _ kind⟩
      · rcases List.mem_map.mp below with ⟨w, behind, rfl⟩
        rcases (visitsPart_of_mem behind).header_or_leads with
          header | ⟨lead, field, leads, inner, reached, route, same⟩
        · exact .inl header
        · rcases inductionHypothesis field leads.mem_partFields reached with header | ⟨left, stands⟩
          · exact .inl (header.behind_lead lead route same)
          · have behind := Stands.behind points leads stands
            rw [← route, ← same] at behind
            exact .inr ⟨left, behind⟩
  | @starred reach target shape plain grown inductionHypothesis =>
      rcases List.mem_cons.mp visited with rfl | below
      · exact .inr ⟨_, .here _ _⟩
      · rcases List.mem_map.mp below with ⟨w, behind, rfl⟩
        rcases mem_visitsOfParts.mp behind with ⟨part, listed, inner, reached, rfl⟩
        rw [List.mem_singleton.mp listed] at reached ⊢
        rcases inductionHypothesis reached with header | ⟨left, stands⟩
        · exact .inl (header.behind_lead ["*"] rfl rfl)
        · exact .inr ⟨left, .star plain stands⟩

/-- The layout of a named type has nothing but what stands in it, and headers. -/
theorem header_or_standsIn {c : Catalog} (consistent : c.Consistent) {reach : Nat} {type : String} {v : Visit}
    (visited : v ∈ c.typeVisits reach type) :
    IsHeader v ∨ ∃ left, c.StandsIn reach type v.route left v.kind := by
  rcases typeVisits_cases visited with
    ⟨isClass, visited⟩ | ⟨stranger, field, member, inner, reached, offset, rfl⟩
  · rcases visited.header_or_leads with header | ⟨lead, field, leads, inner, reached, route, same⟩
    · exact .inl header
    · rcases (consistent.grown reach field.kind).header_or_stands reached with header | ⟨left, stands⟩
      · exact .inl (header.behind_lead lead route same)
      · rw [← same] at stands
        refine .inr ⟨left, lead, field, inner.route, route, stands, ?_⟩
        rw [if_pos isClass]
        exact leads
  · rcases (consistent.grown reach field.kind).header_or_stands reached with header | ⟨left, stands⟩
    · exact .inl (header.behind_lead [field.name] rfl rfl)
    · refine .inr ⟨left, [field.name], field, inner.route, rfl, stands, ?_⟩
      rw [stranger]
      exact ⟨rfl, member⟩

/-- A layout that ends comes to a value exactly where one stands.  Only classes
have headers besides, and only gaps are passed over. -/
theorem visited_iff_standsIn {c : Catalog} (consistent : c.Consistent) {o : LayoutOptions} {m : Memory}
    {type : String} (ends : c.LayoutEnds o m type) {kind : Kind} (plain : kind.isEntity = false)
    (solid : forall bytes, kind ≠ .skip bytes) (route : List String) :
    Visited (c.typeVisits o.reach type) route kind <-> ∃ left, c.StandsIn o.reach type route left kind := by
  constructor
  · rintro ⟨v, visited, rfl, rfl⟩
    rcases header_or_standsIn consistent visited with ⟨ancestor, -, isClass⟩ | stands
    · rw [isClass] at plain
      cases plain
    · exact stands
  · rintro ⟨left, stands⟩
    have visited := (stands.covers consistent ends).2 [] kind (visited_self consistent solid left)
    rw [List.append_nil] at visited
    exact visited

end Catalog
end MemoryAtlas
