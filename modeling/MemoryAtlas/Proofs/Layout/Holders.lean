import MemoryAtlas.Proofs.Layout.Growth

namespace MemoryAtlas

open Schema Shape

/-!
# Which field a value belongs to

A visit carries the field that it belongs to: the last field of a declaration
that the walk has come through.  What an array or a plain pointer consists of
belongs to the field that holds the array or the pointer.

A scalar is either the whole value of its field or what a pointer to a scalar
leads to.  The elements of an array of scalars are not visited one by one, so an
array never comes right above a scalar.
-/

namespace Catalog

/-! ## Where a scalar comes from -/

/-- The scalar `v` stands below `u`: as the whole value of a field that the
declaration of `u` has, or as what the pointer `u` leads to. -/
inductive Below (c : Catalog) (u v : Visit) : Prop where
  | field {kind : Kind} {owner : String} {field : Field} (declares : u.kind.declaration? = some owner)
      (declared : kind.declaration? = some owner) (member : field ∈ c.fieldsOf kind)
      (whole : v.kind = field.kind) (holder : v.holder = some (owner, field.name))
      (route : v.route = u.route ++ [field.name])
  | target (pointer : u.kind = .pointerTo v.kind) (holder : v.holder = u.holder)
      (route : v.route = u.route ++ ["*"])

theorem Below.part {c : Catalog} {u v : Visit} (below : c.Below u v) (owner : Option String)
    (name : String) (offset : Nat) : c.Below (u.part owner name offset) (v.part owner name offset) := by
  cases below with
  | field declares declared member whole holder route =>
      refine .field declares declared member whole ?_ (congrArg (List.cons name) route)
      show v.holder.or _ = _
      rw [holder]
      rfl
  | target pointer holder route =>
      refine .target pointer ?_ (congrArg (List.cons name) route)
      show v.holder.or _ = u.holder.or _
      rw [holder]

theorem Below.behind {c : Catalog} {u v : Visit} (below : c.Below u v) : c.Below u.behind v.behind := by
  cases below with
  | field declares declared member whole holder route =>
      exact .field declares declared member whole holder route
  | target pointer holder route => exact .target pointer holder route

/-- The scalar is the whole value of a field of the kind, and that field is all
of its route. -/
def IsField (c : Catalog) (kind : Kind) (owner : String) (v : Visit) : Prop :=
  ∃ field, field ∈ c.fieldsOf kind ∧ v.kind = field.kind ∧ v.holder = some (owner, field.name) ∧
    v.route = [field.name]

theorem IsField.below {c : Catalog} {kind : Kind} {owner : String} {u v : Visit}
    (isField : c.IsField kind owner v) (top : u.route = []) (declares : u.kind.declaration? = some owner)
    (declared : kind.declaration? = some owner) : c.Below u v := by
  rcases isField with ⟨field, member, whole, holder, route⟩
  refine .field declares declared member whole holder ?_
  rw [top, route]
  rfl

/-- The scalar is the value that the walk begins with, or stands below another
visit of the walk. -/
def Placed (c : Catalog) (kind : Kind) (visits : List Visit) (v : Visit) : Prop :=
  (v.route = [] ∧ v.holder = none ∧ v.kind = kind) ∨ ∃ u, u ∈ visits ∧ c.Below u v

theorem below_in_part {c : Catalog} {parts : List Part} {part : Part} (listed : part ∈ parts)
    (owner : Option String) {u v : Visit} (visited : u ∈ part.2.2.visits) (below : c.Below u v) :
    ∃ w, w ∈ visitsOfParts owner parts ∧ c.Below w (v.part owner part.1 part.2.1) :=
  ⟨_, mem_visitsOfParts.mpr ⟨part, listed, u, visited, rfl⟩, below.part owner part.1 part.2.1⟩

section Declarations

variable {c : Catalog} {expand : Kind -> Shape}

theorem placed_layFields {kind : Kind} {owner : String}
    (each : forall field, field ∈ c.fieldsOf kind -> forall v, v ∈ (expand field.kind).visits ->
      v.kind.isScalar = true -> c.Placed field.kind (expand field.kind).visits v)
    {v : Visit} (visited : v ∈ visitsOfParts (some owner) (layFields expand 0 (c.fieldsOf kind)))
    (scalar : v.kind.isScalar = true) :
    c.IsField kind owner v ∨
      ∃ u, u ∈ visitsOfParts (some owner) (layFields expand 0 (c.fieldsOf kind)) ∧ c.Below u v := by
  rcases mem_visitsOfParts.mp visited with ⟨part, listed, inner, reached, rfl⟩
  rcases mem_layFields listed with ⟨field, member, offset, rfl⟩
  rcases each field member inner reached scalar with ⟨top, unheld, whole⟩ | ⟨u, visitedAbove, below⟩
  · left
    have holder : (inner.part (some owner) field.name offset).holder = some (owner, field.name) := by
      show inner.holder.or _ = _
      rw [unheld]
      rfl
    exact ⟨field, member, whole, holder, congrArg (List.cons field.name) top⟩
  · exact .inr (below_in_part listed (some owner) visitedAbove below)

/-- In a class the entry above a field is the header of the class that declares it. -/
theorem placed_layClasses {chain : List String}
    (each : forall name, name ∈ chain -> forall field, field ∈ c.fieldsOf (.entity name) ->
      forall v, v ∈ (expand field.kind).visits -> v.kind.isScalar = true ->
      c.Placed field.kind (expand field.kind).visits v)
    {owner : Option String} {v : Visit} (visited : v ∈ visitsOfParts owner (c.layClasses expand 0 chain))
    (scalar : v.kind.isScalar = true) :
    ∃ u, u ∈ visitsOfParts owner (c.layClasses expand 0 chain) ∧ c.Below u v := by
  rcases mem_visitsOfParts.mp visited with ⟨part, listed, inner, reached, rfl⟩
  rcases mem_layClasses listed with ⟨name, above, offset, rfl⟩
  rcases List.mem_cons.mp reached with rfl | own
  · cases scalar
  rcases placed_layFields (each name above) own scalar with isField | ⟨u, visitedAbove, below⟩
  · exact below_in_part listed owner List.mem_cons_self (isField.below rfl rfl rfl)
  · exact below_in_part listed owner (List.mem_cons_of_mem _ visitedAbove) below

theorem placed_partsOf {kind : Kind} {owner : String}
    (each : forall field, field ∈ c.partFields kind -> forall v, v ∈ (expand field.kind).visits ->
      v.kind.isScalar = true -> c.Placed field.kind (expand field.kind).visits v)
    {v : Visit} (visited : v ∈ visitsOfParts (some owner) (c.partsOf expand kind))
    (scalar : v.kind.isScalar = true) :
    c.IsField kind owner v ∨ ∃ u, u ∈ visitsOfParts (some owner) (c.partsOf expand kind) ∧ c.Below u v := by
  cases kind with
  | entity name =>
      refine .inr (placed_layClasses (fun ancestor above field member => ?_) visited scalar)
      exact each field (mem_partFields_of_ancestor above member)
  | _ =>
      rw [partFields_eq_fieldsOf rfl] at each
      exact placed_layFields each visited scalar

end Declarations

theorem declaration?_isSome_of_structured {kind : Kind} (structured : kind.structName?.isSome) :
    ∃ owner, kind.declaration? = some owner := by
  cases kind with
  | inlineStruct name => exact ⟨name, rfl⟩
  | composite name => exact ⟨name, rfl⟩
  | entity name => exact ⟨name, rfl⟩
  | _ => cases structured

theorem declaration?_isSome_of_target? {kind target : Kind} (leads : kind.target? = some target) :
    ∃ owner, target.declaration? = some owner := by
  rcases Kind.target?_cases leads with ⟨name, -, rfl⟩ | ⟨-, structured⟩
  · exact ⟨name, rfl⟩
  · exact declaration?_isSome_of_structured structured

/-- Every scalar of a grown shape is the value itself or stands below another visit. -/
theorem Grown.placed {c : Catalog} {reach : Nat} {kind : Kind} {shape : Shape}
    (grown : c.Grown reach kind shape) {v : Visit} (visited : v ∈ shape.visits)
    (scalar : v.kind.isScalar = true) : c.Placed kind shape.visits v := by
  induction grown generalizing v with
  | gap reach bytes => cases visited
  | atom reach undivided =>
      rw [List.mem_singleton.mp visited]
      exact .inl ⟨rfl, rfl, rfl⟩
  | @array reach element shape count divided grown inductionHypothesis =>
      rw [visits_array] at visited ⊢
      rcases List.mem_cons.mp visited with rfl | below
      · cases scalar
      rcases mem_visitsOfParts.mp below with ⟨part, listed, inner, reached, rfl⟩
      have isElement : part.2.2 = shape := by
        rcases List.mem_map.mp listed with ⟨i, -, rfl⟩
        rfl
      have innerScalar : inner.kind.isScalar = true := scalar
      rw [isElement] at reached
      rcases inductionHypothesis reached innerScalar with ⟨-, -, same⟩ | ⟨u, visitedAbove, below⟩
      · rw [same, divided] at innerScalar
        cases innerScalar
      · rw [← isElement] at visitedAbove
        rcases below_in_part listed none visitedAbove below with ⟨w, member, belowPart⟩
        exact .inr ⟨w, List.mem_cons_of_mem _ member, belowPart⟩
  | @record reach kind expand structured held inductionHypothesis =>
      rcases declaration?_isSome_of_structured structured with ⟨owner, declares⟩
      rw [visits, declares] at visited ⊢
      rcases List.mem_cons.mp visited with rfl | below
      · exact .inl ⟨rfl, rfl, rfl⟩
      rcases placed_partsOf (fun field member v => inductionHypothesis field member) below scalar with
        isField | ⟨u, member, belowPart⟩
      · exact .inr ⟨.self kind _, List.mem_cons_self, isField.below rfl declares declares⟩
      · exact .inr ⟨u, List.mem_cons_of_mem _ member, belowPart⟩
  | endless reach structured infinite =>
      rw [List.mem_singleton.mp visited]
      exact .inl ⟨rfl, rfl, rfl⟩
  | unfollowed pointer =>
      rw [List.mem_singleton.mp visited]
      exact .inl ⟨rfl, rfl, rfl⟩
  | @followed reach kind target expand leads held inductionHypothesis =>
      rcases declaration?_isSome_of_target? leads with ⟨owner, declared⟩
      have declares := (Kind.declaration?_of_target? leads).trans declared
      rw [visits, declares] at visited ⊢
      rcases List.mem_cons.mp visited with rfl | below
      · exact .inl ⟨rfl, rfl, rfl⟩
      rcases List.mem_map.mp below with ⟨inner, reached, rfl⟩
      rcases placed_partsOf (fun field member v => inductionHypothesis field member) reached scalar with
        isField | ⟨u, member, belowPart⟩
      · have isFieldBehind : c.IsField target owner inner.behind := isField
        exact .inr ⟨.self kind _, List.mem_cons_self, isFieldBehind.below rfl declares declared⟩
      · exact .inr ⟨u.behind, List.mem_cons_of_mem _ (List.mem_map_of_mem member), belowPart.behind⟩
  | @starred reach target shape plain grown inductionHypothesis =>
      have unnamed : (Kind.pointerTo target).declaration? = none := plain
      rw [visits, unnamed] at visited ⊢
      rcases List.mem_cons.mp visited with rfl | below
      · exact .inl ⟨rfl, rfl, rfl⟩
      rcases List.mem_map.mp below with ⟨inner, reached, rfl⟩
      rcases mem_visitsOfParts.mp reached with ⟨part, listed, inner, inside, rfl⟩
      have isStar := List.mem_singleton.mp listed
      subst isStar
      rcases inductionHypothesis inside scalar with ⟨top, unheld, same⟩ | ⟨u, visitedAbove, below⟩
      · refine .inr ⟨.self (.pointerTo target) pointerSize, List.mem_cons_self, .target ?_ ?_ ?_⟩
        · exact congrArg Kind.pointerTo same.symm
        · show inner.holder.or none = none
          rw [unheld]
          rfl
        · exact congrArg (List.cons "*") top
      · rcases below_in_part listed none visitedAbove below with ⟨w, member, belowPart⟩
        exact .inr ⟨w.behind, List.mem_cons_of_mem _ (List.mem_map_of_mem member), belowPart.behind⟩

/-! ## Which field a value belongs to -/

/-- A kind that an array or a pointer consists of, at any depth. -/
inductive Within (kind : Kind) : Kind -> Prop where
  | whole : Within kind kind
  | element {inner : Kind} (count : Nat) (within : Within kind inner) : Within kind (.fixedArray inner count)
  | target {inner : Kind} (within : Within kind inner) : Within kind (.pointerTo inner)

theorem Within.isScalar_eq_false {target kind : Kind} (within : Within (.pointerTo target) kind) :
    kind.isScalar = false := by
  cases within <;> rfl

/-- The visit belongs to a field that a declaration has. -/
def Held (c : Catalog) (v : Visit) : Prop :=
  ∃ kind owner field, kind.declaration? = some owner ∧ field ∈ c.fieldsOf kind ∧
    v.holder = some (owner, field.name) ∧ Within v.kind field.kind

theorem Held.part {c : Catalog} {v : Visit} (isHeld : c.Held v) (owner : Option String) (name : String)
    (offset : Nat) : c.Held (v.part owner name offset) := by
  rcases isHeld with ⟨kind, holder, field, declared, member, holds, within⟩
  refine ⟨kind, holder, field, declared, member, ?_, within⟩
  show v.holder.or _ = _
  rw [holds]
  rfl

/-- What stands in a field by itself belongs to that field once it is reached
through it. -/
theorem held_of_field {c : Catalog} {kind : Kind} {owner : String} {field : Field} {v : Visit}
    (declared : kind.declaration? = some owner) (member : field ∈ c.fieldsOf kind)
    (inside : v.kind.isEntity = true ∨ (v.holder = none ∧ Within v.kind field.kind) ∨ c.Held v)
    (offset : Nat) :
    v.kind.isEntity = true ∨ c.Held (v.part (some owner) field.name offset) := by
  rcases inside with header | ⟨unheld, within⟩ | isHeld
  · exact .inl header
  · refine .inr ⟨kind, owner, field, declared, member, ?_, within⟩
    show v.holder.or _ = _
    rw [unheld]
    rfl
  · exact .inr (isHeld.part (some owner) field.name offset)

theorem VisitsPart.held {c : Catalog} {expand : Kind -> Shape} {kind : Kind} {owner : String} {v : Visit}
    (declared : kind.declaration? = some owner)
    (each : forall field, field ∈ c.partFields kind -> forall v, v ∈ (expand field.kind).visits ->
      v.kind.isEntity = true ∨ (v.holder = none ∧ Within v.kind field.kind) ∨ c.Held v)
    (visited : c.VisitsPart expand kind (some owner) v) : v.kind.isEntity = true ∨ c.Held v := by
  cases visited with
  | @field field inner offset plain member visited =>
      have listed := mem_partFields_of_plain plain member
      exact held_of_field declared member (each field listed inner visited) offset
  | header offset size isClass above => exact .inl rfl
  | @inherited name ancestor field inner offset offset' isClass above member visited =>
      subst isClass
      have listed := mem_partFields_of_ancestor above member
      have ancestorDeclared : (Kind.entity ancestor).declaration? = some ancestor := rfl
      rcases held_of_field ancestorDeclared member (each field listed inner visited) offset' with
        header | isHeld
      · exact .inl header
      · exact .inr (isHeld.part (some owner) ancestor offset)

/-- A visit of a grown shape is a header, belongs to whatever the shape belongs
to, or belongs to a field. -/
theorem Grown.held {c : Catalog} {reach : Nat} {kind : Kind} {shape : Shape}
    (grown : c.Grown reach kind shape) {v : Visit} (visited : v ∈ shape.visits) :
    v.kind.isEntity = true ∨ (v.holder = none ∧ Within v.kind kind) ∨ c.Held v := by
  induction grown generalizing v with
  | gap reach bytes => cases visited
  | atom reach undivided =>
      rw [List.mem_singleton.mp visited]
      exact .inr (.inl ⟨rfl, .whole⟩)
  | array count divided grown inductionHypothesis =>
      rcases List.mem_cons.mp visited with rfl | below
      · exact .inr (.inl ⟨rfl, .whole⟩)
      rcases List.mem_flatMap.mp below with ⟨i, -, mapped⟩
      rcases List.mem_map.mp mapped with ⟨inner, reached, rfl⟩
      rcases inductionHypothesis reached with header | ⟨unheld, within⟩ | isHeld
      · exact .inl header
      · refine .inr (.inl ⟨?_, .element count within⟩)
        show inner.holder.or none = none
        rw [unheld]
        rfl
      · exact .inr (.inr (isHeld.part none _ _))
  | @record reach kind expand structured held inductionHypothesis =>
      rcases declaration?_isSome_of_structured structured with ⟨owner, declared⟩
      rw [visits, declared] at visited
      rcases List.mem_cons.mp visited with rfl | below
      · exact .inr (.inl ⟨rfl, .whole⟩)
      rcases (visitsPart_of_mem below).held declared
        (fun field member v => inductionHypothesis field member) with header | isHeld
      · exact .inl header
      · exact .inr (.inr isHeld)
  | endless reach structured infinite =>
      rw [List.mem_singleton.mp visited]
      exact .inr (.inl ⟨rfl, .whole⟩)
  | unfollowed pointer =>
      rw [List.mem_singleton.mp visited]
      exact .inr (.inl ⟨rfl, .whole⟩)
  | @followed reach kind target expand leads held inductionHypothesis =>
      rcases declaration?_isSome_of_target? leads with ⟨owner, declared⟩
      rw [visits, (Kind.declaration?_of_target? leads).trans declared] at visited
      rcases List.mem_cons.mp visited with rfl | below
      · exact .inr (.inl ⟨rfl, .whole⟩)
      rcases List.mem_map.mp below with ⟨inner, reached, rfl⟩
      rcases (visitsPart_of_mem reached).held declared
        (fun field member v => inductionHypothesis field member) with header | isHeld
      · exact .inl header
      · exact .inr (.inr isHeld)
  | @starred reach target shape plain grown inductionHypothesis =>
      have unnamed : (Kind.pointerTo target).declaration? = none := plain
      rw [visits, unnamed] at visited
      rcases List.mem_cons.mp visited with rfl | below
      · exact .inr (.inl ⟨rfl, .whole⟩)
      rcases List.mem_map.mp below with ⟨inner, reached, rfl⟩
      rcases mem_visitsOfParts.mp reached with ⟨part, listed, inner, inside, rfl⟩
      rw [List.mem_singleton.mp listed] at inside ⊢
      rcases inductionHypothesis inside with header | ⟨unheld, within⟩ | isHeld
      · exact .inl header
      · refine .inr (.inl ⟨?_, .target within⟩)
        show inner.holder.or none = none
        rw [unheld]
        rfl
      · exact .inr (.inr (isHeld.part none "*" 0))

/-! ## Named types -/

theorem resolve_of_mem_fieldsNamed {c : Catalog} {name : String} {field : Field}
    (member : field ∈ c.fieldsNamed name) :
    ∃ kind, c.fieldsNamed name = c.fieldsOf kind ∧ kind.declaration? = some name := by
  rw [fieldsNamed] at member ⊢
  cases resolved : c.resolve name with
  | none => simp [resolved] at member
  | some kind =>
      rw [resolved] at member
      refine ⟨kind, rfl, ?_⟩
      rcases TypeNames.resolve_cases resolved with ⟨plain, noPointer, -⟩ | ⟨-, declared⟩
      · cases kind with
        | ownedPointer owner => exact absurd rfl (noPointer owner)
        | inlineStruct owner => cases plain
        | composite owner => cases plain
        | entity owner => cases plain
        | _ => cases member
      · rcases declared with ⟨rfl, -⟩ | ⟨rfl, -⟩ | ⟨rfl, -⟩ | ⟨rfl, -⟩ <;> rfl

section Types

variable {c : Catalog} (consistent : c.Consistent) {reach : Nat} {name : String} {v : Visit}
include consistent

theorem held_of_mem_typeVisits (visited : v ∈ c.typeVisits reach name) (plain : v.kind.isEntity = false) :
    c.Held v := by
  have each : forall field : Field, forall v, v ∈ (c.shape reach field.kind).visits ->
      v.kind.isEntity = true ∨ (v.holder = none ∧ Within v.kind field.kind) ∨ c.Held v :=
    fun field v reached => (consistent.grown reach field.kind).held reached
  have belongs : v.kind.isEntity = true ∨ c.Held v := by
    rcases typeVisits_cases visited with ⟨-, part⟩ | ⟨-, field, member, inner, reached, offset, rfl⟩
    · have isClass : (Kind.entity name).declaration? = some name := rfl
      exact part.held isClass (fun field _ => each field)
    · rcases resolve_of_mem_fieldsNamed member with ⟨kind, same, declared⟩
      rw [same] at member
      exact held_of_field declared member (each field inner reached) offset
  rcases belongs with header | isHeld
  · rw [header] at plain
    cases plain
  · exact isHeld

/-- Every scalar that a walk of a type comes to is the whole value of a field at
the top, or stands below another visit. -/
theorem placed_of_mem_typeVisits (visited : v ∈ c.typeVisits reach name) (scalar : v.kind.isScalar = true) :
    (c.isClass name = false ∧ ∃ kind, kind.declaration? = some name ∧ c.IsField kind name v) ∨
      ∃ u, u ∈ c.typeVisits reach name ∧ c.Below u v := by
  have each : forall field : Field, forall v, v ∈ (c.shape reach field.kind).visits ->
      v.kind.isScalar = true -> c.Placed field.kind (c.shape reach field.kind).visits v :=
    fun field v reached => (consistent.grown reach field.kind).placed reached
  cases isClass : c.isClass name with
  | true =>
      rw [typeVisits, topParts, if_pos isClass] at visited ⊢
      exact .inr (placed_layClasses (fun _ _ field _ => each field) visited scalar)
  | false =>
      rcases typeVisits_cases visited with ⟨isClass', -⟩ | ⟨-, field, member, -⟩
      · rw [isClass] at isClass'
        cases isClass'
      rcases resolve_of_mem_fieldsNamed member with ⟨kind, same, declared⟩
      have stranger : ¬ c.isClass name = true := Bool.eq_false_iff.mp isClass
      rw [typeVisits, topParts, if_neg stranger, same] at visited ⊢
      rcases placed_layFields (fun field _ => each field) visited scalar with isField | above
      · exact .inl ⟨rfl, kind, declared, isField⟩
      · exact .inr above

end Types

end Catalog
end MemoryAtlas
