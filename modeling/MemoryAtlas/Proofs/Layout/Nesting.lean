import Mathlib.Logic.Relation
import MemoryAtlas.Layout.Shape
import MemoryAtlas.Proofs.Schema.Acyclic
import MemoryAtlas.Proofs.Schema.Loaded

namespace MemoryAtlas

open Schema

/-!
# Nesting by value

A kind holds the kinds that its own size depends on: the fields of a
structure, the fields of a class and of everything the class inherits from,
the element of an array.  Filling in declarations ends exactly where this
relation is well founded.

The loader searches a smaller relation.  It goes down the fields that each
declaration writes itself, so it never sees that a class also has the fields of
its ancestors.  Inheritance is all that the search misses: nesting is well
founded precisely if no class is held, at whatever depth, by a field that it
inherits.  Where that is so, no way down is longer than the number of
declarations, and the bound on nesting cuts nothing off.
-/

/-- From what is accessible no way down comes back to it. -/
theorem not_transGen_self_of_acc {α : Type} {r : α -> α -> Prop} {a : α} (accessible : Acc r a) :
    ¬ Relation.TransGen r a a := by
  have reached := accessible.transGen
  clear accessible
  induction reached with
  | intro a _ inductionHypothesis => exact fun returns => inductionHypothesis a returns returns

/-- Only a name under which fields are filed embeds anything, so a search from all
of those names covers everything. -/
theorem Schema.listed_of_embeds {tables : List (Table (List Field))} {inner outer : String}
    (embeds : Embeds (fieldsIn tables) inner outer) :
    outer ∈ (tables.flatMap Table.names).mergeSort (fun a b => a <= b) := by
  rw [List.mem_mergeSort, List.mem_flatMap]
  cases found : tables.findSome? (fun table => table.find? outer) with
  | none =>
      rw [Embeds, fieldsIn, found] at embeds
      exact absurd embeds List.not_mem_nil
  | some fields =>
      rcases List.exists_of_findSome?_eq_some found with ⟨table, listed, looked⟩
      exact ⟨table, listed, Table.find?_isSome_iff.mp (Option.isSome_of_eq_some looked)⟩

namespace Kind

/-- What is left of a kind without its arrays. -/
def core : Kind -> Kind
  | .fixedArray element _ => element.core
  | kind => kind

theorem embeddedName?_eq (kind : Kind) : kind.embeddedName? = kind.core.structName? := by
  induction kind with
  | fixedArray element count inductionHypothesis => exact inductionHypothesis
  | _ => rfl

theorem Declared.core {names : TypeNames} {kind : Kind} (declared : kind.Declared names) :
    kind.core.Declared names := by
  induction kind with
  | fixedArray element count inductionHypothesis => exact inductionHypothesis declared
  | _ => exact declared

theorem core_ne_fixedArray (kind element : Kind) (count : Nat) :
    kind.core ≠ .fixedArray element count := by
  induction kind with
  | fixedArray inner other inductionHypothesis => exact inductionHypothesis
  | _ => intro impossible; cases impossible

end Kind

namespace Catalog

/-- The kinds whose size the size of a kind depends on. -/
def heldKinds (c : Catalog) : Kind -> List Kind
  | .inlineStruct name => (c.fieldsOf (.inlineStruct name)).map Field.kind
  | .composite name => (c.fieldsOf (.composite name)).map Field.kind
  | .entity name =>
    (c.ancestors name).flatMap (fun ancestor => (c.fieldsOf (.entity ancestor)).map Field.kind)
  | .fixedArray element _ => [element]
  | _ => []

/-- `outer` holds `inner` by value. -/
def Holds (c : Catalog) (inner outer : Kind) : Prop :=
  inner ∈ c.heldKinds outer

/-- `outer` holds `inner` as an element or as a field of its own declaration. -/
inductive OwnHolds (c : Catalog) : Kind -> Kind -> Prop where
  | element (kind : Kind) (count : Nat) : OwnHolds c kind (.fixedArray kind count)
  | field {outer : Kind} {field : Field} (record : outer.structName?.isSome)
      (member : field ∈ c.fieldsOf outer) : OwnHolds c field.kind outer

/-- A field that the class has only through an ancestor. -/
def Inherited (c : Catalog) (name : String) (field : Field) : Prop :=
  ∃ ancestor, ancestor ∈ c.ancestors name ∧ ancestor ≠ name ∧ field ∈ c.fieldsOf (.entity ancestor)

/-- The class is held, at whatever depth, by a field that it inherits. -/
def InheritsItself (c : Catalog) (name : String) : Prop :=
  ∃ field, c.Inherited name field ∧ Relation.ReflTransGen c.Holds (.entity name) field.kind

theorem holds_core (c : Catalog) (kind : Kind) : Relation.ReflTransGen c.Holds kind.core kind := by
  induction kind with
  | fixedArray element count inductionHypothesis =>
      exact inductionHypothesis.tail (List.mem_singleton.mpr rfl)
  | _ => exact .refl

theorem heldKinds_core_eq_nil {c : Catalog} {kind : Kind} (plain : kind.core.structName? = none) :
    c.heldKinds kind.core = [] := by
  cases same : kind.core with
  | fixedArray element count => exact absurd same (kind.core_ne_fixedArray element count)
  | inlineStruct name => rw [same] at plain; cases plain
  | composite name => rw [same] at plain; cases plain
  | entity name => rw [same] at plain; cases plain
  | _ => rfl

theorem acc_fixedArray {c : Catalog} {element : Kind} (accessible : Acc c.Holds element) (count : Nat) :
    Acc c.Holds (.fixedArray element count) := by
  refine Acc.intro _ fun inner held => ?_
  rw [List.mem_singleton.mp held]
  exact accessible

/-- A kind is accessible as soon as its core is. -/
theorem acc_of_acc_core {c : Catalog} {kind : Kind} (accessible : Acc c.Holds kind.core) :
    Acc c.Holds kind := by
  induction kind with
  | fixedArray element count inductionHypothesis =>
      exact acc_fixedArray (inductionHypothesis accessible) count
  | _ => exact accessible

/-- A kind that has no declaration inside is accessible. -/
theorem acc_of_plain {c : Catalog} {kind : Kind} (plain : kind.core.structName? = none) :
    Acc c.Holds kind := by
  refine acc_of_acc_core (Acc.intro _ fun inner held => ?_)
  rw [Holds, heldKinds_core_eq_nil plain] at held
  exact absurd held List.not_mem_nil

/-- Holding goes through a declaration of its own or through inheritance. -/
theorem holds_cases {c : Catalog} {inner outer : Kind} (held : c.Holds inner outer) :
    c.OwnHolds inner outer ∨
      ∃ name field, outer = .entity name ∧ c.Inherited name field ∧ inner = field.kind := by
  cases outer with
  | inlineStruct name =>
      rcases List.mem_map.mp held with ⟨field, member, rfl⟩
      exact .inl (.field rfl member)
  | composite name =>
      rcases List.mem_map.mp held with ⟨field, member, rfl⟩
      exact .inl (.field rfl member)
  | entity name =>
      rcases List.mem_flatMap.mp held with ⟨ancestor, above, mapped⟩
      rcases List.mem_map.mp mapped with ⟨field, member, rfl⟩
      by_cases own : ancestor = name
      · subst own
        exact .inl (.field rfl member)
      · exact .inr ⟨name, field, rfl, ⟨ancestor, above, own, member⟩, rfl⟩
  | fixedArray element count =>
      rw [List.mem_singleton.mp held]
      exact .inl (.element element count)
  | _ => exact absurd held List.not_mem_nil

theorem holds_of_inherited {c : Catalog} {name : String} {field : Field}
    (inherited : c.Inherited name field) : c.Holds field.kind (.entity name) := by
  rcases inherited with ⟨ancestor, above, -, member⟩
  exact List.mem_flatMap.mpr ⟨ancestor, above, List.mem_map.mpr ⟨field, member, rfl⟩⟩

/-! ## What the loader's search rules out -/

namespace Consistent

variable {c : Catalog}

/-- A declared kind finds its fields under its name alone. -/
theorem fieldsIn_eq (consistent : c.Consistent) {kind : Kind} {name : String}
    (declared : kind.Declared c.names) (named : kind.structName? = some name) :
    fieldsIn c.tables name = c.fieldsOf kind := by
  cases kind with
  | composite other =>
      cases named
      rcases TypeNames.listed_of_composite declared with ⟨notPointer, notInline, struct⟩
      have listed : name ∈ c.composites.names :=
        (consistent.composite_iff name).mpr ⟨struct, notPointer, notInline⟩
      rcases Option.isSome_iff_exists.mp (Table.find?_isSome_iff.mpr listed) with ⟨fields, found⟩
      simp [fieldsIn, tables, fieldsOf, found]
  | inlineStruct other =>
      cases named
      rcases TypeNames.listed_of_inlineStruct declared with ⟨notPointer, inline⟩
      have noComposite := Table.find?_eq_none_iff.mpr (fun listed : name ∈ c.composites.names =>
        ((consistent.composite_iff name).mp listed).2.2 inline)
      have noPointer := Table.find?_eq_none_iff.mpr (fun listed : name ∈ c.pointers.names =>
        notPointer ((consistent.pointer_iff name).mp listed).2)
      have listed : name ∈ c.inlines.names :=
        (consistent.inline_iff name).mpr ⟨consistent.inlines_listed name inline, notPointer, inline⟩
      rcases Option.isSome_iff_exists.mp (Table.find?_isSome_iff.mpr listed) with ⟨fields, found⟩
      simp [fieldsIn, tables, fieldsOf, noComposite, noPointer, found]
  | entity other =>
      cases named
      rcases TypeNames.listed_of_entity declared with ⟨-, -, notStruct, -⟩
      have noComposite := Table.find?_eq_none_iff.mpr (fun listed : name ∈ c.composites.names =>
        notStruct ((consistent.composite_iff name).mp listed).1)
      have noPointer := Table.find?_eq_none_iff.mpr (fun listed : name ∈ c.pointers.names =>
        notStruct ((consistent.pointer_iff name).mp listed).1)
      have noInline := Table.find?_eq_none_iff.mpr (fun listed : name ∈ c.inlines.names =>
        notStruct ((consistent.inline_iff name).mp listed).1)
      cases found : c.entities.find? name <;>
        simp [fieldsIn, tables, fieldsOf, noComposite, noPointer, noInline, found]
  | _ => cases named

theorem embeds_wellFounded (consistent : c.Consistent) :
    WellFounded (Embeds (fieldsIn c.tables)) :=
  checkEmbedding_wellFounded (fun _ _ => listed_of_embeds) consistent.searched

/-- Arrays add nothing to a way down: only their core can be a declaration. -/
theorem acc_ownHolds_of_core {kind : Kind}
    (accessible : kind.core.structName?.isSome -> Acc c.OwnHolds kind.core) :
    Acc c.OwnHolds kind := by
  induction kind with
  | fixedArray element count inductionHypothesis =>
      refine Acc.intro _ fun inner held => ?_
      cases held with
      | element => exact inductionHypothesis accessible
      | field record member => cases record
  | inlineStruct name => exact accessible rfl
  | composite name => exact accessible rfl
  | entity name => exact accessible rfl
  | _ =>
      refine Acc.intro _ fun inner held => ?_
      cases held with
      | field record member => cases record

/-- The search has been below every declaration, and below what its fields
embed before that. -/
theorem acc_ownHolds_of_named (consistent : c.Consistent) {name : String} {kind : Kind}
    (declared : kind.Declared c.names) (called : kind.structName? = some name) :
    Acc c.OwnHolds kind := by
  induction name using consistent.embeds_wellFounded.induction generalizing kind with
  | _ name inductionHypothesis =>
    refine Acc.intro _ fun inner held => ?_
    cases held with
    | element => cases called
    | @field _ field record member =>
        refine acc_ownHolds_of_core fun structured => ?_
        rcases Option.isSome_iff_exists.mp structured with ⟨embedded, coreCalled⟩
        apply inductionHypothesis embedded _ _ coreCalled
        · rw [Embeds, embeddedNames, consistent.fieldsIn_eq declared called]
          exact List.mem_filterMap.mpr ⟨field, member, (field.kind.embeddedName?_eq).trans coreCalled⟩
        · exact (consistent.fieldsOf_declared kind field member).core

theorem acc_ownHolds_of_declared (consistent : c.Consistent) {kind : Kind}
    (declared : kind.Declared c.names) : Acc c.OwnHolds kind := by
  refine acc_ownHolds_of_core fun structured => ?_
  rcases Option.isSome_iff_exists.mp structured with ⟨name, called⟩
  exact consistent.acc_ownHolds_of_named declared.core called

/-- Going down declarations by their own fields ends. -/
theorem ownHolds_wellFounded (consistent : c.Consistent) : WellFounded c.OwnHolds := by
  refine ⟨fun kind => ?_⟩
  -- An undeclared kind is at worst one step above declared ones.
  induction kind with
  | fixedArray element count inductionHypothesis =>
      refine Acc.intro _ fun inner held => ?_
      cases held with
      | element => exact inductionHypothesis
      | field record member => cases record
  | _ =>
      refine Acc.intro _ fun inner held => ?_
      cases held with
      | field record member =>
          exact consistent.acc_ownHolds_of_declared (consistent.fieldsOf_declared _ _ member)

/-- A way down keeps to own declarations, or somewhere on it a class is gone
down by a field that it inherits. -/
theorem transGen_holds_cases {inner outer : Kind} (path : Relation.TransGen c.Holds inner outer) :
    Relation.TransGen c.OwnHolds inner outer ∨
      ∃ name field, Relation.ReflTransGen c.Holds inner field.kind ∧ c.Inherited name field ∧
        Relation.ReflTransGen c.Holds (.entity name) outer := by
  induction path with
  | single held =>
      rcases holds_cases held with own | ⟨name, field, rfl, inherited, rfl⟩
      · exact .inl (.single own)
      · exact .inr ⟨name, field, .refl, inherited, .refl⟩
  | tail path held inductionHypothesis =>
      rcases inductionHypothesis with own | ⟨name, field, before, inherited, after⟩
      · rcases holds_cases held with own' | ⟨name, field, rfl, inherited, rfl⟩
        · exact .inl (own.tail own')
        · exact .inr ⟨name, field, path.to_reflTransGen, inherited, .refl⟩
      · exact .inr ⟨name, field, before, inherited, after.tail held⟩

/-- A kind that holds itself, at whatever depth, does so through a class that
inherits itself: everything else the search has ruled out. -/
theorem inheritsItself_of_cycle (consistent : c.Consistent) {kind : Kind}
    (cycle : Relation.TransGen c.Holds kind kind) : ∃ name, c.InheritsItself name := by
  rcases transGen_holds_cases cycle with own | ⟨name, field, before, inherited, after⟩
  · exact absurd own (consistent.ownHolds_wellFounded.transGen.irrefl.irrefl kind)
  · exact ⟨name, field, inherited, after.trans before⟩

end Consistent

/-! ## The bound on nesting -/

/-- At most `depth` declarations are nested in each other by value. -/
def NestsWithin (c : Catalog) : Nat -> Kind -> Prop
  | 0, kind => kind.core.structName? = none
  | depth + 1, kind => forall inner, inner ∈ c.heldKinds kind.core -> c.NestsWithin depth inner

/-- The kinds that are filed with fields of their own. -/
def recordKinds (c : Catalog) : List Kind :=
  c.composites.names.map .composite ++ c.inlines.names.map .inlineStruct
    ++ c.entities.names.map .entity

theorem length_recordKinds (c : Catalog) : c.recordKinds.length = c.nesting := by
  simp [recordKinds, nesting, Table.names, Nat.add_assoc]

theorem NestsWithin.accessible {c : Catalog} {depth : Nat} {kind : Kind}
    (nests : c.NestsWithin depth kind) : Acc c.Holds kind := by
  induction depth generalizing kind with
  | zero => exact acc_of_plain nests
  | succ depth inductionHypothesis =>
      exact acc_of_acc_core (Acc.intro _ fun inner held => inductionHypothesis (nests inner held))

/-- A declared kind with parts is filed. -/
theorem Consistent.mem_recordKinds {c : Catalog} (consistent : c.Consistent) {kind : Kind}
    (declared : kind.Declared c.names) (structured : kind.structName?.isSome) :
    kind ∈ c.recordKinds := by
  unfold recordKinds
  cases kind with
  | composite name =>
      rcases TypeNames.listed_of_composite declared with ⟨notPointer, notInline, struct⟩
      have listed := (consistent.composite_iff name).mpr ⟨struct, notPointer, notInline⟩
      simp [listed]
  | inlineStruct name =>
      rcases TypeNames.listed_of_inlineStruct declared with ⟨notPointer, inline⟩
      have listed := (consistent.inline_iff name).mpr
        ⟨consistent.inlines_listed name inline, notPointer, inline⟩
      simp [listed]
  | entity name =>
      rcases TypeNames.listed_of_entity declared with ⟨-, -, -, entity⟩
      have listed : name ∈ c.entities.names := by
        rw [consistent.entities_names]
        exact entity
      simp [listed]
  | _ => cases structured

/-- What a structure or class holds is declared. -/
theorem Consistent.heldKinds_declared {c : Catalog} (consistent : c.Consistent) {kind inner : Kind}
    (structured : kind.structName?.isSome) (held : inner ∈ c.heldKinds kind) :
    inner.Declared c.names := by
  have field : forall owner, inner ∈ (c.fieldsOf owner).map Field.kind -> inner.Declared c.names := by
    intro owner mapped
    rcases List.mem_map.mp mapped with ⟨field, member, rfl⟩
    exact consistent.fieldsOf_declared owner field member
  cases kind with
  | inlineStruct name => exact field _ held
  | composite name => exact field _ held
  | entity name =>
      rcases List.mem_flatMap.mp held with ⟨ancestor, -, mapped⟩
      exact field _ mapped
  | _ => cases structured

/-- A way down without repetition is no longer than the list of declarations.
`passed` is the way down so far; everything on it holds the kind. -/
theorem nestsWithin_of_passed {c : Catalog} (consistent : c.Consistent) {depth : Nat} {kind : Kind}
    (acyclic : forall other, Relation.ReflTransGen c.Holds other kind ->
      ¬ Relation.TransGen c.Holds other other)
    {passed : List Kind} (nodup : passed.Nodup)
    (filed : forall other, other ∈ passed -> other ∈ c.recordKinds)
    (below : forall other, other ∈ passed -> Relation.TransGen c.Holds kind other)
    (known : kind.core.structName?.isSome -> kind.core ∈ c.recordKinds)
    (enough : c.nesting <= depth + passed.length) : c.NestsWithin depth kind := by
  induction depth generalizing kind passed with
  | zero =>
      apply Option.not_isSome_iff_eq_none.mp
      intro structured
      have fresh : kind.core ∉ passed := fun member =>
        acyclic kind.core (c.holds_core kind)
          (Relation.TransGen.trans_right (c.holds_core kind) (below _ member))
      have longer : (kind.core :: passed).length <= c.recordKinds.length := by
        refine ((List.nodup_cons.mpr ⟨fresh, nodup⟩).subperm ?_).length_le
        intro other member
        rcases List.mem_cons.mp member with rfl | old
        · exact known structured
        · exact filed other old
      rw [length_recordKinds, List.length_cons] at longer
      omega
  | succ depth inductionHypothesis =>
      intro inner held
      have structured : kind.core.structName?.isSome := by
        by_contra plain
        rw [heldKinds_core_eq_nil (Option.not_isSome_iff_eq_none.mp plain)] at held
        exact List.not_mem_nil held
      have coreBelow : forall other, other ∈ passed -> Relation.TransGen c.Holds kind.core other :=
        fun other member => Relation.TransGen.trans_right (c.holds_core kind) (below other member)
      have fresh : kind.core ∉ passed := fun member =>
        acyclic kind.core (c.holds_core kind) (coreBelow _ member)
      have innerBelow : Relation.ReflTransGen c.Holds inner kind := .head held (c.holds_core kind)
      refine inductionHypothesis (fun other further => acyclic other (further.trans innerBelow))
        (List.nodup_cons.mpr ⟨fresh, nodup⟩) ?_ ?_ ?_ ?_
      · intro other member
        rcases List.mem_cons.mp member with rfl | old
        · exact known structured
        · exact filed other old
      · intro other member
        rcases List.mem_cons.mp member with rfl | old
        · exact .single held
        · exact .head held (coreBelow other old)
      · exact consistent.mem_recordKinds (consistent.heldKinds_declared structured held).core
      · rw [List.length_cons]
        omega

/-- What a kind holds although it is not filed is held by the root class too:
an unknown class has the fields of the root, and nothing else unknown has any. -/
theorem Consistent.holds_root_of_unfiled {c : Catalog} (consistent : c.Consistent)
    {kind inner : Kind} (unfiled : kind ∉ c.recordKinds) (structured : kind.structName?.isSome)
    (held : c.Holds inner kind) : c.Holds inner (.entity rootClass) := by
  cases kind with
  | inlineStruct name =>
      have absent : c.inlines.find? name = none :=
        Table.find?_eq_none_iff.mpr (by simpa [recordKinds] using unfiled)
      simp [Holds, heldKinds, fieldsOf, absent] at held
  | composite name =>
      have absent : c.composites.find? name = none :=
        Table.find?_eq_none_iff.mpr (by simpa [recordKinds] using unfiled)
      simp [Holds, heldKinds, fieldsOf, absent] at held
  | entity name =>
      have stranger : c.isClass name = false := by
        apply Bool.eq_false_iff.mpr
        intro isClass
        have listed := consistent.mem_entities_of_isClass isClass
        exact unfiled (by simp [recordKinds, listed])
      have root : c.isClass rootClass = true := by simp [isClass]
      have alone : c.ancestors rootClass = c.ancestors name := by
        rw [ancestors, ancestors, stranger, root]
        rfl
      rw [Holds, heldKinds, alone]
      exact held
  | _ => cases structured

/-- Without a cycle below it every kind nests within the bound, also one that no
field of the catalog could have. -/
theorem nestsWithin_nesting {c : Catalog} (consistent : c.Consistent) {kind : Kind}
    (acyclic : forall other, Relation.ReflTransGen c.Holds other kind ->
      ¬ Relation.TransGen c.Holds other other) : c.NestsWithin c.nesting kind := by
  by_cases known : kind.core.structName?.isSome -> kind.core ∈ c.recordKinds
  · exact nestsWithin_of_passed consistent acyclic List.nodup_nil
      (fun other member => absurd member List.not_mem_nil)
      (fun other member => absurd member List.not_mem_nil) known (by simp)
  obtain ⟨structured, unfiled⟩ : kind.core.structName?.isSome ∧ kind.core ∉ c.recordKinds := by
    simpa using known
  -- The root class is filed, so there is room for one kind that is not.
  have rooted : .entity rootClass ∈ c.recordKinds := by
    have root : c.isClass rootClass = true := by simp [isClass]
    have listed := consistent.mem_entities_of_isClass root
    simp [recordKinds, listed]
  obtain ⟨depth, deep⟩ : ∃ depth, c.nesting = depth + 1 := by
    have room := List.length_pos_of_mem rooted
    rw [length_recordKinds] at room
    exact ⟨c.nesting - 1, by omega⟩
  rw [deep]
  intro inner held
  have declared := consistent.heldKinds_declared structured held
  have nodup : [Kind.entity rootClass].Nodup := List.pairwise_singleton _ _
  have innerBelow : Relation.ReflTransGen c.Holds inner kind := .head held (c.holds_core kind)
  refine nestsWithin_of_passed consistent (fun other further => acyclic other (further.trans innerBelow))
    nodup ?_ ?_ (consistent.mem_recordKinds declared.core) ?_
  · intro other member
    rw [List.mem_singleton.mp member]
    exact rooted
  · intro other member
    rw [List.mem_singleton.mp member]
    exact .single (consistent.holds_root_of_unfiled unfiled structured held)
  · rw [List.length_singleton]
    omega

/-- Nesting is well founded precisely if no class inherits itself. -/
theorem holds_wellFounded_iff {c : Catalog} (consistent : c.Consistent) :
    WellFounded c.Holds <-> forall name, ¬ c.InheritsItself name := by
  constructor
  · rintro wellFounded name ⟨field, inherited, path⟩
    have cycle := Relation.TransGen.tail' path (holds_of_inherited inherited)
    exact wellFounded.transGen.irrefl.irrefl _ cycle
  · intro none
    refine ⟨fun kind => (nestsWithin_nesting consistent ?_).accessible⟩
    intro other _ cycle
    rcases consistent.inheritsItself_of_cycle cycle with ⟨name, inherits⟩
    exact none name inherits

end Catalog
end MemoryAtlas
