import MemoryAtlas.Proofs.Layout.Copies

namespace MemoryAtlas

open Schema

/-!
# Sizes worked out in words

Sizes are exact integers here.  The program works them out in words of sixty-four bits,
and a sum or a product that is no word stops it, or goes on as another number.  So what
is said of sizes holds of the program where every sum and every product on the way is a
word, and a computation that is finished in words checks each of them.

Only the size itself decides whether they all are.  What is added up on the way to a
size is at most this size, and what a kind holds is no larger than the kind, because
counts are positive.  A count of none is only made of a text, and its units are short.
-/

/-- A number, if it is a word. -/
def word? (n : Nat) : Option Nat :=
  if n < 2 ^ 64 then some n else none

theorem word?_eq_some_iff {n m : Nat} : word? n = some m <-> n = m ∧ m < 2 ^ 64 := by
  rw [word?, Option.ite_none_right_eq_some, Option.some.injEq]
  constructor
  · rintro ⟨fits, rfl⟩
    exact ⟨rfl, fits⟩
  · rintro ⟨rfl, fits⟩
    exact ⟨fits, rfl⟩

namespace Catalog

/-! ## Checked sums and products -/

/-- Where the last of the fields ends, each of them at a word. -/
def fieldsEnd? (sizes : Kind -> Nat) : Nat -> List Field -> Option Nat
  | _, [] => some 0
  | cursor, field :: rest => do
    let finish <- word? (field.declaredOffset.getD cursor + sizes field.kind)
    let others <- fieldsEnd? sizes finish rest
    return max finish others

/-- The sum of the sizes of the classes in a chain, each partial sum a word. -/
def chainEnd? (c : Catalog) (sizes : Kind -> Nat) : Nat -> List String -> Option Nat
  | total, [] => word? total
  | total, ancestor :: rest => do
    let size <- fieldsEnd? sizes 0 (c.fieldsOf (.entity ancestor))
    let total <- word? (total + size)
    c.chainEnd? sizes total rest

/-- The size of a kind from those of the kinds that it holds, in words. -/
def sizeStep? (c : Catalog) (sizes : Kind -> Nat) : Kind -> Option Nat
  | .inlineStruct name => fieldsEnd? sizes 0 (c.fieldsOf (.inlineStruct name))
  | .composite name => fieldsEnd? sizes 0 (c.fieldsOf (.composite name))
  | .entity name => c.chainEnd? sizes 0 (c.ancestors name)
  | .fixedArray element count => word? (sizes element * count)
  | kind => word? (c.sizeStep sizes kind)

theorem fieldsEnd?_eq_some_iff {sizes : Kind -> Nat} {cursor : Nat} {fields : List Field} {finish : Nat} :
    fieldsEnd? sizes cursor fields = some finish <->
      fieldsEnd sizes cursor fields = finish ∧ finish < 2 ^ 64 := by
  induction fields generalizing cursor finish with
  | nil =>
      constructor
      · rintro ⟨⟩
        exact ⟨rfl, Nat.two_pow_pos 64⟩
      · rintro ⟨rfl, -⟩
        rfl
  | cons field rest inductionHypothesis =>
      constructor
      · intro added
        rcases Option.bind_eq_some_iff.mp added with ⟨first, firstAdded, added⟩
        rcases Option.bind_eq_some_iff.mp added with ⟨others, othersAdded, made⟩
        rcases word?_eq_some_iff.mp firstAdded with ⟨rfl, firstFits⟩
        rcases inductionHypothesis.mp othersAdded with ⟨rfl, othersFit⟩
        cases made
        exact ⟨rfl, Nat.max_lt.mpr ⟨firstFits, othersFit⟩⟩
      · rintro ⟨rfl, fits⟩
        rcases Nat.max_lt.mp fits with ⟨firstFits, othersFit⟩
        refine Option.bind_eq_some_iff.mpr ⟨_, word?_eq_some_iff.mpr ⟨rfl, firstFits⟩, ?_⟩
        exact Option.bind_eq_some_iff.mpr ⟨_, inductionHypothesis.mpr ⟨rfl, othersFit⟩, rfl⟩

theorem chainEnd?_eq_some_iff {c : Catalog} {sizes : Kind -> Nat} {total : Nat} {chain : List String}
    {size : Nat} : c.chainEnd? sizes total chain = some size <->
      total + chain.foldr (fun ancestor total => fieldsEnd sizes 0 (c.fieldsOf (.entity ancestor)) + total) 0 =
        size ∧ size < 2 ^ 64 := by
  induction chain generalizing total with
  | nil =>
      rw [chainEnd?, word?_eq_some_iff, List.foldr_nil, Nat.add_zero]
  | cons ancestor rest inductionHypothesis =>
      rw [List.foldr_cons, ← Nat.add_assoc]
      constructor
      · intro added
        rcases Option.bind_eq_some_iff.mp added with ⟨own, ownAdded, added⟩
        rcases Option.bind_eq_some_iff.mp added with ⟨next, nextAdded, added⟩
        rcases fieldsEnd?_eq_some_iff.mp ownAdded with ⟨rfl, -⟩
        rcases word?_eq_some_iff.mp nextAdded with ⟨rfl, -⟩
        exact inductionHypothesis.mp added
      · rintro ⟨rfl, fits⟩
        refine Option.bind_eq_some_iff.mpr ⟨_, fieldsEnd?_eq_some_iff.mpr ⟨rfl, by omega⟩, ?_⟩
        refine Option.bind_eq_some_iff.mpr ⟨_, word?_eq_some_iff.mpr ⟨rfl, by omega⟩, ?_⟩
        exact inductionHypothesis.mpr ⟨rfl, fits⟩

/-- The checks are passed if the size is a word. -/
theorem sizeStep?_eq_some_iff {c : Catalog} {sizes : Kind -> Nat} {kind : Kind} {size : Nat} :
    c.sizeStep? sizes kind = some size <-> c.sizeStep sizes kind = size ∧ size < 2 ^ 64 := by
  cases kind with
  | inlineStruct name => exact fieldsEnd?_eq_some_iff
  | composite name => exact fieldsEnd?_eq_some_iff
  | entity name =>
      rw [sizeStep?, chainEnd?_eq_some_iff, Nat.zero_add]
      rfl
  | _ => exact word?_eq_some_iff

/-! ## Whole computations -/

/-- A finished computation of the size of a kind in words. -/
inductive WordRun (c : Catalog) : Kind -> Nat -> Prop where
  | intro {kind : Kind} {size : Nat} (sizes : Kind -> Nat)
      (sized : forall inner, inner ∈ c.heldKinds kind -> WordRun c inner (sizes inner))
      (added : c.sizeStep? sizes kind = some size) : WordRun c kind size

theorem SizeRun.eq_width {c : Catalog} {s : Scalar} {size : Nat} (run : c.SizeRun (.scalar s) size) :
    size = s.width := by
  cases run
  rfl

/-- Without the checks it is a computation of the same size. -/
theorem WordRun.sizeRun {c : Catalog} {kind : Kind} {size : Nat} (run : c.WordRun kind size) :
    c.SizeRun kind size ∧ size < 2 ^ 64 := by
  induction run with
  | intro sizes _ added inductionHypothesis =>
      rcases sizeStep?_eq_some_iff.mp added with ⟨rfl, fits⟩
      exact ⟨.intro sizes fun inner held => (inductionHypothesis inner held).1, fits⟩

/-! ## What is held -/

theorem le_fieldsEnd {sizes : Kind -> Nat} {fields : List Field} {field : Field} (member : field ∈ fields)
    (cursor : Nat) : sizes field.kind ≤ fieldsEnd sizes cursor fields := by
  induction fields generalizing cursor with
  | nil => cases member
  | cons first rest inductionHypothesis =>
      rw [fieldsEnd]
      rcases List.mem_cons.mp member with rfl | later
      · exact Nat.le_trans (Nat.le_add_left _ _) (Nat.le_max_left _ _)
      · exact Nat.le_trans (inductionHypothesis later _) (Nat.le_max_right _ _)

/-- The kinds under which the fields of a kind are filed: its own, or those of all
classes in its chain. -/
def layers (c : Catalog) : Kind -> List Kind
  | .entity name => (c.ancestors name).map .entity
  | kind => [kind]

section Layers

variable {c : Catalog} {kind : Kind} (structured : kind.structName?.isSome)
include structured

theorem mem_heldKinds_iff {inner : Kind} :
    c.Holds inner kind <-> ∃ layer, layer ∈ c.layers kind ∧ ∃ field, field ∈ c.fieldsOf layer ∧
      field.kind = inner := by
  cases kind with
  | entity name => simp [Holds, heldKinds, layers]
  | inlineStruct name => simp [Holds, heldKinds, layers]
  | composite name => simp [Holds, heldKinds, layers]
  | _ => cases structured

theorem sizeStep_eq_layers (sizes : Kind -> Nat) :
    c.sizeStep sizes kind =
      ((c.layers kind).map fun layer => fieldsEnd sizes 0 (c.fieldsOf layer)).sum := by
  cases kind with
  | entity name =>
      rw [sizeStep, layers, List.map_map, List.sum_eq_foldr, List.foldr_map]
      rfl
  | inlineStruct name => simp [sizeStep, layers]
  | composite name => simp [sizeStep, layers]
  | _ => cases structured

/-- Nothing that a structure or class holds is larger than it is. -/
theorem le_sizeStep_of_holds {sizes : Kind -> Nat} {inner : Kind} (held : c.Holds inner kind) :
    sizes inner ≤ c.sizeStep sizes kind := by
  rcases (mem_heldKinds_iff structured).mp held with ⟨layer, among, field, member, rfl⟩
  rw [sizeStep_eq_layers structured]
  exact Nat.le_trans (le_fieldsEnd member 0) (List.le_sum_of_mem (List.mem_map_of_mem among))

end Layers

end Catalog

namespace Kind

/-- Every count is positive, but for that of a text, which consists of short units. -/
def Counted : Kind -> Prop
  | .fixedArray element count =>
    (0 < count ∨ ∃ s : Scalar, element = .scalar s ∧ s.width ≤ 8) ∧ element.Counted
  | _ => True

theorem Unmarked.counted {decl : FieldDecl} {kind : Kind} (unmarked : kind.Unmarked decl) : kind.Counted := by
  cases kind with
  | fixedArray element count =>
      cases element with
      | scalar s => exact ⟨.inr ⟨s, rfl, unmarked.1⟩, trivial⟩
      | _ => cases unmarked
  | _ => trivial

end Kind

namespace Schema

theorem FieldDecl.KeptAs.counted {names : TypeNames} {owner : String} {decl : FieldDecl} {field : Field}
    (kept : decl.KeptAs names owner field) : field.kind.Counted := by
  rcases kept.kind with ⟨base, based, marked⟩
  rcases markedKind_cases marked with ⟨inner, pointed, counted⟩
  have one : inner.Counted := by
    rcases pointed with ⟨rfl, -⟩ | ⟨rfl, -⟩
    · exact (baseKind_unmarked based).counted
    · trivial
  rcases counted with ⟨-, same⟩ | ⟨count, -, positive, same⟩
  · exact same ▸ one
  · exact same ▸ ⟨.inl positive, one⟩

end Schema

namespace Catalog

variable {host : Host} {document : Document} {c : Catalog} (stages : Stages host document c)
include stages

/-- What a counted kind holds is counted, since all fields are. -/
theorem counted_of_holds {inner kind : Kind} (counted : kind.Counted) (held : c.Holds inner kind) :
    inner.Counted := by
  by_cases structured : kind.structName?.isSome
  · rcases (mem_heldKinds_iff structured).mp held with ⟨layer, -, field, member, rfl⟩
    have each : forall table, table ∈ c.tables -> forall entry, entry ∈ table ->
        forall field, field ∈ entry.2 -> field.kind.Counted := by
      intro table listed entry filed field member
      rcases stages.field_kept listed filed member with ⟨decl, -, kept⟩
      exact kept.counted
    exact forall_fieldsOf each layer field member
  · cases kind with
    | fixedArray element count => exact List.mem_singleton.mp held ▸ counted.2
    | inlineStruct name => exact absurd rfl structured
    | composite name => exact absurd rfl structured
    | entity name => exact absurd rfl structured
    | _ => cases held

omit stages in
/-- What a counted kind holds is a word if the size of the kind is one. -/
theorem lt_of_holds {sizes : Kind -> Nat} {inner kind : Kind} (counted : kind.Counted)
    (held : c.Holds inner kind) (run : c.SizeRun inner (sizes inner))
    (fits : c.sizeStep sizes kind < 2 ^ 64) : sizes inner < 2 ^ 64 := by
  by_cases structured : kind.structName?.isSome
  · exact Nat.lt_of_le_of_lt (le_sizeStep_of_holds structured held) fits
  · cases kind with
    | fixedArray element count =>
        cases List.mem_singleton.mp held
        rcases counted.1 with positive | ⟨s, rfl, narrow⟩
        · exact Nat.lt_of_le_of_lt (Nat.le_mul_of_pos_right _ positive) fits
        · rw [run.eq_width]
          omega
    | inlineStruct name => exact absurd rfl structured
    | composite name => exact absurd rfl structured
    | entity name => exact absurd rfl structured
    | _ => cases held

theorem SizeRun.wordRun {kind : Kind} {size : Nat} (run : c.SizeRun kind size) (counted : kind.Counted)
    (fits : size < 2 ^ 64) : c.WordRun kind size := by
  induction run with
  | @intro kind sizes sized inductionHypothesis =>
      refine .intro sizes (fun inner held => ?_) (sizeStep?_eq_some_iff.mpr ⟨rfl, fits⟩)
      exact inductionHypothesis inner held (counted_of_holds stages counted held)
        (lt_of_holds counted held (sized inner held) fits)

/-- A counted size is worked out in words exactly if it is worked out and a word. -/
theorem wordRun_iff {kind : Kind} {size : Nat} (counted : kind.Counted) :
    c.WordRun kind size <-> c.SizeRun kind size ∧ size < 2 ^ 64 :=
  ⟨WordRun.sizeRun, fun ⟨run, fits⟩ => run.wordRun stages counted fits⟩

end Catalog
end MemoryAtlas
