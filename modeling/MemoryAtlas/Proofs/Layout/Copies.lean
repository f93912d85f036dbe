import MemoryAtlas.Proofs.Layout.Fitting
import MemoryAtlas.Proofs.Schema.Designation

namespace MemoryAtlas

open Schema

/-!
# What a declaration makes of one copy

A declared field holds values of a declared type, or it does not.  It does unless it is
marked as a pointer, its type is a pointer type, or its type is a standard one.

In the first case the kind of one copy is the kind that the declared type stands for.
In the second no declaration is needed to say how much room the copy takes: eight bytes
for a pointer, what `offset` says for gaps and texts, a fixed number of bytes for every
other standard type.  The loader keeps to this with one exception: of a wide text only
whole units are kept.
-/

/-- The room of a value of a standard type, given the number of bytes that its field
says and what a wide text of so many bytes takes. -/
def StandardType.room (text : Nat -> Nat) (bytes : Nat) : StandardType -> Nat
  | .scalar s => s.width
  | .gap | .narrowText => bytes
  | .wideText => text bytes
  | .vector => 24
  | .map | .set => 16
  | .string | .wideString => 32
  | .functionTable => 8

namespace Schema

/-- The declared type that a field holds values of.  Pointers hold none, and neither
do fields of standard types. -/
def FieldDecl.heldType? (names : TypeNames) (decl : FieldDecl) : Option String :=
  if decl.pointer || (StandardType.ofName? decl.typeName).isSome || names.pointers.contains decl.typeName
  then none else some decl.typeName

/-- The room of one copy of a field that holds no declared type.  Beside the standard
types there are only pointers. -/
def FieldDecl.ownUnit (text : Nat -> Nat) (decl : FieldDecl) : Nat :=
  if decl.pointer then 8
  else
    match StandardType.ofName? decl.typeName with
    | some standard => standard.room text (decl.offset.getD 0)
    | none => 8

/-- What is kept of a number of bytes that are read two by two. -/
def wholeUnits (bytes : Nat) : Nat :=
  bytes / 2 * 2

/-! ## The kind of one copy -/

/-- What a declaration makes of one copy: the kind that the declared type stands for,
or a kind that holds no declaration and has a room of its own. -/
inductive FieldDecl.Makes (names : TypeNames) (decl : FieldDecl) (kind : Kind) : Prop
  | held {type : String} (holds : decl.heldType? names = some type)
      (resolved : names.resolve type = some kind) (named : kind.structName? = some type)
  | plain (holdsNone : decl.heldType? names = none) (plain : kind.core.structName? = none)
      (sized : forall c : Catalog, c.Consistent -> c.sizeOf kind = decl.ownUnit wholeUnits)

/-- A standard type holds no declaration, so that one step gives its size. -/
theorem FieldDecl.Makes.standard {names : TypeNames} {decl : FieldDecl} {kind : Kind}
    {standard : StandardType} (unmarked : decl.pointer = false)
    (known : StandardType.ofName? decl.typeName = some standard) (plain : kind.core.structName? = none)
    (step : forall c : Catalog, c.Consistent ->
      c.sizeStep c.sizeOf kind = standard.room wholeUnits (decl.offset.getD 0)) :
    decl.Makes names kind := by
  have holdsNone : decl.heldType? names = none := by
    rw [heldType?, known, Option.isSome_some, Bool.or_true, Bool.true_or, if_pos rfl]
  refine .plain holdsNone plain fun c consistent => ?_
  rw [Catalog.sizeOf_of_plain consistent plain, step c consistent, ownUnit, unmarked,
    if_neg Bool.false_ne_true, known]

/-- A text is laid out unit by unit. -/
theorem sizeStep_text {c : Catalog} (consistent : c.Consistent) (s : Scalar) (count : Nat) :
    c.sizeStep c.sizeOf (.fixedArray (.scalar s) count) = s.width * count := by
  show c.sizeOf (.scalar s) * count = s.width * count
  rw [Catalog.sizeOf_of_plain consistent rfl]
  rfl

theorem resolve_makes {names : TypeNames} {decl : FieldDecl} {kind : Kind} (unmarked : decl.pointer = false)
    (custom : StandardType.ofName? decl.typeName = none) (resolved : names.resolve decl.typeName = some kind) :
    decl.Makes names kind := by
  by_cases pointer : names.pointers.contains decl.typeName = true
  · have owned : kind = .ownedPointer decl.typeName := by
      rw [TypeNames.resolve, custom] at resolved
      dsimp only at resolved
      rw [if_pos pointer] at resolved
      exact (Option.some.inj resolved).symm
    subst owned
    refine .plain (by rw [FieldDecl.heldType?, pointer, Bool.or_true, if_pos rfl]) rfl fun c consistent => ?_
    rw [Catalog.sizeOf_of_plain consistent rfl, FieldDecl.ownUnit, unmarked, custom]
    rfl
  · have holds : decl.heldType? names = some decl.typeName := by
      rw [FieldDecl.heldType?, unmarked, custom, if_neg]
      simpa using pointer
    refine .held holds resolved ?_
    rw [TypeNames.resolve, custom] at resolved
    dsimp only at resolved
    rw [if_neg pointer] at resolved
    repeat' split at resolved
    all_goals cases resolved
    all_goals rfl

theorem baseKind_makes {names : TypeNames} {owner : String} {decl : FieldDecl} {base : Kind}
    (unmarked : decl.pointer = false) (based : baseKind names owner decl = .ok base) :
    decl.Makes names base := by
  unfold baseKind at based
  dsimp only at based
  split at based
  · rename_i gap
    rw [unmarked, if_neg Bool.false_ne_true] at based
    split at based <;> cases based
    rename_i bytes written
    exact .standard unmarked gap rfl fun c _ => by rw [written]; rfl
  · rename_i wide
    split at based <;> cases based
    rename_i bytes written
    refine .standard unmarked wide rfl fun c consistent => ?_
    rw [sizeStep_text consistent, written]
    exact Nat.mul_comm 2 (bytes / 2)
  · rename_i narrow
    split at based <;> cases based
    rename_i bytes written
    refine .standard unmarked narrow rfl fun c consistent => ?_
    rw [sizeStep_text consistent, written]
    exact Nat.one_mul bytes
  · rename_i vector
    rcases Except.bind_eq_ok_iff.mp based with ⟨element, -, made⟩
    cases made
    exact .standard unmarked vector rfl fun _ _ => rfl
  · rename_i map
    rcases Except.bind_eq_ok_iff.mp based with ⟨key, -, rest⟩
    rcases Except.bind_eq_ok_iff.mp rest with ⟨value, -, made⟩
    cases made
    exact .standard unmarked map rfl fun _ _ => rfl
  · rename_i set
    rcases Except.bind_eq_ok_iff.mp based with ⟨key, -, made⟩
    cases made
    exact .standard unmarked set rfl fun _ _ => rfl
  · cases based
    exact .standard unmarked ‹_› rfl fun _ _ => rfl
  · cases based
    exact .standard unmarked ‹_› rfl fun _ _ => rfl
  · cases based
    exact .standard unmarked ‹_› rfl fun _ _ => rfl
  · cases based
    exact .standard unmarked ‹_› rfl fun _ _ => rfl
  · split at based
    · cases based
      exact resolve_makes unmarked ‹_› ‹_›
    · cases based

/-- A kept field has so many copies as its declaration counts, each of what the
declaration makes of it. -/
theorem FieldDecl.KeptAs.makes {names : TypeNames} {owner : String} {decl : FieldDecl} {field : Field}
    (kept : decl.KeptAs names owner field) : ∃ copy, decl.Makes names copy ∧
      (decl.count = none ∧ field.kind = copy ∨
        ∃ count, decl.count = some count ∧ field.kind = .fixedArray copy count) := by
  rcases kept.kind with ⟨base, based, marked⟩
  rcases markedKind_cases marked with ⟨copy, pointed, counted⟩
  refine ⟨copy, ?_, counted.imp_right fun ⟨count, written, _, same⟩ => ⟨count, written, same⟩⟩
  cases isPointer : decl.pointer with
  | false =>
      rcases pointed with ⟨rfl, -⟩ | ⟨-, impossible⟩
      · exact baseKind_makes isPointer based
      · rw [isPointer] at impossible
        cases impossible
  | true =>
      have holdsNone : decl.heldType? names = none := by
        rw [heldType?, isPointer, Bool.true_or, Bool.true_or, if_pos rfl]
      have eight : decl.ownUnit wholeUnits = 8 := by rw [ownUnit, isPointer, if_pos rfl]
      rcases pointed with ⟨rfl, owned⟩ | ⟨rfl, -⟩
      · rcases owned isPointer with ⟨name, rfl⟩
        refine .plain holdsNone rfl fun c consistent => ?_
        rw [Catalog.sizeOf_of_plain consistent rfl, eight]
        rfl
      · refine .plain holdsNone rfl fun c consistent => ?_
        rw [Catalog.sizeOf_of_plain consistent rfl, eight]
        rfl

end Schema
end MemoryAtlas
