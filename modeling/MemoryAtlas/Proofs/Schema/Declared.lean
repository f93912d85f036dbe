import MemoryAtlas.Proofs.Sequence
import MemoryAtlas.Schema.Loading

namespace MemoryAtlas

/-!
# Kinds that stand for declarations

A kind carries only the name of its declaration.  The name alone does not say
in which table the declaration is kept, so a kind is only as good as the
promise that resolving its name gives that kind back.

Every kind that loading puts into a field keeps the promise, at any depth of
pointers and arrays, and so do the element names that containers carry.  The
proof follows a field through the steps that build its kind: a base kind, the
mark of a pointer, the count of an array.
-/

/-- Every declared name inside a kind stands for that kind. -/
def Kind.Declared (names : TypeNames) : Kind -> Prop
  | .pointerTo target => target.Declared names
  | .fixedArray element _ => element.Declared names
  | .ownedPointer name => names.resolve name = some (.ownedPointer name)
  | .inlineStruct name => names.resolve name = some (.inlineStruct name)
  | .composite name => names.resolve name = some (.composite name)
  | .entity name => names.resolve name = some (.entity name)
  | .dynamicArray element => (names.resolve element).isSome
  | .orderedMap key value =>
    (names.resolve key).isSome ∧ forall name, value = some name -> (names.resolve name).isSome
  | _ => True

namespace TypeNames

/-- What a name stands for: nothing declared, or a kind of that very name. -/
theorem resolve_cases {names : TypeNames} {name : String} {kind : Kind}
    (resolved : names.resolve name = some kind) :
    kind.structName? = none ∧ (forall owner, kind ≠ .ownedPointer owner) ∧ kind.Declared names ∨
    StandardType.ofName? name = none ∧
      (kind = .ownedPointer name ∧ name ∈ names.pointers ∨
       kind = .inlineStruct name ∧ name ∉ names.pointers ∧ name ∈ names.inlines ∨
       kind = .composite name ∧ name ∉ names.pointers ∧ name ∉ names.inlines ∧ name ∈ names.structs ∨
       kind = .entity name ∧ name ∉ names.pointers ∧ name ∉ names.inlines ∧ name ∉ names.structs ∧
         name ∈ names.entities) := by
  unfold resolve at resolved
  split at resolved
  · cases resolved
    exact .inl ⟨rfl, by simp, trivial⟩
  · cases resolved
    exact .inl ⟨rfl, by simp, trivial⟩
  · cases resolved
    exact .inl ⟨rfl, by simp, trivial⟩
  · cases resolved
  · rename_i custom
    refine .inr ⟨custom, ?_⟩
    by_cases pointer : name ∈ names.pointers
    · simp_all
    by_cases inline : name ∈ names.inlines
    · simp_all
    by_cases struct : name ∈ names.structs
    · simp_all
    by_cases entity : name ∈ names.entities <;> simp_all

/-- Resolving gives declared kinds only. -/
theorem resolve_declared {names : TypeNames} {name : String} {kind : Kind}
    (resolved : names.resolve name = some kind) : kind.Declared names := by
  rcases resolve_cases resolved with ⟨-, -, declared⟩ | ⟨-, named⟩
  · exact declared
  · rcases named with ⟨rfl, -⟩ | ⟨rfl, -⟩ | ⟨rfl, -⟩ | ⟨rfl, -⟩ <;> exact resolved

theorem listed_of_composite {names : TypeNames} {name : String}
    (declared : (Kind.composite name).Declared names) :
    name ∉ names.pointers ∧ name ∉ names.inlines ∧ name ∈ names.structs := by
  rcases resolve_cases declared with ⟨impossible, -⟩ | ⟨-, cases⟩
  · cases impossible
  · simpa using cases

theorem listed_of_inlineStruct {names : TypeNames} {name : String}
    (declared : (Kind.inlineStruct name).Declared names) :
    name ∉ names.pointers ∧ name ∈ names.inlines := by
  rcases resolve_cases declared with ⟨impossible, -⟩ | ⟨-, cases⟩
  · cases impossible
  · simpa using cases

theorem listed_of_entity {names : TypeNames} {name : String}
    (declared : (Kind.entity name).Declared names) :
    name ∉ names.pointers ∧ name ∉ names.inlines ∧ name ∉ names.structs ∧ name ∈ names.entities := by
  rcases resolve_cases declared with ⟨impossible, -⟩ | ⟨-, cases⟩
  · cases impossible
  · simpa using cases

end TypeNames

namespace Schema

/-- The element type of a container is a name that stands for something. -/
theorem parameterType_isSome {names : TypeNames} {path : String} {given : Option String}
    {name : String} (found : parameterType names path given = .ok name) :
    (names.resolve name).isSome := by
  cases given with
  | none =>
      cases found
      rfl
  | some written =>
      rw [parameterType] at found
      split at found
      · cases found
        assumption
      · cases found

theorem baseKind_declared {names : TypeNames} {owner : String} {decl : FieldDecl} {kind : Kind}
    (based : baseKind names owner decl = .ok kind) : kind.Declared names := by
  unfold baseKind at based
  dsimp only at based
  split at based
  all_goals try (cases based; trivial)
  · split at based
    · cases based
    · split at based <;> cases based
      trivial
  · split at based <;> cases based
    trivial
  · split at based <;> cases based
    trivial
  · rcases Except.bind_eq_ok_iff.mp based with ⟨element, found, made⟩
    cases made
    exact parameterType_isSome found
  · rcases Except.bind_eq_ok_iff.mp based with ⟨key, keyFound, rest⟩
    rcases Except.bind_eq_ok_iff.mp rest with ⟨value, valueFound, made⟩
    cases made
    refine ⟨parameterType_isSome keyFound, fun name same => ?_⟩
    cases same
    exact parameterType_isSome valueFound
  · rcases Except.bind_eq_ok_iff.mp based with ⟨key, keyFound, made⟩
    cases made
    exact ⟨parameterType_isSome keyFound, fun name impossible => by cases impossible⟩
  · split at based
    · rename_i resolved
      cases based
      exact TypeNames.resolve_declared resolved
    · cases based

theorem markedKind_declared {names : TypeNames} {path : String} {decl : FieldDecl}
    {base kind : Kind} (declared : base.Declared names)
    (marked : markedKind path decl base = .ok kind) : kind.Declared names := by
  unfold markedKind at marked
  dsimp only at marked
  -- A pointer type keeps its kind under the mark; every other kind is wrapped.
  cases pointer : decl.pointer <;> cases base <;> simp only [pointer] at marked <;>
    split at marked <;> cases marked <;> exact declared

theorem loadField_declared {names : TypeNames} {owner : String} {decl : FieldDecl}
    {before after : Gathered} {field : Field}
    (loaded : loadField names owner decl before = .ok (field, after)) :
    field.kind.Declared names := by
  unfold loadField at loaded
  rcases Except.bind_eq_ok_iff.mp loaded with ⟨base, based, loaded⟩
  rcases Except.bind_eq_ok_iff.mp loaded with ⟨_, -, loaded⟩
  rcases Except.bind_eq_ok_iff.mp loaded with ⟨_, -, loaded⟩
  rcases Except.bind_eq_ok_iff.mp loaded with ⟨kind, marked, loaded⟩
  cases loaded
  exact markedKind_declared (baseKind_declared based) marked

/-- All fields of a list have declared kinds. -/
def FieldsDeclared (names : TypeNames) (fields : List Field) : Prop :=
  forall field, field ∈ fields -> field.kind.Declared names

end Schema
end MemoryAtlas
