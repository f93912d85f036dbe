import MemoryAtlas.Types.Scalar

namespace MemoryAtlas

/-!
The type names that need no declaration.

Most of them name a scalar.  The others name a shape that only a field can
complete: containers, texts of a fixed size, gaps and function tables.
-/

/-- A type name that every schema knows. -/
inductive StandardType where
  | scalar (value : Scalar)
  | wideText
  | narrowText
  | gap
  | vector
  | map
  | set
  | string
  | wideString
  | functionTable
deriving Repr, DecidableEq

namespace StandardType

/-- The standard names and what they stand for. -/
def table : List (String × StandardType) :=
  [("Byte", .scalar ⟨1, .signed⟩),
   ("UnsignedByte", .scalar ⟨1, .unsigned⟩),
   ("Word", .scalar ⟨2, .signed⟩),
   ("UnsignedWord", .scalar ⟨2, .unsigned⟩),
   ("Dword", .scalar ⟨4, .signed⟩),
   ("UnsignedDword", .scalar ⟨4, .unsigned⟩),
   ("Qword", .scalar ⟨8, .signed⟩),
   ("UnsignedQword", .scalar ⟨8, .unsigned⟩),
   ("Float", .scalar ⟨4, .float⟩),
   ("Double", .scalar ⟨8, .float⟩),
   ("Bool", .scalar ⟨1, .bool⟩),
   ("Flags8", .scalar ⟨1, .flags⟩),
   ("Flags16", .scalar ⟨2, .flags⟩),
   ("Flags32", .scalar ⟨4, .flags⟩),
   ("State8", .scalar ⟨1, .state⟩),
   ("State16", .scalar ⟨2, .state⟩),
   ("State32", .scalar ⟨4, .state⟩),
   ("UTF16Char", .scalar ⟨2, .char16⟩),
   ("UTF16StringFixedSize", .wideText),
   ("UTF8StringFixedSize", .narrowText),
   ("Skip", .gap),
   ("StdVector", .vector),
   ("StdMap", .map),
   ("StdSet", .set),
   ("StdString", .string),
   ("StdWstring", .wideString),
   ("CodePointer", .scalar ⟨8, .address⟩),
   ("DataPointer", .scalar ⟨8, .address⟩),
   ("ConstCharPointer", .scalar ⟨8, .address⟩),
   ("ConstCharPointerPointer", .scalar ⟨8, .address⟩),
   ("EntityPointer", .scalar ⟨8, .address⟩),
   ("EntityUIDPointer", .scalar ⟨8, .address⟩),
   ("EntityDBPointer", .scalar ⟨8, .address⟩),
   ("ParticleDBPointer", .scalar ⟨8, .address⟩),
   ("TextureDBPointer", .scalar ⟨8, .address⟩),
   ("VirtualFunctionTable", .functionTable),
   ("IPv4Address", .scalar ⟨4, .ipv4⟩),
   ("EntityDBID", .scalar ⟨4, .foreignId .entityDb⟩),
   ("EntityUID", .scalar ⟨4, .foreignId .entityUid⟩),
   ("ParticleDBID", .scalar ⟨4, .foreignId .particleDb⟩),
   ("TextureDBID", .scalar ⟨4, .foreignId .textureDb⟩),
   ("StringsTableID", .scalar ⟨4, .foreignId .stringsTable⟩),
   ("CharacterDBID", .scalar ⟨1, .foreignId .characterDb⟩)]

/-- What a standard name stands for. -/
def ofName? (name : String) : Option StandardType :=
  table.lookup name

/-- The scalar that a standard name stands for, if it stands for one. -/
def scalar? : StandardType -> Option Scalar
  | .scalar s => some s
  | _ => none

/-- Whether fields of the type hold bit flags. -/
def isFlags (t : StandardType) : Bool :=
  (t.scalar?.map Scalar.reading) == some .flags

/-- Whether fields of the type hold a state. -/
def isState (t : StandardType) : Bool :=
  (t.scalar?.map Scalar.reading) == some .state

theorem width_of_ofName? {name : String} {s : Scalar}
    (standard : ofName? name = some (.scalar s)) : 0 < s.width ∧ s.width ≤ 8 := by
  have listed : forall entry, entry ∈ table ->
      forall scalar, scalar ∈ entry.2.scalar? -> 0 < scalar.width ∧ scalar.width ≤ 8 := by decide
  obtain ⟨before, after, split, -⟩ := List.lookup_eq_some_iff.mp standard
  have member : (name, .scalar s) ∈ table := by
    rw [split]
    exact List.mem_append_right before List.mem_cons_self
  exact listed _ member _ rfl

end StandardType
end MemoryAtlas
