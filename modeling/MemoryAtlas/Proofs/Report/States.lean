import MemoryAtlas.Proofs.Report.Titles
import MemoryAtlas.Proofs.Types.Integers

namespace MemoryAtlas
open Schema

/-!
# How states are read

A state is stored in one, two or four bytes and read as a signed number.  A
title whose key lies in the range of such a number is shown when the key is
stored: the number that is read back is the key, and every number has one title.

Keys above that range are accepted as well, since a key is only asked to be a
number.  Such a key is stored as the bytes of a negative number.  That number is
read instead, and unless it has a title of its own it is shown as unknown.
-/

namespace Catalog

/-- However an entry has been laid out, if it holds the scalar, stands at the
address and belongs to the field, its value is shown as the text. -/
def Renders (c : Catalog) (m : Memory) (a : Address) (owner field : String) (s : Scalar) (text : String) :
    Prop :=
  forall decoders map entry, entry.kind = .scalar s -> entry.address = a ->
    Report.ownerOf map entry.path = (owner, field) -> Report.valueText decoders c m map entry = text

variable {c : Catalog} {m : Memory} {a : Address} {owner field : String} {width : Nat}

/-- A state is read as a signed number. -/
theorem readScalar_state {bytes : List UInt8} (fits : 0 < width ∧ width ≤ 8) (placed : a ≠ 0)
    (read : m.read a width = .ok bytes) :
    m.readScalar a ⟨width, .state⟩ = .ok (.signed (asSigned width (littleEndian bytes))) := by
  have decoded : Scalar.decode ⟨width, .state⟩ bytes = asSigned width (littleEndian bytes) :=
    Scalar.decode_of_length fits.1 fits.2 (m.length_read read)
  have value : Scalar.valueOf ⟨width, .state⟩ bytes = .signed (asSigned width (littleEndian bytes)) := by
    simp [Scalar.valueOf, Scalar.isSigned, Reading.isSigned, decoded]
  rw [Memory.readScalar, if_neg placed, read, ← value]
  rfl

/-- A state is shown as its number and the title of the number. -/
theorem renders_state {value : Int} (placed : a ≠ 0)
    (read : m.readScalar a ⟨width, .state⟩ = .ok (.signed value)) :
    c.Renders m a owner field ⟨width, .state⟩
      (toString value ++ " (" ++ c.stateTitle owner field value ++ ")") := by
  rintro decoders map ⟨path, address, kind⟩ scalar here owned
  dsimp only at scalar here owned
  subst scalar here
  simp only [Report.valueText, Kind.structName?, Option.isSome_none, Bool.false_eq_true, if_false,
    if_neg placed, owned, read, Report.orUnreadable, Report.scalarText, ScalarValue.asInt?]

theorem ascending_of_titlesOf {host : Host} {document : Document}
    (loaded : load host document = .ok c) {table : TitleTable}
    (titled : c.titlesOf owner field = some table) : table.Ascending := by
  rcases load_stages loaded with ⟨stages⟩
  rcases Option.bind_eq_some_iff.mp titled with ⟨name, -, found⟩
  rcases stages.tables_readFrom found with ⟨titles, -, readFrom⟩
  exact readFrom.ascending

/-- The title of a state whose key is stored.  A key in the range of signed
numbers is read back, and its title is shown.  A key above that range is read as
a negative number, which has no title unless another key is stored as the same
bytes. -/
theorem stateTitle_of_stored {host : Host} {document : Document}
    (loaded : load host document = .ok c) {decl : FieldDecl}
    (state : StandardType.ofName? decl.typeName = some (.scalar ⟨width, .state⟩)) {table : TitleTable}
    (titled : c.titlesOf owner decl.name = some table) {key : Int} {title : String}
    (entry : (key, title) ∈ table) (low : -(wordCount (8 * width - 1) : Int) ≤ key)
    (placed : a ≠ 0) {bytes : List UInt8} (read : m.read a width = .ok bytes)
    (stored : (littleEndian bytes : Int) = key % wordCount (8 * width)) :
    (key < wordCount (8 * width - 1) ->
      m.readScalar a ⟨width, .state⟩ = .ok (.signed key) ∧ c.stateTitle owner decl.name key = title ∧
      c.Renders m a owner decl.name ⟨width, .state⟩ (toString key ++ " (" ++ title ++ ")")) ∧
    (wordCount (8 * width - 1) ≤ key -> key < wordCount (8 * width) ->
      (forall other, other ∈ table -> other.1 % wordCount (8 * width) = key % wordCount (8 * width) ->
        other.1 = key) ->
      m.readScalar a ⟨width, .state⟩ = .ok (.signed (key - wordCount (8 * width))) ∧
      c.stateTitle owner decl.name (key - wordCount (8 * width)) = "UNKNOWN STATE" ∧
      c.Renders m a owner decl.name ⟨width, .state⟩
        (toString (key - wordCount (8 * width)) ++ " (" ++ "UNKNOWN STATE" ++ ")")) := by
  have fits : 0 < width ∧ width ≤ 8 := StandardType.width_of_ofName? state
  have value := readScalar_state fits placed read
  constructor
  · intro high
    have back : asSigned width (littleEndian bytes) = key := asSigned_eq_of_emod_eq fits.1 low high stored
    rw [back] at value
    have shown : c.stateTitle owner decl.name key = title := by
      refine (titles_of_title?_eq_some ?_).2
      rw [title?_eq titled]
      exact (ascending_of_titlesOf loaded titled).lookup_of_mem entry
    have renders : c.Renders m a owner decl.name ⟨width, .state⟩
        (toString key ++ " (" ++ c.stateTitle owner decl.name key ++ ")") := renders_state placed value
    rw [shown] at renders
    exact ⟨value, shown, renders⟩
  · intro above high alone
    have double := wordCount_eq_double fits.1
    have same : (key - wordCount (8 * width)) % wordCount (8 * width) = key % wordCount (8 * width) :=
      Int.sub_emod_right key _
    have back : asSigned width (littleEndian bytes) = key - wordCount (8 * width) :=
      asSigned_eq_of_emod_eq fits.1 (by omega) (by omega) (stored.trans same.symm)
    rw [back] at value
    have unknown : c.stateTitle owner decl.name (key - wordCount (8 * width)) = "UNKNOWN STATE" := by
      refine (titles_of_title?_eq_none ?_).2
      rw [title?_eq titled, List.lookup_eq_none_iff]
      intro other member
      refine bne_iff_ne.mpr fun equal => ?_
      have clash := alone other member (by rw [← equal, same])
      omega
    have renders : c.Renders m a owner decl.name ⟨width, .state⟩
        (toString (key - wordCount (8 * width)) ++ " (" ++
          c.stateTitle owner decl.name (key - wordCount (8 * width)) ++ ")") := renders_state placed value
    rw [unknown] at renders
    exact ⟨value, unknown, renders⟩

/-- A memory in which every byte is the same. -/
def filledWith (byte : UInt8) : Memory where
  read := fun _ n => .ok (List.replicate n byte)
  length_read := by
    rintro a n bytes read
    cases read
    exact List.length_replicate

theorem stateTitle_of_stored_at_lampAndTorch :
    (filledWith 0xff).readScalar 4096 ⟨1, .state⟩ = .ok (.signed (-1)) ∧
    lampAndTorchCatalog.stateTitle "Lamp" "mode" (-1) = "Off" ∧
    (filledWith 0xc8).readScalar 4096 ⟨1, .state⟩ = .ok (.signed (200 - 256)) ∧
    lampAndTorchCatalog.stateTitle "Lamp" "mode" (200 - 256) = "UNKNOWN STATE" := by
  let decl : FieldDecl := { plainField "mode" "State8" with titles := some "modes" }
  have state : StandardType.ofName? decl.typeName = some (.scalar ⟨1, .state⟩) := by decide
  have titled : lampAndTorchCatalog.titlesOf "Lamp" decl.name =
      some [(-1, "Off"), (1, "Dim"), (200, "Bright")] := by decide
  have off := stateTitle_of_stored load_lampAndTorch state titled (.head _) (by decide)
    (a := 4096) (m := filledWith 0xff) (by decide) rfl (by decide)
  have bright := stateTitle_of_stored load_lampAndTorch state titled (.tail _ (.tail _ (.head _))) (by decide)
    (a := 4096) (m := filledWith 0xc8) (by decide) rfl (by decide)
  have negative := off.1 (by decide)
  have unsigned := bright.2 (by decide) (by decide) (by decide)
  exact ⟨negative.1, negative.2.1, unsigned.1, unsigned.2.1⟩

/-- The bytes of 200 are read as another number, and the title of 200 is not shown. -/
theorem accepted_hides_title : load .standing lampAndTorch = .ok lampAndTorchCatalog ∧
    lampAndTorchCatalog.titlesOf "Lamp" "mode" = some [(-1, "Off"), (1, "Dim"), (200, "Bright")] ∧
    (filledWith 0xc8).read 4096 1 = .ok [0xc8] ∧ littleEndian [0xc8] = 200 ∧
    (filledWith 0xc8).readScalar 4096 ⟨1, .state⟩ = .ok (.signed (-56)) ∧
    lampAndTorchCatalog.stateTitle "Lamp" "mode" (-56) = "UNKNOWN STATE" :=
  ⟨load_lampAndTorch, by decide, by decide, by decide, by decide, by decide⟩

end Catalog
end MemoryAtlas
