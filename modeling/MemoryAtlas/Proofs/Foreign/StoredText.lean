import MemoryAtlas.Foreign.ForeignString
import MemoryAtlas.Image.Snapshot
import MemoryAtlas.Proofs.Sequence
import MemoryAtlas.Proofs.Text.RoundTrip

namespace MemoryAtlas

/-!
# Texts as the observed program stores them

The head of a text says how long the text is and how much room it has.  The room
alone decides where the characters stand: a small one is inside the head, any other
behind the pointer at the beginning of the head.  Whoever reads the text has to make
the same choice as whoever has stored it, for both widths of characters, and has to
read as many bytes as the characters take.

The statement here is about every memory that stores a text in this way.  Nothing is
asked of an empty text but its head, since none of its bytes is ever read.
-/

namespace Text

/-- The bytes of a text in characters of a width: sixteen-bit units if there are two
bytes to a character, single bytes otherwise. -/
def encode (width : Nat) (text : String) : List UInt8 :=
  if width = 2 then encodeUtf16 text else encodeUtf8 text

/-- The number of code units of a text in characters of a width. -/
def unitCount (width : Nat) (text : String) : Nat :=
  if width = 2 then (utf16Units text).length else (encodeUtf8 text).length

theorem length_encodeUtf16 (text : String) : (encodeUtf16 text).length = (utf16Units text).length * 2 := by
  rw [encodeUtf16, List.length_flatMap]
  simp [length_toLittleEndian, List.map_const', Nat.mul_comm]

/-- There are as many bytes as the units take. -/
theorem length_encode {width : Nat} (known : width = 1 ∨ width = 2) (text : String) :
    (encode width text).length = unitCount width text * width := by
  rcases known with rfl | rfl
  · exact (Nat.mul_one _).symm
  · exact length_encodeUtf16 text

end Text

namespace ForeignString

open Text (encode unitCount)

/-- Where the characters of a text of some capacity stand: in the head, at its own
address, while the capacity leaves room for a terminator in sixteen bytes, and behind
the pointer at the beginning of the head otherwise. -/
inductive CharactersAt (m : Memory) (base : Address) (width capacity : Nat) : Address -> Prop where
  | inHead (small : capacity ≤ 16 / width - 1) : CharactersAt m base width capacity base
  | behind {a : Address} (large : 16 / width - 1 < capacity) (pointer : m.readPointer base = .ok a) :
      CharactersAt m base width capacity a

/-- The memory stores a text with its head at a base and its characters at `a`.  The
capacity need not even be enough for the text; all it tells is where the text is. -/
structure Stores (m : Memory) (base : Address) (width capacity : Nat) (a : Address) (text : String) :
    Prop where
  length : m.readWord (base.shift 0x10) = .ok (unitCount width text)
  room : m.readWord (base.shift 0x18) = .ok capacity
  place : CharactersAt m base width capacity a
  characters : encode width text = [] ∨ m.read a (encode width text).length = .ok (encode width text)

variable {m : Memory} {base a : Address} {width capacity : Nat} {text : String}

theorem Stores.dataAddress_eq (stores : Stores m base width capacity a text) :
    dataAddress ⟨base, width⟩ m = .ok a := by
  have room : ForeignString.capacity ⟨base, width⟩ m = .ok capacity := stores.room
  rw [dataAddress, isInline, room]
  cases stores.place with
  | inHead small => simp [Except.map, inlineCapacity, inlineRoom, small, Address.shift_zero, pure, Except.pure]
  | behind large pointer =>
      simp [Except.map, inlineCapacity, inlineRoom, Nat.not_le.mpr large, Address.shift_zero, pointer]

/-- The bytes of a stored text are read, no more and no fewer. -/
theorem Stores.bytes_eq (stores : Stores m base width capacity a text) (known : width = 1 ∨ width = 2)
    (short : (encode width text).length ≤ readLimit) :
    bytes ⟨base, width⟩ m = .ok (encode width text) := by
  have count : ForeignString.length ⟨base, width⟩ m = .ok (unitCount width text) := stores.length
  have size : min (unitCount width text * width) (wordCount 64 - 1) = (encode width text).length := by
    have within : readLimit ≤ wordCount 64 - 1 := by decide
    rw [Text.length_encode known] at short ⊢
    exact Nat.min_eq_left (Nat.le_trans short within)
  rw [bytes, count, Except.ok_bind, size]
  by_cases nothing : encode width text = []
  · rw [nothing]
    rfl
  · have some : (encode width text).length ≠ 0 := mt List.eq_nil_of_length_eq_zero nothing
    rw [if_neg some, if_neg (Nat.not_lt.mpr short), stores.dataAddress_eq, Except.ok_bind]
    exact stores.characters.resolve_left nothing

/-- A text that the observed program has stored is read as it is: its bytes are those
that encode it, and every decoder that follows the Encoding Standard makes the text of
them. -/
theorem Stores.reads_back {decoders : Text.Decoders} (follows : decoders.FollowStandard)
    (known : width = 1 ∨ width = 2) (short : (encode width text).length ≤ 0x100000)
    (stores : Stores m base width capacity a text) :
    (ForeignString.of base width).bytes m = .ok (encode width text) ∧
      (ForeignString.of base width).text decoders m = .ok text := by
  have same : ForeignString.of base width = ⟨base, width⟩ := by
    rcases known with rfl | rfl <;> rfl
  have read := stores.bytes_eq known short
  rw [same]
  refine ⟨read, ?_⟩
  rw [ForeignString.text, read]
  rcases known with rfl | rfl
  · exact congrArg Except.ok ((follows.utf8 _).trans (Text.decodeUtf8_encodeUtf8 text))
  · exact congrArg Except.ok ((follows.utf16 _).trans (Text.decodeUtf16_encodeUtf16 text))

/-- A byte order mark and a character of two units, behind the pointer of a wide text
with room for one character more than the head has. -/
def marked : String :=
  String.ofList ['\uFEFF', '𝄞']

def markedMemory : Memory :=
  (Snapshot.ofRegion 0x1000 #[0x20, 0x10, 0, 0, 0, 0, 0, 0, 0, 0, 0, 0, 0, 0, 0, 0, 3, 0, 0, 0, 0, 0, 0, 0,
    8, 0, 0, 0, 0, 0, 0, 0, 0xff, 0xfe, 0x34, 0xd8, 0x1e, 0xdd]).memory

example : encode 2 marked = [0xff, 0xfe, 0x34, 0xd8, 0x1e, 0xdd] := by
  decide

theorem reads_back_at_marked : Text.Decoders.standard.FollowStandard ∧
    (encode 2 marked).length ≤ 0x100000 ∧ Stores markedMemory 0x1000 2 8 0x1020 marked ∧
    (ForeignString.of 0x1000 2).bytes markedMemory = .ok (encode 2 marked) ∧
    (ForeignString.of 0x1000 2).text .standard markedMemory = .ok marked := by
  have follows : Text.Decoders.standard.FollowStandard := ⟨fun _ => rfl, fun _ => rfl⟩
  have short : (encode 2 marked).length ≤ 0x100000 := by decide
  have stores : Stores markedMemory 0x1000 2 8 0x1020 marked :=
    ⟨by decide, by decide, .behind (by decide) (by decide), .inr (by decide)⟩
  exact ⟨follows, short, stores, Stores.reads_back follows (.inr rfl) short stores⟩

end ForeignString
end MemoryAtlas
