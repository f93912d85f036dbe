import Mathlib.Data.List.Basic
import MemoryAtlas.Types.Scalar

namespace MemoryAtlas

/-!
# Integers in a few bytes

An integer is stored low byte first and, if it can be negative, as two's
complement.  With `8 * width` bits there are as many integers to be stored as there
are strings of `width` bytes, and storing and reading are inverse to each other:
every integer in the range is read back, and every string of the right length is
the stored form of what is read from it.

Numbers that can be negative are read here as remainders around zero.  Programs
usually do it otherwise: they move the bytes to the top of a word, so that the sign
is the sign of the word, and move them back with the sign kept.  Both give the same
number at every width, that of the whole word included.
-/

theorem wordCount_pos (bits : Nat) : 0 < wordCount bits :=
  Nat.two_pow_pos bits

theorem wordCount_eq_double {width : Nat} (positive : 0 < width) :
    wordCount (8 * width) = 2 * wordCount (8 * width - 1) := by
  have split : 8 * width = 8 * width - 1 + 1 := by omega
  show 2 ^ (8 * width) = 2 * 2 ^ (8 * width - 1)
  rw [split, Nat.pow_succ, Nat.mul_comm]
  rfl

/-! ## Stored forms -/

/-- An integer in `width` bytes of two's complement, low byte first. -/
def twosComplement (width : Nat) (value : Int) : List UInt8 :=
  toLittleEndian width (value % wordCount (8 * width)).toNat

theorem length_twosComplement (width : Nat) (value : Int) : (twosComplement width value).length = width :=
  length_toLittleEndian width _

/-- The bytes of the number that some bytes make up are these bytes. -/
theorem toLittleEndian_littleEndian (bytes : List UInt8) :
    toLittleEndian bytes.length (littleEndian bytes) = bytes := by
  induction bytes with
  | nil => rfl
  | cons b rest inductionHypothesis =>
      have small : b.toNat < 256 := b.toNat_lt
      have low : UInt8.ofNat (littleEndian (b :: rest)) = b := by
        apply UInt8.toNat_inj.mp
        rw [UInt8.toNat_ofNat', littleEndian]
        omega
      have high : littleEndian (b :: rest) / 256 = littleEndian rest := by
        rw [littleEndian]
        omega
      rw [List.length_cons, toLittleEndian, low, high, inductionHypothesis]

theorem littleEndian_twosComplement (width : Nat) (value : Int) :
    (littleEndian (twosComplement width value) : Int) = value % wordCount (8 * width) := by
  have some : (0 : Int) < wordCount (8 * width) := Int.natCast_pos.mpr (wordCount_pos _)
  have remains := Int.emod_nonneg value (Int.ne_of_gt some)
  rw [twosComplement, littleEndian_toLittleEndian, Int.natCast_emod, Int.toNat_of_nonneg remains,
    Int.emod_emod]

/-- The remainder of an integer determines its stored form. -/
theorem twosComplement_of_emod_eq {width : Nat} {bytes : List UInt8} {value : Int}
    (length : bytes.length = width) (same : value % wordCount (8 * width) = littleEndian bytes) :
    twosComplement width value = bytes := by
  rw [twosComplement, same, Int.toNat_natCast, ← length, toLittleEndian_littleEndian]

/-! ## Numbers that can be negative -/

/-- A stored number is read as the signed number that leaves the same remainder. -/
theorem asSigned_eq_of_emod_eq {width raw : Nat} {value : Int} (positive : 0 < width)
    (low : -(wordCount (8 * width - 1) : Int) ≤ value) (high : value < wordCount (8 * width - 1))
    (stored : (raw : Int) = value % wordCount (8 * width)) : asSigned width raw = value := by
  have double := wordCount_eq_double positive
  rw [asSigned, stored, Int.emod_bmod]
  refine Int.bmod_eq_of_le ?_ ?_ <;> omega

theorem asSigned_bounds {width : Nat} (positive : 0 < width) (raw : Nat) :
    -(wordCount (8 * width - 1) : Int) ≤ asSigned width raw ∧
      asSigned width raw < wordCount (8 * width - 1) := by
  have double := wordCount_eq_double positive
  have low := Int.le_bmod (x := raw) (wordCount_pos (8 * width))
  have high := Int.bmod_lt (x := raw) (wordCount_pos (8 * width))
  rw [asSigned]
  omega

/-- Bytes are read as a number exactly if they are its stored form and it is in the
range. -/
theorem asSigned_eq_iff {width : Nat} (positive : 0 < width) {bytes : List UInt8}
    (length : bytes.length = width) {value : Int} :
    asSigned width (littleEndian bytes) = value <->
      (-(wordCount (8 * width - 1) : Int) ≤ value ∧ value < wordCount (8 * width - 1)) ∧
        twosComplement width value = bytes := by
  constructor
  · rintro rfl
    refine ⟨asSigned_bounds positive _, twosComplement_of_emod_eq length ?_⟩
    have fits := littleEndian_lt bytes
    rw [length] at fits
    rw [asSigned, Int.bmod_emod]
    exact Int.emod_eq_of_lt (Int.natCast_nonneg _) (Int.ofNat_lt.mpr fits)
  · rintro ⟨⟨low, high⟩, rfl⟩
    exact asSigned_eq_of_emod_eq positive low high (littleEndian_twosComplement width value)

/-- A number is read from memory exactly if its stored form is there and it is in the
range. -/
theorem Memory.readInt_eq_ok_iff {m : Memory} {a : Address} {width : Nat} (positive : 0 < width) {value : Int} :
    m.readInt a width = .ok value <->
      (-(wordCount (8 * width - 1) : Int) ≤ value ∧ value < wordCount (8 * width - 1)) ∧
        m.read a width = .ok (twosComplement width value) := by
  rw [readInt, readNat]
  cases read : m.read a width with
  | error fault => simp [Except.map]
  | ok bytes =>
      simp only [Except.map, Except.ok.injEq]
      rw [asSigned_eq_iff positive (m.length_read read), eq_comm (b := bytes)]

/-- A stored number moved to the top of a word and back, with its sign kept. -/
def widened (width raw : Nat) : Int :=
  ((BitVec.ofNat 64 raw <<< (64 - 8 * width)).sshiftRight (64 - 8 * width)).toInt

/-- The way through the top of a word leads to the same number. -/
theorem widened_eq_asSigned {width raw : Nat} (positive : 0 < width) (narrow : width ≤ 8)
    (fits : raw < wordCount (8 * width)) : widened width raw = asSigned width raw := by
  rcases Nat.exists_eq_add_of_le (by omega : 8 * width ≤ 64) with ⟨gap, split⟩
  have room := Nat.two_pow_pos gap
  have word : 2 ^ 64 = 2 ^ gap * wordCount (8 * width) := by
    rw [split, Nat.pow_add, Nat.mul_comm]
    rfl
  have below : raw < 2 ^ 64 := word ▸ Nat.lt_of_lt_of_le fits (Nat.le_mul_of_pos_left _ room)
  have even : 2 ∣ wordCount (8 * width) := ⟨_, wordCount_eq_double positive⟩
  have moved : ((raw <<< gap : Nat) : Int) = (2 ^ gap : Nat) * (raw : Int) := by
    rw [Nat.shiftLeft_eq, Nat.mul_comm, Int.natCast_mul]
  rw [widened, show 64 - 8 * width = gap by omega, BitVec.toInt_sshiftRight, BitVec.toInt_shiftLeft,
    BitVec.toNat_ofNat, Nat.mod_eq_of_lt below, moved, word, Int.mod_bmod_mul_of_pos _ _ room even,
    Int.shiftRight_eq_div_pow, Int.mul_ediv_cancel_left _ (by omega), asSigned]

/-! ## Scalars -/

namespace Scalar

/-- The integers that the bytes of a scalar have room for. -/
def Represents (s : Scalar) (value : Int) : Prop :=
  if s.isSigned then -(wordCount (8 * s.width - 1) : Int) ≤ value ∧ value < wordCount (8 * s.width - 1)
  else 0 ≤ value ∧ value < wordCount (8 * s.width)

instance (s : Scalar) (value : Int) : Decidable (s.Represents value) :=
  inferInstanceAs (Decidable (if s.isSigned then _ ∧ _ else _ ∧ _))

variable {s : Scalar} {bytes : List UInt8}

/-- Of a whole string every byte takes part. -/
theorem decode_of_length (positive : 0 < s.width) (narrow : s.width ≤ 8) (length : bytes.length = s.width) :
    s.decode bytes = if s.isSigned then asSigned s.width (littleEndian bytes) else littleEndian bytes := by
  have whole : bytes.take (min s.width 8) = bytes := List.take_of_length_le (by omega)
  have nonempty : bytes.isEmpty = false := by
    rw [List.isEmpty_eq_false_iff, ← List.length_pos_iff]
    omega
  rw [decode, whole, nonempty, length]
  simp only [Bool.not_false, Bool.and_true]

/-- A string is decoded to an integer exactly if it is the stored form of the integer
and the scalar has room for it. -/
theorem decode_eq_iff (positive : 0 < s.width) (narrow : s.width ≤ 8) (length : bytes.length = s.width)
    {value : Int} : s.decode bytes = value <-> s.Represents value ∧ twosComplement s.width value = bytes := by
  rw [decode_of_length positive narrow length, Represents]
  cases s.isSigned with
  | true =>
      simp only [if_true]
      exact asSigned_eq_iff positive length
  | false =>
      simp only [Bool.false_eq_true, if_false]
      constructor
      · rintro rfl
        have fits := littleEndian_lt bytes
        rw [length] at fits
        have small : (littleEndian bytes : Int) < wordCount (8 * s.width) := Int.ofNat_lt.mpr fits
        exact ⟨⟨Int.natCast_nonneg _, small⟩,
          twosComplement_of_emod_eq length (Int.emod_eq_of_lt (Int.natCast_nonneg _) small)⟩
      · rintro ⟨⟨low, high⟩, rfl⟩
        rw [littleEndian_twosComplement, Int.emod_eq_of_lt low high]

end Scalar
end MemoryAtlas
