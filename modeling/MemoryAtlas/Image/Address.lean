import MemoryAtlas.Text.Numeral

namespace MemoryAtlas

/-!
Addresses and words of the observed memory.

Addresses are sixty-four-bit words and wrap around.  Sizes, offsets and counts
are natural numbers, so that only a step from one address to another can wrap.
Several bytes that make up one number are stored with the low byte first.
-/

/-- A place in the observed memory. -/
abbrev Address := UInt64

namespace Address

/-- The address `n` bytes further on, around the end of the address space. -/
def shift (a : Address) (n : Nat) : Address :=
  a + UInt64.ofNat n

/-- Where a range of `n` bytes ends, or the last address when that lies beyond
the address space. -/
def rangeEnd (a : Address) (n : Nat) : Nat :=
  min (a.toNat + n) (wordCount 64 - 1)

/-- The written form of an address. -/
def text (a : Address) : String :=
  Text.hex a.toNat

theorem shift_zero (a : Address) : a.shift 0 = a :=
  UInt64.add_zero a

theorem shift_shift (a : Address) (i j : Nat) : (a.shift i).shift j = a.shift (i + j) := by
  rw [shift, shift, shift, UInt64.ofNat_add, UInt64.add_assoc]

/-- As long as the address space reaches, a step does not wrap. -/
theorem toNat_shift {a : Address} {n : Nat} (within : a.toNat + n < wordCount 64) :
    (a.shift n).toNat = a.toNat + n := by
  have words : wordCount 64 = 2 ^ 64 := rfl
  rw [shift, UInt64.toNat_add, UInt64.toNat_ofNat']
  omega

end Address

/-- The number whose bytes, low byte first, are given. -/
def littleEndian : List UInt8 -> Nat
  | [] => 0
  | b :: rest => b.toNat + 256 * littleEndian rest

/-- The lowest `width` bytes of a number, low byte first. -/
def toLittleEndian : Nat -> Nat -> List UInt8
  | 0, _ => []
  | width + 1, n => UInt8.ofNat n :: toLittleEndian width (n / 256)

/-- The number that `width` bytes store, read as two's complement. -/
def asSigned (width n : Nat) : Int :=
  Int.bmod n (wordCount (8 * width))

theorem littleEndian_lt (bytes : List UInt8) :
    littleEndian bytes < wordCount (8 * bytes.length) := by
  induction bytes with
  | nil => decide
  | cons b rest ih =>
    have hb : b.toNat < 256 := b.toNat_lt
    rw [littleEndian, List.length_cons, Nat.mul_succ, wordCount_add_eight]
    omega

theorem length_toLittleEndian (width n : Nat) : (toLittleEndian width n).length = width := by
  induction width generalizing n with
  | zero => rfl
  | succ width ih => simp [toLittleEndian, ih]

theorem littleEndian_toLittleEndian (width n : Nat) :
    littleEndian (toLittleEndian width n) = n % wordCount (8 * width) := by
  induction width generalizing n with
  | zero =>
    show 0 = n % 1
    exact (Nat.mod_one n).symm
  | succ width ih =>
    rw [toLittleEndian, littleEndian, ih, Nat.mul_succ, wordCount_add_eight, Nat.mod_mul]
    simp

end MemoryAtlas
