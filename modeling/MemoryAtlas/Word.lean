namespace MemoryAtlas

/-!
Machine words as numbers.
-/

/-- How many different words of `bits` bits there are. -/
def wordCount (bits : Nat) : Nat :=
  Nat.pow 2 bits

theorem wordCount_add_eight (bits : Nat) : wordCount (bits + 8) = 256 * wordCount bits := by
  show Nat.pow 2 bits * 2 * 2 * 2 * 2 * 2 * 2 * 2 * 2 = 256 * Nat.pow 2 bits
  omega

end MemoryAtlas
