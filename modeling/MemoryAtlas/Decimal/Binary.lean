import MemoryAtlas.Word

namespace MemoryAtlas
namespace Decimal

/-!
Binary floating point numbers taken apart.

A format says how many bits the significand has and what the smallest exponent
is.  A word of the format is a sign and either one of the two special values
or an exact number `significand * 2 ^ exponent`.
-/

/-- A binary interchange format.  `precision` counts the significand bits with
the hidden one, and `least` is the exponent of the last bit of the smallest
numbers. -/
structure Format where
  bits : Nat
  precision : Nat
  least : Int
deriving Repr, DecidableEq

/-- The four-byte format. -/
def single : Format := ⟨32, 24, -149⟩

/-- The eight-byte format. -/
def double : Format := ⟨64, 53, -1074⟩

/-- What a word of a format says. -/
inductive Binary where
  | notANumber
  | infinite (negative : Bool)
  | finite (negative : Bool) (significand : Nat) (exponent : Int)
deriving Repr, DecidableEq

/-- Reads a word of the format. -/
def Format.decode (f : Format) (word : Nat) : Binary :=
  let stored := f.precision - 1
  let fieldSize := f.bits - f.precision
  let fraction := word % wordCount stored
  let field := word / wordCount stored % wordCount fieldSize
  let negative := word / wordCount (f.bits - 1) % 2 == 1
  if field == wordCount fieldSize - 1 then
    if fraction == 0 then .infinite negative else .notANumber
  else if field == 0 then .finite negative fraction f.least
  else .finite negative (wordCount stored + fraction) (f.least + (field : Int) - 1)

/-- The same number with a significand that fills the format, or with the
least exponent when it is too small for that.  Used when a number of a narrow
format is shown in a wide one. -/
def Format.normal (f : Format) : Nat -> Nat -> Int -> Nat × Int
  | 0, m, q => (m, q)
  | fuel + 1, m, q =>
    if wordCount (f.precision - 1) <= m || q <= f.least then (m, q)
    else f.normal fuel (2 * m) (q - 1)

end Decimal
end MemoryAtlas
