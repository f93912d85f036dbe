import MemoryAtlas.Decimal.Binary

namespace MemoryAtlas
namespace Decimal

/-!
The shortest decimal that reads back.

A number of a binary format owns the interval of reals that round to it, its
ends included when the significand is even.  Among the decimal grids, coarsest
first, the first one with a point in that interval gives the digits, and of
two such points the nearer one is taken.  Only the two neighbours of the
number on each grid have to be tried.  All arithmetic is exact.
-/

/-- A positive fraction. -/
structure Ratio where
  num : Nat
  den : Nat
deriving Repr

/-- The fraction `m * 2 ^ q`. -/
def Ratio.ofScaled (m : Nat) (q : Int) : Ratio :=
  if 0 <= q then ⟨m * Nat.pow 2 q.toNat, 1⟩ else ⟨m, Nat.pow 2 (-q).toNat⟩

/-- The interval of reals that round to a number: its two ends, and whether
they belong to it. -/
structure Interval where
  low : Ratio
  high : Ratio
  closed : Bool
deriving Repr

/-- The interval of `m * 2 ^ q` in a format.  Below a power of two the grid is
twice as fine. -/
def Format.interval (f : Format) (m : Nat) (q : Int) : Interval where
  low :=
    if m == wordCount (f.precision - 1) && f.least < q then .ofScaled (4 * m - 1) (q - 2)
    else .ofScaled (2 * m - 1) (q - 1)
  high := .ofScaled (2 * m + 1) (q - 1)
  closed := m % 2 == 0

/-- Whether `d * 10 ^ k` lies in the interval. -/
def Interval.contains (i : Interval) (d : Nat) (k : Int) : Bool :=
  let up := if 0 <= k then Nat.pow 10 k.toNat else 1
  let down := if 0 <= k then 1 else Nat.pow 10 (-k).toNat
  let lowSide := (i.low.num * down, d * up * i.low.den)
  let highSide := (d * up * i.high.den, i.high.num * down)
  if i.closed then lowSide.1 <= lowSide.2 && highSide.1 <= highSide.2
  else lowSide.1 < lowSide.2 && highSide.1 < highSide.2

/-- The grid point of step `10 ^ k` that stands for the number, if the grid
has one in the interval. -/
def gridPoint? (i : Interval) (v : Ratio) (k : Int) : Option Nat :=
  let num := if 0 <= k then v.num else v.num * Nat.pow 10 (-k).toNat
  let den := if 0 <= k then v.den * Nat.pow 10 k.toNat else v.den
  let below := num / den
  let above := below + 1
  match below != 0 && i.contains below k, i.contains above k with
  | false, false => none
  | true, false => some below
  | false, true => some above
  | true, true => if 2 * (num % den) < den then some below else some above

/-- The first grid from step `10 ^ k` downward that has a point. -/
def firstGrid (i : Interval) (v : Ratio) : Nat -> Int -> Nat × Int
  | 0, k => (v.num / v.den, k)
  | fuel + 1, k =>
    match gridPoint? i v k with
    | some d => (d, k)
    | none => firstGrid i v fuel (k - 1)

/-- The digits `d` and the exponent `k` of the shortest decimal `d * 10 ^ k`
that rounds to the positive number `m * 2 ^ q`. -/
def Format.shortest (f : Format) (m : Nat) (q : Int) : Nat × Int :=
  let v := Ratio.ofScaled m q
  let length := fun n => (Nat.toDigits 10 n).length
  let top := (length v.num : Int) - length v.den + 1
  firstGrid (f.interval m q) v (top - min q 0 + 1).toNat top

/-- The decimal `d * 10 ^ k` written out with all its places and no exponent.
Zeros at the end of the fraction never arise from shortest digits. -/
def positional (d : Nat) (k : Int) : String :=
  let digits := Nat.toDigits 10 d
  if 0 <= k then String.ofList (digits ++ List.replicate k.toNat '0')
  else
    let places := (-k).toNat
    if digits.length <= places then
      "0." ++ String.ofList (List.replicate (places - digits.length) '0' ++ digits)
    else
      String.ofList (digits.take (digits.length - places)) ++ "."
        ++ String.ofList (digits.drop (digits.length - places))

/-- The text of a number of a format: shortest digits, written positionally
whatever the size, with the sign of zero kept. -/
def Format.text (f : Format) : Binary -> String
  | .notANumber => "NaN"
  | .infinite negative => if negative then "-inf" else "inf"
  | .finite negative m q =>
    let size :=
      if m == 0 then "0"
      else
        let (m, q) := f.normal f.precision m q
        let (d, k) := f.shortest m q
        positional d k
    if negative then "-" ++ size else size

end Decimal
end MemoryAtlas
