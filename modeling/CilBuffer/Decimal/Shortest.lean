import CilBuffer.Binary.Format

/-!
# Shortest decimals

A positive binary number is written with the fewest decimal digits that read back as that number,
and of two such numerals with the nearer one. The numbers that read back form an interval around
it, and powers of ten are tried from coarse to fine until a multiple of one lies inside.
-/

namespace CilBuffer

/-- The numeral `digits * 10 ^ exponent`. -/
structure Decimal where
  digits : Nat
  exponent : Int
  deriving DecidableEq, Repr

/-- The real numbers that are rounded to one binary number, the centre. All three points are
multiples of `2 ^ exponent`; the ends belong to the interval if it is closed. -/
structure RoundingInterval where
  low : Nat
  centre : Nat
  high : Nat
  exponent : Int
  closed : Bool
  deriving DecidableEq, Repr

/-- Half a place on either side, in quarters of a place. Below a leading one followed by zeros the
places are half as wide. A tie goes to the even significand, so an even one owns the ends. -/
def Magnitude.interval (f : Format) (x : Magnitude) : RoundingInterval where
  low := 4 * x.significand - if x.significand = Nat.pow 2 f.fractionBits then 1 else 2
  centre := 4 * x.significand
  high := 4 * x.significand + 2
  exponent := x.exponent - 2
  closed := x.significand % 2 = 0

namespace RoundingInterval

/-- A multiple of `10 ^ grid` and one of `2 ^ exponent` compare as their products with these. -/
def scales (i : RoundingInterval) (grid : Int) : Nat × Nat :=
  (Nat.pow 10 grid.toNat * Nat.pow 2 (-i.exponent).toNat,
    Nat.pow 2 i.exponent.toNat * Nat.pow 10 (-grid).toNat)

def contains (i : RoundingInterval) (d : Decimal) : Bool :=
  let (ten, two) := i.scales d.exponent
  if i.closed then i.low * two ≤ d.digits * ten ∧ d.digits * ten ≤ i.high * two
  else i.low * two < d.digits * ten ∧ d.digits * ten < i.high * two

/-- The multiple of `10 ^ grid` inside the interval that is nearest to the centre, the upper one if
two are equally near. -/
def onGrid? (i : RoundingInterval) (grid : Int) : Option Decimal :=
  let (ten, two) := i.scales grid
  let below : Decimal := ⟨i.centre * two / ten, grid⟩
  let above : Decimal := ⟨below.digits + 1, grid⟩
  if i.contains below then
    if i.contains above && (below.digits + above.digits) * ten ≤ 2 * i.centre * two then some above
    else some below
  else if i.contains above then some above
  else none

/-- The first decimal found on the given number of grids, each ten times as fine as the one before
it; `finest` if there is none. -/
def search (i : RoundingInterval) (finest : Decimal) : Nat → Decimal
  | 0 => finest
  | n + 1 => (i.onGrid? (finest.exponent + (n + 1 : Nat))).getD (i.search finest n)

end RoundingInterval

/-- The exact decimal: a negative power of two is the same power of ten, times a power of five. -/
def Magnitude.exact (x : Magnitude) : Decimal :=
  ⟨x.significand * Nat.pow 2 x.exponent.toNat * Nat.pow 5 (-x.exponent).toNat, min 0 x.exponent⟩

/-- The shortest decimal of a positive number. No power of ten beyond the bits of its whole part
can come near it, and on the grid of the exact decimal the search ends. -/
def Magnitude.shortest (f : Format) (x : Magnitude) : Decimal :=
  let finest := x.exact
  let coarsest := (x.significand.log2 + 1 + x.exponent).toNat
  (x.interval f).search finest (coarsest - finest.exponent).toNat

end CilBuffer
