import DiceTable.Decimal.Binary64

/-!
# The shortest decimal that reads back

The decimals that round to a given floating-point number fill an interval around it, ends included
when the mantissa is even.  The shortest decimal is a point of the coarsest grid of powers of ten
that meets the interval; of two such points it is the nearer one, and of two equally near the even
one.  If any point of a grid lies in the interval, so does one of the number's two neighbours on
that grid, hence only those are tried.
-/

namespace DiceTable.Decimal

/-- The decimal `digits * 10 ^ place`. -/
structure Scaled where
  digits : Nat
  place : Int
  deriving DecidableEq, Repr

namespace Binary64

/-- The half-width of the interval below the number, in quarters of its last place: the numbers
just below a power of two lie twice as dense. -/
def quartersBelow (x : Binary64) : Nat :=
  if x.mantissa = twoTo 52 ∧ leastExponent < x.exponent then 1 else 2

/-- Whether `d * 10 ^ place` rounds to `x`, apart from the sign. -/
def readsBack (x : Binary64) (d : Nat) (place : Int) : Bool :=
  let unit := twoTo (x.exponent - 2).toNat * tenTo (-place).toNat
  let point := d * (tenTo place.toNat * twoTo (2 - x.exponent).toNat)
  let low := (4 * x.mantissa - x.quartersBelow) * unit
  let high := (4 * x.mantissa + 2) * unit
  if x.mantissa % 2 = 0 then low ≤ point && point ≤ high else low < point && point < high

/-- The point of the grid `10 ^ place` that reads back as `x` and is nearest to it, if any. -/
def onGrid? (x : Binary64) (place : Int) : Option Nat :=
  let num := x.mantissa * twoTo x.exponent.toNat * tenTo (-place).toNat
  let den := twoTo (-x.exponent).toNat * tenTo place.toNat
  let below := num / den
  let above := below + 1
  let twice := 2 * (num % den)
  let nearer := if twice < den then below else if den < twice then above else
    if below % 2 = 0 then below else above
  let farther := if nearer = below then above else below
  if x.readsBack nearer place then some nearer
  else if x.readsBack farther place then some farther
  else none

/-- The first grid with a point, from `place` downwards. -/
def coarsest : Nat → Binary64 → Int → Scaled
  | 0, _, place => ⟨0, place⟩
  | tries + 1, x, place =>
    match x.onGrid? place with
    | some d => ⟨d, place⟩
    | none => coarsest tries x (place - 1)

/-- A power of ten at or above the number: its binary logarithm times `log₁₀ 2`, rounded up. -/
def topPlace (x : Binary64) : Int :=
  ((Nat.log2 x.mantissa : Int) + 1 + x.exponent) * 30103 / 100000 + 2

/-- The shortest decimal that reads back as `x`, apart from the sign. Seventeen digits suffice. -/
def shortest (x : Binary64) : Scaled :=
  if x.mantissa = 0 then ⟨0, 0⟩ else coarsest 24 x x.topPlace

end Binary64

end DiceTable.Decimal
