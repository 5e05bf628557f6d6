/-!
# Binary floating-point numbers

The finite numbers of the 64-bit binary format, as a sign, a whole mantissa and a power of two, and
their arithmetic: the exact result rounded to the nearest number of the format, ties going to the
even mantissa.  A result beyond the largest number is `none`.

The form is unique: a mantissa has 53 bits unless the exponent is the least one.  Zero keeps its
sign.
-/

namespace DiceTable.Decimal

/-- The number `mantissa * 2 ^ exponent`, negated when `negative` is set. -/
structure Binary64 where
  negative : Bool
  mantissa : Nat
  exponent : Int
  deriving DecidableEq, Repr

/-- A power of two. -/
def twoTo (n : Nat) : Nat := Nat.pow 2 n

/-- A power of ten. -/
def tenTo (n : Nat) : Nat := Nat.pow 10 n

namespace Binary64

/-- The exponent of the smallest numbers. -/
def leastExponent : Int := -1074

/-- The exponent of the largest numbers. -/
def greatestExponent : Int := 971

/-- The quotient rounded to the nearest whole number, a half going to the even neighbour. -/
def divNearestEven (num den : Nat) : Nat :=
  let q := num / den
  let r := num % den
  if 2 * r < den then q
  else if den < 2 * r then q + 1
  else if q % 2 = 0 then q else q + 1

/-- The ratio `num * 2 ^ shift : den` as a fraction of whole numbers. -/
def shifted (num den : Nat) (shift : Int) : Nat × Nat :=
  (num * twoTo shift.toNat, den * twoTo (-shift).toNat)

/-- The exponent at which the mantissa of `num / den` has 53 bits, or the least exponent. -/
def fittingExponent (num den : Nat) : Int :=
  let guess : Int := (Nat.log2 num : Int) - Nat.log2 den - 53
  let (n, d) := shifted num den (-guess)
  max leastExponent (if n < d * twoTo 53 then guess else guess + 1)

/-- The number nearest to `num * 2 ^ shift / den`, with the sign given. -/
def nearest? (negative : Bool) (num den : Nat) (shift : Int) : Option Binary64 :=
  if num = 0 then some ⟨negative, 0, leastExponent⟩
  else
    let (num, den) := shifted num den shift
    let exponent := fittingExponent num den
    let (n, d) := shifted num den (-exponent)
    let mantissa := divNearestEven n d
    let (mantissa, exponent) :=
      if mantissa = twoTo 53 then (twoTo 52, exponent + 1) else (mantissa, exponent)
    if exponent ≤ greatestExponent then some ⟨negative, mantissa, exponent⟩ else none

/-- The number nearest to a whole number. -/
def ofNat? (n : Nat) : Option Binary64 := nearest? false n 1 0

/-- The rounded product. -/
def mul? (a b : Binary64) : Option Binary64 :=
  nearest? (a.negative != b.negative) (a.mantissa * b.mantissa) 1 (a.exponent + b.exponent)

/-- The rounded quotient; `b` is not zero. -/
def div? (a b : Binary64) : Option Binary64 :=
  nearest? (a.negative != b.negative) a.mantissa b.mantissa (a.exponent - b.exponent)

/-- The number with its sign turned. -/
def neg (a : Binary64) : Binary64 := { a with negative := !a.negative }

/-- Zero of either sign. -/
def zero (negative : Bool) : Binary64 := ⟨negative, 0, leastExponent⟩

end Binary64

end DiceTable.Decimal
