import DiceTable.Word
import DiceTable.Decimal.Shortest

/-!
# JSON numbers

A numeral without fraction and exponent denotes a whole number when that number is in the range of
signed or unsigned 64-bit numbers.  Every other numeral, and `-0`, denotes a floating-point number,
found as follows: as many leading digits as fit an unsigned 64-bit number are kept, and the kept
number is multiplied or divided by a power of ten, each step rounded.  A numeral whose number is
beyond the largest floating-point number denotes nothing.

A floating-point number is written with the fewest digits that read back.
-/

namespace DiceTable.Json

open DiceTable.Decimal

/-- A number: whole, or floating-point. -/
inductive Number where
  | whole (n : Int)
  | float (x : Binary64)
  deriving DecidableEq, Repr

/-- The parts of a numeral as written: digits before the point, after it, and the exponent with
its sign. -/
structure Numeral where
  negative : Bool
  integral : List Char
  fraction : List Char
  exponent : Option (Bool × List Char)
  deriving DecidableEq, Repr

/-- The number that decimal digits denote. -/
def digitsValue (cs : List Char) : Nat := Nat.ofDigitChars 10 cs 0

/-- Appends digits to `kept` as long as it fits, and returns how many digits were dropped. -/
def keepDigits (kept : Nat) : List Char → Nat × Nat
  | [] => (kept, 0)
  | c :: cs =>
    let next := kept * 10 + (c.toNat - '0'.toNat)
    if next ≤ Word.maxUnsigned64 then keepDigits next cs else (kept, cs.length + 1)

/-- The largest power of ten that is a floating-point number has this exponent. -/
def greatestPower : Nat := 308

/-- The number nearest to `10 ^ k`. -/
def powerOfTen? (k : Nat) : Option Binary64 := Binary64.ofNat? (tenTo k)

/-- `x * 10 ^ exponent`.  An exponent below the table of powers is taken off in steps of the
smallest one; three steps take every number to zero. -/
def scaleByTen? : Nat → Binary64 → Int → Option Binary64
  | 0, x, _ => some (Binary64.zero x.negative)
  | steps + 1, x, exponent =>
    if exponent.natAbs ≤ greatestPower then do
      let power ← powerOfTen? exponent.natAbs
      if 0 ≤ exponent then x.mul? power else x.div? power
    else if x.mantissa = 0 then some x
    else if 0 ≤ exponent then none
    else do
      let power ← powerOfTen? greatestPower
      scaleByTen? steps (← x.div? power) (exponent + greatestPower)

/-- The largest exponent that is counted. -/
def greatestExponent : Int := 2147483647

/-- The exponent as it is counted: held at the ends of the signed 32-bit range. -/
def clampExponent (e : Int) : Int := max (-greatestExponent - 1) (min greatestExponent e)

/-- The floating-point number of a numeral. -/
def Numeral.float? (n : Numeral) : Option Binary64 :=
  let (kept, dropped) := keepDigits 0 n.integral
  let (kept, droppedBehind) := keepDigits kept n.fraction
  let exponent : Int := dropped - (n.fraction.length - droppedBehind : Nat)
  let scale (e : Int) : Option Binary64 := do
    let x ← Binary64.ofNat? kept
    let y ← scaleByTen? 4 x e
    return if n.negative then y.neg else y
  match n.exponent with
  | none => scale exponent
  | some (minus, digits) =>
    let e : Int := digitsValue digits
    if greatestExponent < e then
      if kept ≠ 0 ∧ minus = false then none else some (Binary64.zero n.negative)
    else scale (clampExponent (if minus then exponent - e else exponent + e))

/-- The number that a numeral denotes, unless it is too large. -/
def Numeral.number? (n : Numeral) : Option Number :=
  if n.fraction.isEmpty && n.exponent.isNone then
    let value := digitsValue n.integral
    if n.negative then
      if value ≠ 0 ∧ Word.minSigned64 ≤ -(value : Int) then some (.whole (-value))
      else n.float?.map .float
    else if value ≤ Word.maxUnsigned64 then some (.whole value)
    else n.float?.map .float
  else n.float?.map .float

/-- The layout of floating-point numbers: from which exponent of the leading digit to which one
they are written out in full. -/
structure FloatLayout where
  leastPositional : Int
  greatestPositional : Int

/-- Numbers from `10 ^ -5` up to but not including `10 ^ 16` are written out in full. -/
def floatLayout : FloatLayout := ⟨-5, 15⟩

/-- The exponent, always with its sign. -/
def exponentText (e : Int) : List Char :=
  (if e < 0 then '-' else '+') :: Nat.toDigits 10 e.natAbs

/-- The digits of a decimal, laid out. -/
def layOut (layout : FloatLayout) (d : Scaled) : List Char :=
  let digits := Nat.toDigits 10 d.digits
  let leading : Int := d.place + digits.length - 1
  if layout.leastPositional ≤ leading ∧ leading ≤ layout.greatestPositional then
    if 0 ≤ d.place then digits ++ List.replicate d.place.toNat '0' ++ ['.', '0']
    else if 0 ≤ leading then
      digits.take (leading + 1).toNat ++ '.' :: digits.drop (leading + 1).toNat
    else '0' :: '.' :: List.replicate (-leading - 1).toNat '0' ++ digits
  else
    match digits with
    | [first] => first :: 'e' :: exponentText leading
    | first :: rest => first :: '.' :: rest ++ 'e' :: exponentText leading
    | [] => []

/-- The text of a floating-point number. -/
def floatText (x : Binary64) : List Char :=
  let body := if x.mantissa = 0 then ['0', '.', '0'] else layOut floatLayout x.shortest
  if x.negative then '-' :: body else body

/-- The text of a whole number. -/
def wholeText (n : Int) : List Char :=
  if n < 0 then '-' :: Nat.toDigits 10 n.natAbs else Nat.toDigits 10 n.natAbs

/-- The text of a number. -/
def Number.text : Number → List Char
  | .whole n => wholeText n
  | .float x => floatText x

end DiceTable.Json
