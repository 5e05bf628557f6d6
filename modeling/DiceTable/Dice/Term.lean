import DiceTable.Word

/-!
# Terms

A roll is a sum of signed terms.  A term is a group of like dice or a flat number.
-/

namespace DiceTable

/-- A term of a roll. -/
inductive Term where
  /-- So many dice with so many sides each. -/
  | dice (count sides : Nat) (negative : Bool)
  /-- A fixed amount. -/
  | flat (value : Nat) (negative : Bool)
  deriving DecidableEq, Repr

namespace Term

/-- The most dice that one group may have. -/
def maxCount : Nat := 1000

/-- Whether the term is subtracted. -/
def isNegative : Term → Bool
  | .dice _ _ negative => negative
  | .flat _ negative => negative

/-- The sign of a term. -/
def sign (negative : Bool) : Char := if negative then '-' else '+'

/-- The characters of a term: its sign, and `2d6` or a number. -/
def chars : Term → List Char
  | .dice count sides negative =>
    sign negative :: (Nat.toDigits 10 count ++ 'd' :: Nat.toDigits 10 sides)
  | .flat value negative => sign negative :: Nat.toDigits 10 value

/-- The text of a term. -/
def text (t : Term) : String := String.ofList t.chars

/-- The terms one after the other. -/
def joined (terms : List Term) : String := String.ofList (terms.flatMap chars)

/-- Whether the term is within the range that a formula may state. -/
def isRollable : Term → Bool
  | .dice count sides _ => 1 ≤ count && count ≤ maxCount && 1 ≤ sides && sides ≤ Word.maxUnsigned32
  | .flat value _ => (value : Int) ≤ Word.maxSigned64

end Term

end DiceTable
