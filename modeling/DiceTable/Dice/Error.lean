import DiceTable.Dice.Term

/-!
# What is wrong with a roll

Every fault comes with the formula that it was found in.
-/

namespace DiceTable

/-- The reasons why a formula cannot be rolled. -/
inductive DiceFault where
  /-- Nothing is left of the formula without its blanks. -/
  | empty
  /-- No piece of the formula is a term. -/
  | unusable
  /-- A group states more dice than a group may have; the count is kept as written. -/
  | tooManyDice (count : List Char) (sides : Nat)
  /-- A number is too large to be added; it is kept as written. -/
  | tooLarge (digits : List Char)
  /-- A flat amount is too large to be added. -/
  | amountTooLarge
  /-- A running sum is not a possible total. -/
  | totalOutOfRange
  deriving DecidableEq, Repr

/-- The wording of a reason. -/
def DiceFault.message : DiceFault → String
  | .empty => "notation is empty"
  | .unusable => "no recognizable dice or numbers"
  | .tooManyDice count sides =>
    String.ofList count ++ "d" ++ toString sides ++ " rolls more than " ++ toString Term.maxCount ++
      " dice"
  | .tooLarge digits => String.ofList digits ++ " is too large"
  | .amountTooLarge => "modifier is too large"
  | .totalOutOfRange => "total is out of range"

/-- A formula with the reason why it cannot be rolled. -/
structure DiceError where
  formula : String
  fault : DiceFault
  deriving DecidableEq, Repr

/-- The wording of an error. -/
def DiceError.message (e : DiceError) : String :=
  "invalid dice notation '" ++ e.formula ++ "': " ++ e.fault.message

end DiceTable
