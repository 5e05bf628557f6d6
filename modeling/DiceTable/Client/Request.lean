import DiceTable.Client.Error
import DiceTable.Dice.Draw
import DiceTable.Roll.Record

/-!
# Requests to roll

A request names a formula, a character, an occasion and perhaps a weapon.  It is *normalized*
before use: blanks around the fields are dropped, and the formula and the character may not be
blank.  Rolling a normalized request authors a new roll.
-/

namespace DiceTable

/-- A request to roll. -/
structure RollRequest where
  formula : String
  character : String
  rollType : String
  weapon : Option String := none
  deriving DecidableEq, Repr

namespace RollRequest

/-- The text, unless it is empty. -/
def nonempty? (s : String) : Option String := if s.isEmpty then none else some s

/-- The request without blanks around its fields; a blank formula is reported first. -/
def normalized (r : RollRequest) : Except ClientError RollRequest :=
  let formula := Text.trim r.formula
  let character := Text.trim r.character
  if formula.isEmpty then .error (.missingField .formula)
  else if character.isEmpty then .error (.missingField .character)
  else
    .ok {
      formula := formula
      character := character
      rollType := Text.trim r.rollType
      weapon := r.weapon.bind fun w => nonempty? (Text.trim w) }

/-- Rolls the formula of a request for a table. -/
def author (r : RollRequest) (table : TableId) (source : RollSource) (now : Timestamp)
    (words : Dice.WordStream) : Except ClientError NewRoll :=
  match Dice.roll words r.formula with
  | .error e => .error (.dice e)
  | .ok outcome =>
    .ok {
      table := table
      formula := r.formula
      dice := outcome.dice
      modifiers := outcome.modifiers
      total := outcome.total
      context := {
        rollType := nonempty? r.rollType
        character := some r.character
        weapon := r.weapon }
      source := source
      timestamp := now }

end RollRequest

end DiceTable
