import DiceTable.Dice.Error
import DiceTable.Text.Blank
import DiceTable.Text.Lowercase

/-!
# Reading formulas

A formula such as `2d6 + 3` is read in three steps.  It is *normalized*: blanks are dropped and
letters become lower case.  It is cut into *pieces* before every sign, so that a sign stands only
at the front of a piece.  Each piece is read as a term, if it is one.

Reading is lenient.  A piece that is no term is skipped, also a group with sides that no die has,
and a count that is missing, zero or not a number means one die.  Too many dice, or an amount that
is too large, fail the whole formula.
-/

namespace DiceTable.Formula

/-- The characters of a formula without blanks, in lower case. -/
def normalize (formula : String) : List Char :=
  (formula.toList.filter fun c => !Text.isBlank c).flatMap Text.lowercase

/-! ## Pieces -/

/-- Whether a piece begins at this character. -/
def isSign (c : Char) : Bool := c == '+' || c == '-'

/-- Puts a character in front of the first piece, or makes it a piece of its own if the first piece
begins with a sign. -/
def consPiece (c : Char) : List (List Char) → List (List Char)
  | (d :: piece) :: rest =>
    if isSign d then [c] :: (d :: piece) :: rest else (c :: d :: piece) :: rest
  | rest => [c] :: rest

/-- The pieces of a normalized formula. -/
def pieces (cs : List Char) : List (List Char) := cs.foldr consPiece []

/-! ## Terms -/

/-- The number that a run of digits denotes; nothing if there is no digit or anything else. -/
def digits? (cs : List Char) : Option Nat :=
  if !cs.isEmpty && cs.all Char.isDigit then some (Nat.ofDigitChars 10 cs 0) else none

/-- The number of a run of digits that may have a plus sign in front. -/
def number? : List Char → Option Nat
  | '+' :: cs => digits? cs
  | cs => digits? cs

/-- Whether the piece is subtracted, and what it has behind its sign. -/
def unsign : List Char → Bool × List Char
  | '-' :: body => (true, body)
  | '+' :: body => (false, body)
  | body => (false, body)

/-- Reads a group of dice from what stands before and behind its `d`. -/
def readDice (negative : Bool) (before behind : List Char) : Except DiceFault (Option Term) :=
  match (number? behind).filter fun n => 0 < n && n ≤ Word.maxUnsigned32 with
  | none => .ok none
  | some sides =>
    match digits? before with
    | none => .ok (some (.dice 1 sides negative))
    | some count =>
      if count = 0 then .ok (some (.dice 1 sides negative))
      else if count ≤ Term.maxCount then .ok (some (.dice count sides negative))
      else .error (.tooManyDice before sides)

/-- Reads a flat number. -/
def readFlat (negative : Bool) (body : List Char) : Except DiceFault (Option Term) :=
  match digits? body with
  | none => .ok none
  | some value =>
    if (value : Int) ≤ Word.maxSigned64 then .ok (some (.flat value negative))
    else .error (.tooLarge body)

/-- Reads a piece: a term, nothing, or a fault. -/
def readPiece (piece : List Char) : Except DiceFault (Option Term) :=
  let (negative, body) := unsign piece
  match body.dropWhile (· != 'd') with
  | _ :: behind => readDice negative (body.takeWhile (· != 'd')) behind
  | [] => readFlat negative body

/-- The terms of a normalized formula. -/
def readTerms (cs : List Char) : Except DiceFault (List Term) :=
  if cs.isEmpty then .error .empty
  else do
    let terms := (← (pieces cs).mapM readPiece).reduceOption
    if terms.isEmpty then .error .unusable else return terms

/-- The terms of a formula. -/
def parse (formula : String) : Except DiceError (List Term) :=
  (readTerms (normalize formula)).mapError (⟨formula, ·⟩)

end DiceTable.Formula
