import DiceTable.Dice.Formula
import DiceTable.Roll.Die
import DiceTable.Roll.Modifier

/-!
# Rolling

Chance is a stream of 32-bit words.  A die with `sides` sides multiplies a word by `sides`; the
upper half of the product, plus one, is the face.  When the lower half is so large that the face
might be drawn too seldom, a second word decides whether the face moves up by one.

Terms are rolled in order and added up as they come.  A sum that leaves the range of totals ends
the roll there and then.
-/

namespace DiceTable.Dice

/-- An endless supply of random 32-bit words. -/
abbrev WordStream := Nat → UInt32

/-- Two to the 32: one more than the largest word. -/
def wordCount : Nat := 4294967296

/-- The face that a die shows, given the number of words drawn before, and the number drawn
after. -/
def drawFace (words : WordStream) (drawn sides : Nat) : Nat × Nat :=
  let product := (words drawn).toNat * sides
  let face := product / wordCount + 1
  let low := product % wordCount
  if wordCount - sides < low then
    let carry := low + (words (drawn + 1)).toNat * sides / wordCount
    (if wordCount ≤ carry then face + 1 else face, drawn + 2)
  else (face, drawn + 1)

/-- A part of a term that is rolled or added at one go. -/
inductive Component where
  | die (sides : Nat) (negative : Bool)
  | amount (value : Nat) (negative : Bool)
  deriving DecidableEq, Repr

/-- The components of a term. -/
def components : Term → List Component
  | .dice count sides negative => List.replicate count (.die sides negative)
  | .flat value negative => [.amount value negative]

/-- A number with the sign given. -/
def withSign (negative : Bool) (n : Nat) : Int := if negative then -(n : Int) else n

/-- What lies on the table while a roll goes on: dice and modifiers, last first, their sum, and the
number of words drawn. -/
structure Tray where
  dice : List Die := []
  modifiers : List Modifier := []
  total : Int := 0
  drawn : Nat := 0
  deriving DecidableEq, Repr

/-- A roll that cannot go on: the reason, and the number of words drawn. -/
structure Stop where
  fault : DiceFault
  drawn : Nat
  deriving DecidableEq, Repr

/-- Rolls one component. -/
def Tray.add (words : WordStream) (tray : Tray) : Component → Except Stop Tray
  | .die sides negative =>
    let (face, drawn) := drawFace words tray.drawn sides
    let value := withSign negative face
    match Word.addSigned64? tray.total value with
    | some total =>
      .ok
        { tray with dice := Die.standard sides value :: tray.dice, total := total, drawn := drawn }
    | none => .error ⟨.totalOutOfRange, drawn⟩
  | .amount value negative =>
    if (value : Int) ≤ Word.maxSigned64 then
      let amount := withSign negative value
      match Word.addSigned64? tray.total amount with
      | some total =>
        .ok { tray with modifiers := Modifier.ofSigned amount :: tray.modifiers, total := total }
      | none => .error ⟨.totalOutOfRange, tray.drawn⟩
    else .error ⟨.amountTooLarge, tray.drawn⟩

/-- The result of a roll. -/
structure Outcome where
  dice : List Die
  modifiers : List Modifier
  total : Int
  deriving DecidableEq, Repr

/-- The result that lies on the table. -/
def Tray.outcome (tray : Tray) : Outcome := ⟨tray.dice.reverse, tray.modifiers.reverse, tray.total⟩

/-- Rolls the terms, and says how many words were drawn. -/
def simulate (words : WordStream) (terms : List Term) : Except DiceError Outcome × Nat :=
  match (terms.flatMap components).foldlM (Tray.add words) {} with
  | .ok tray => (.ok tray.outcome, tray.drawn)
  | .error stop => (.error ⟨Term.joined terms, stop.fault⟩, stop.drawn)

/-- Reads a formula and rolls it. -/
def roll (words : WordStream) (formula : String) : Except DiceError Outcome := do
  let terms ← Formula.parse formula
  (simulate words terms).1

end DiceTable.Dice
