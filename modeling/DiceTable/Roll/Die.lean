import DiceTable.Json.Decode

/-!
# Dice that were rolled

A die has a value and, unless whoever rolled it did not say, a number of sides.  The value carries
the sign of the term that the die was rolled for.
-/

namespace DiceTable

/-- The kinds of dice. -/
inductive DieKind where
  | standard
  deriving DecidableEq, Repr

namespace DieKind

/-- The name of a kind. -/
def name : DieKind → String
  | .standard => "standard"

/-- The kind of a name. -/
def ofName? (s : String) : Option DieKind := if s = "standard" then some .standard else none

end DieKind

/-- A die after the roll. -/
structure Die where
  sides : Option Nat
  value : Int
  kind : DieKind := .standard
  deriving DecidableEq, Repr

namespace Die

/-- A standard die of known size. -/
def standard (sides : Nat) (value : Int) : Die := { sides := some sides, value }

/-- A standard die of unknown size. -/
def unsized (value : Int) : Die := { sides := none, value }

/-- The die as shown in a feed: `d6(4)`, or `d?(4)` when the size is unknown. -/
def text (d : Die) : String :=
  match d.sides with
  | some sides => s!"d{sides}({d.value})"
  | none => s!"d?({d.value})"

/-- Reads a die. -/
def decode (hollow : Json.Decode.Hollow) : Json.Decoder Die := fun t => do
  match ← t.fields? ["sides", "value", "type"] with
  | [sides, value, kind] =>
    return {
      sides := ← Json.Decode.optional Json.Decode.unsigned32 sides
      value := ← Json.Decode.required Json.Decode.signed64 value
      kind := ← Json.Decode.withDefault .standard (Json.Decode.name hollow DieKind.ofName?) kind }
  | _ => none

/-- The JSON form of a die; the sides are left out when they are unknown. -/
def encode (d : Die) : Json.Value :=
  .ofFields [
    d.sides.map fun n => ("sides", .ofNat n),
    some ("value", .ofInt d.value),
    some ("type", .string d.kind.name)]

end Die

end DiceTable
