import DiceTable.Json.Decode

/-!
# Modifiers

A flat number added to a roll or subtracted from it, kept as a direction and a magnitude together
with a word on where it comes from.
-/

namespace DiceTable

/-- The direction of a modifier. -/
inductive ModifierKind where
  | add
  | subtract
  deriving DecidableEq, Repr

namespace ModifierKind

/-- The name of a direction. -/
def name : ModifierKind → String
  | .add => "add"
  | .subtract => "subtract"

/-- The direction of a name. -/
def ofName? (s : String) : Option ModifierKind :=
  if s = "add" then some .add else if s = "subtract" then some .subtract else none

end ModifierKind

/-- A flat modifier. -/
structure Modifier where
  kind : ModifierKind
  magnitude : Nat
  origin : String
  deriving DecidableEq, Repr

namespace Modifier

/-- The origin of modifiers that state none. -/
def defaultOrigin : String := "modifier"

/-- The modifier that contributes a signed amount. -/
def ofSigned (amount : Int) : Modifier where
  kind := if amount < 0 then .subtract else .add
  magnitude := amount.natAbs
  origin := defaultOrigin

/-- What the modifier contributes to a total; a magnitude beyond the largest total counts as the
largest total. -/
def signed (m : Modifier) : Int :=
  let magnitude : Int := min m.magnitude Word.maxSigned64
  match m.kind with
  | .add => magnitude
  | .subtract => -magnitude

/-- An amount put into a modifier is held at the largest total, up and down alike. -/
theorem signed_ofSigned_eq_max (amount : Int) :
    (ofSigned amount).signed = max (-Word.maxSigned64) (min Word.maxSigned64 amount) := by
  unfold ofSigned signed
  by_cases hneg : amount < 0 <;> simp only [hneg, if_true, if_false, Word.maxSigned64] <;> omega

/-- The modifier as shown in a feed: its sign and its magnitude. -/
def text (m : Modifier) : String :=
  match m.kind with
  | .add => s!"+{m.magnitude}"
  | .subtract => s!"-{m.magnitude}"

/-- Reads a modifier. -/
def decode (hollow : Json.Decode.Hollow) : Json.Decoder Modifier := fun t => do
  match ← t.fields? ["type", "value", "source"] with
  | [kind, magnitude, origin] =>
    return {
      kind := ← Json.Decode.withDefault .add (Json.Decode.name hollow ModifierKind.ofName?) kind
      magnitude := ← Json.Decode.required Json.Decode.unsigned64 magnitude
      origin := ← Json.Decode.withDefault defaultOrigin Json.Decode.string origin }
  | _ => none

/-- The JSON form of a modifier. -/
def encode (m : Modifier) : Json.Value :=
  .ofFields [
    some ("type", .string m.kind.name),
    some ("value", .ofNat m.magnitude),
    some ("source", .string m.origin)]

end Modifier

end DiceTable
