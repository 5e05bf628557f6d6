import DiceTable.Roll.Die
import DiceTable.Roll.Modifier
import DiceTable.Roll.Context
import DiceTable.Timestamp.Reader

/-!
# Roll records

A `RollRecord` is a finished roll with its identifier, the unit of the feed.  A `NewRoll` is a roll
on its way to the server, which assigns the identifier; it names the table instead.

Peers leave out what they do not know: a record needs its identifier, its formula and its total,
and everything else has a default.  A record without a timestamp is dated to the moment it is read.
-/

namespace DiceTable

/-- The identifier of a roll. -/
abbrev RollId := String

/-- The identifier of a table. -/
abbrev TableId := String

/-- A digit of base 36. -/
def base36Digit (n : Nat) : Char :=
  if n < 10 then Char.ofNat ('0'.toNat + n) else Char.ofNat ('a'.toNat + (n - 10))

/-- The last `width` digits of `n` in base 36. -/
def base36 : Nat → Nat → List Char
  | 0, _ => []
  | width + 1, n => base36 width (n / 36) ++ [base36Digit (n % 36)]

/-- The identifier given to a roll that comes without one, from the instant and a random number:
the milliseconds and nine digits of base 36. -/
def RollId.generate (now : Timestamp) (random : Nat) : RollId :=
  "roll_" ++ toString now.millis ++ "_" ++ String.ofList (base36 9 random)

/-- A finished roll. -/
structure RollRecord where
  id : RollId
  formula : String
  dice : List Die := []
  modifiers : List Modifier := []
  total : Int
  context : RollContext := {}
  source : RollSource := {}
  timestamp : Timestamp
  deriving DecidableEq, Repr

/-- A roll on its way to a table. -/
structure NewRoll where
  table : TableId
  formula : String
  dice : List Die
  modifiers : List Modifier
  total : Int
  context : RollContext
  source : RollSource
  timestamp : Timestamp
  deriving DecidableEq, Repr

/-- The server's answer to a roll that it took. -/
structure IngestReceipt where
  rollId : RollId
  deriving DecidableEq, Repr

/-- Reads a timestamp from a string. -/
def Timestamp.decode : Json.Decoder Timestamp := fun t => (Json.Decode.string t).bind ofText?

namespace RollRecord

/-- The sum of all dice and then all modifiers, held at the ends of the range at each step. -/
def componentSum (r : RollRecord) : Int :=
  (r.dice.map (·.value) ++ r.modifiers.map (·.signed)).foldl Word.addSaturating64 0

/-- The dice and modifiers of a roll, if it has any. -/
def detail (r : RollRecord) : Option String :=
  let dice := String.intercalate " + " (r.dice.map (·.text))
  let modifiers := String.intercalate " " (r.modifiers.map (·.text))
  match r.dice.isEmpty, r.modifiers.isEmpty with
  | true, true => none
  | false, true => some dice
  | true, false => some modifiers
  | false, false => some (dice ++ " " ++ modifiers)

/-- The record as shown in a feed. -/
def text (r : RollRecord) : String :=
  let head := r.formula ++ " = " ++ toString r.total
  match r.detail with
  | none => head
  | some detail => head ++ " [" ++ detail ++ "]"

/-- Reads a record; one without a timestamp is dated `now`. -/
def decode (hollow : Json.Decode.Hollow) (now : Timestamp) : Json.Decoder RollRecord := fun t => do
  match ← t.fields?
    ["rollId", "notation", "dice", "modifiers", "total", "context", "source", "timestamp"] with
  | [id, formula, dice, modifiers, total, context, source, timestamp] =>
    return {
      id := ← Json.Decode.required Json.Decode.string id
      formula := ← Json.Decode.required Json.Decode.string formula
      dice := ← Json.Decode.withDefault [] (Json.Decode.list (Die.decode hollow)) dice
      modifiers := ←
        Json.Decode.withDefault [] (Json.Decode.list (Modifier.decode hollow)) modifiers
      total := ← Json.Decode.required Json.Decode.signed64 total
      context := ← Json.Decode.withDefault {} RollContext.decode context
      source := ← Json.Decode.withDefault {} RollSource.decode source
      timestamp := ← Json.Decode.withDefault now Timestamp.decode timestamp }
  | _ => none

/-- The JSON form of a record. -/
def encode (r : RollRecord) : Json.Value :=
  .ofFields [
    some ("rollId", .string r.id),
    some ("notation", .string r.formula),
    some ("dice", .array (r.dice.map Die.encode)),
    some ("modifiers", .array (r.modifiers.map Modifier.encode)),
    some ("total", .ofInt r.total),
    some ("context", r.context.encode),
    some ("source", r.source.encode),
    some ("timestamp", .string r.timestamp.text)]

end RollRecord

namespace NewRoll

/-- The record that the roll becomes under the identifier given. -/
def toRecord (r : NewRoll) (id : RollId) : RollRecord where
  id := id
  formula := r.formula
  dice := r.dice
  modifiers := r.modifiers
  total := r.total
  context := r.context
  source := r.source
  timestamp := r.timestamp

/-- Reads a new roll, of which no field may be missing. -/
def decode (hollow : Json.Decode.Hollow) : Json.Decoder NewRoll := fun t => do
  match ← t.fields?
    ["tableId", "notation", "dice", "modifiers", "total", "context", "source", "timestamp"] with
  | [table, formula, dice, modifiers, total, context, source, timestamp] =>
    return {
      table := ← Json.Decode.required Json.Decode.string table
      formula := ← Json.Decode.required Json.Decode.string formula
      dice := ← Json.Decode.required (Json.Decode.list (Die.decode hollow)) dice
      modifiers := ← Json.Decode.required (Json.Decode.list (Modifier.decode hollow)) modifiers
      total := ← Json.Decode.required Json.Decode.signed64 total
      context := ← Json.Decode.required RollContext.decode context
      source := ← Json.Decode.required RollSource.decode source
      timestamp := ← Json.Decode.required Timestamp.decode timestamp }
  | _ => none

/-- The JSON form of a new roll. -/
def encode (r : NewRoll) : Json.Value :=
  .ofFields [
    some ("tableId", .string r.table),
    some ("notation", .string r.formula),
    some ("dice", .array (r.dice.map Die.encode)),
    some ("modifiers", .array (r.modifiers.map Modifier.encode)),
    some ("total", .ofInt r.total),
    some ("context", r.context.encode),
    some ("source", r.source.encode),
    some ("timestamp", .string r.timestamp.text)]

end NewRoll

namespace IngestReceipt

/-- Reads a receipt. -/
def decode : Json.Decoder IngestReceipt := fun t => do
  match ← t.fields? ["rollId"] with
  | [id] => return ⟨← Json.Decode.required Json.Decode.string id⟩
  | _ => none

/-- The JSON form of a receipt. -/
def encode (r : IngestReceipt) : Json.Value := .ofFields [some ("rollId", .string r.rollId)]

end IngestReceipt

end DiceTable
