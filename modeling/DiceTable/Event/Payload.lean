import DiceTable.Event.Frame
import DiceTable.Roll.Record

/-!
# Payloads

The payloads of the events that carry rolls or news of the table.

Lists of rolls are read leniently: an entry that is no record is dropped and the others stay, and a
list that is null or missing is empty.  The payload of `message` is an envelope that states its
type; a type that is not known is no error.
-/

namespace DiceTable

/-- Reads a list of records, dropping the entries that are none. -/
def RollRecord.decodeLenient (now : Timestamp) : Option Json.Tree → Option (List RollRecord)
  | none => some []
  | some .null => some []
  | some (.array items) =>
    (items.mapM Json.Decode.value).map fun values =>
      values.filterMap fun v => RollRecord.decode .null now v.toTree
  | some _ => none

/-! ## Confirmation and history -/

/-- The confirmation of a subscription. -/
structure Subscribed where
  table : Option TableId
  deriving DecidableEq, Repr

/-- Reads a confirmation. -/
def Subscribed.decode : Json.Decoder Subscribed := fun t => do
  match ← t.fields? ["tableId"] with
  | [table] => return ⟨← Json.Decode.optional Json.Decode.string table⟩
  | _ => none

/-- The JSON form of a confirmation. -/
def Subscribed.encode (s : Subscribed) : Json.Value :=
  .ofFields [s.table.map fun t => ("tableId", .string t)]

/-- The recent rolls of a table, oldest first. -/
structure History where
  table : Option TableId
  rolls : List RollRecord
  deriving DecidableEq, Repr

/-- Reads a history. -/
def History.decode (now : Timestamp) : Json.Decoder History := fun t => do
  match ← t.fields? ["tableId", "rolls"] with
  | [table, rolls] =>
    return {
      table := ← Json.Decode.optional Json.Decode.string table
      rolls := ← RollRecord.decodeLenient now rolls }
  | _ => none

/-- The JSON form of a history. -/
def History.encode (h : History) : Json.Value :=
  .ofFields [
    h.table.map fun t => ("tableId", .string t),
    some ("rolls", .array (h.rolls.map RollRecord.encode))]

/-! ## The message envelope -/

/-- The payload of `message`. -/
inductive TableMessage where
  /-- A single roll. -/
  | roll (record : RollRecord)
  /-- The confirmation of a subscription, with recent rolls, oldest first. -/
  | subscribed (table : Option TableId) (recent : List RollRecord)
  /-- The server rejected something. -/
  | error (message : String)
  /-- Anything else. -/
  | other
  deriving DecidableEq, Repr

namespace TableMessage

/-- Reads the content of an envelope of the type given. -/
def decodeContent (now : Timestamp) (type : String) (content : Json.Tree) :
    Option TableMessage :=
  if type = "roll" then do
    match ← content.fields? ["roll"] with
    | [record] => return .roll (← Json.Decode.required (RollRecord.decode .nullOrEmpty now) record)
    | _ => none
  else if type = "subscribed" then do
    match ← content.fields? ["tableId", "recentRolls"] with
    | [table, recent] =>
      return .subscribed (← Json.Decode.optional Json.Decode.string table)
        (← RollRecord.decodeLenient now recent)
    | _ => none
  else if type = "error" then do
    match ← content.fields? ["message"] with
    | [message] => return .error (← Json.Decode.withDefault "" Json.Decode.string message)
    | _ => none
  else
    match content with
    | .array (_ :: _) => none
    | _ => some .other

/-- Reads an envelope: an object with its type among the members, or an array with its type in
front.  Nothing in an envelope may be unreadable, since the type may come last. -/
def decode (now : Timestamp) : Json.Decoder TableMessage := fun t =>
  if t.isReadable then
    match t with
    | .object members =>
      match Json.Tree.single? "type" members with
      | some (some (.string type)) =>
        decodeContent now type (.object (members.filter (·.1 != some "type")))
      | _ => none
    | .array (.string type :: content) => decodeContent now type (.array content)
    | _ => none
  else none

/-- The JSON form of an envelope. -/
def encode : TableMessage → Json.Value
  | .roll record => .object [("type", .string "roll"), ("roll", record.encode)]
  | .subscribed table recent =>
    .object [
      ("type", .string "subscribed"),
      ("tableId", match table with | some t => .string t | none => .null),
      ("recentRolls", .array (recent.map RollRecord.encode))]
  | .error message => .object [("type", .string "error"), ("message", .string message)]
  | .other => .object [("type", .string "other")]

end TableMessage

/-! ## Forwarded rolls -/

/-- A roll that a proxy passes on: values only, without the sizes of the dice. -/
structure ForwardedRoll where
  formula : String
  rolls : List Int
  modifier : Int
  total : Int
  player : Option String
  timestamp : Option Timestamp
  deriving DecidableEq, Repr

namespace ForwardedRoll

/-- Reads a forwarded roll. -/
def decode : Json.Decoder ForwardedRoll := fun t => do
  match ← t.fields? ["notation", "rolls", "modifier", "result", "player", "timestamp"] with
  | [formula, rolls, modifier, total, player, timestamp] =>
    return {
      formula := ← Json.Decode.withDefault "" Json.Decode.string formula
      rolls := ← Json.Decode.withDefault [] (Json.Decode.list Json.Decode.signed64) rolls
      modifier := ← Json.Decode.withDefault 0 Json.Decode.signed64 modifier
      total := ← Json.Decode.required Json.Decode.signed64 total
      player := ← Json.Decode.optional Json.Decode.string player
      timestamp := ← Json.Decode.optional Timestamp.decode timestamp }
  | _ => none

/-- The JSON form of a forwarded roll. -/
def encode (f : ForwardedRoll) : Json.Value :=
  .ofFields [
    some ("notation", .string f.formula),
    some ("rolls", .array (f.rolls.map Json.Value.ofInt)),
    some ("modifier", .ofInt f.modifier),
    some ("result", .ofInt f.total),
    f.player.map fun p => ("player", .string p),
    f.timestamp.map fun t => ("timestamp", .string t.text)]

end ForwardedRoll

end DiceTable
