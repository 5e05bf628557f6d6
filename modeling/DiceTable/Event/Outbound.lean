import DiceTable.Json.Decode
import DiceTable.Roll.Record

/-!
# Outbound events

What a client sends: its key, and the table that it wants to follow.  The JSON form names the event
and puts its content under `data`.
-/

namespace DiceTable

/-- An event sent to a table. -/
inductive OutboundEvent where
  /-- The first frame on a new connection. -/
  | auth (apiKey : String)
  /-- Sent as soon as the connection counts as established. -/
  | subscribe (table : TableId)
  deriving DecidableEq, Repr

namespace OutboundEvent

/-- The name of the event. -/
def name : OutboundEvent → String
  | .auth _ => "auth"
  | .subscribe _ => "subscribe:table"

/-- The content of the event. -/
def content : OutboundEvent → Json.Value
  | .auth key => .object [("apiKey", .string key)]
  | .subscribe table => .object [("tableId", .string table)]

/-- The JSON form of the event. -/
def encode (e : OutboundEvent) : Json.Value :=
  .object [("event", .string e.name), ("data", e.content)]

/-- The only field of a content. -/
def onlyField? (key : String) : Json.Decoder String
  | .object members => do
    match ← (Json.Tree.object members).fields? [key] with
    | [field] => Json.Decode.required Json.Decode.string field
    | _ => none
  | _ => none

/-- Reads the event with this name and content. -/
def decodeContent (name : String) (content : Json.Tree) : Option OutboundEvent := do
  if name = "auth" then return .auth (← onlyField? "apiKey" content)
  else if name = "subscribe:table" then return .subscribe (← onlyField? "tableId" content)
  else none

/-- Reads the name of an event under its key. -/
def decodeName : Json.Decoder String := Json.Decode.name .null some

/-- Reads an event: name and content under their keys in either order, or an array of the two, where
the name is a string.  A content that comes before its name must be readable throughout. -/
def decode : Json.Decoder OutboundEvent
  | .object members =>
    if members.all (·.1.isSome) then
      match members.filter fun m => m.1 == some "event" || m.1 == some "data" with
      | [(first, a), (second, b)] =>
        if first = some "event" ∧ second = some "data" then
          (decodeName a).bind (decodeContent · b)
        else if first = some "data" ∧ second = some "event" ∧ a.isReadable then
          (decodeName b).bind (decodeContent · a)
        else none
      | _ => none
    else none
  | .array [name, content] => (Json.Decode.string name).bind (decodeContent · content)
  | _ => none

end OutboundEvent

end DiceTable
