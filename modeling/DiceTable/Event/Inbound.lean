import DiceTable.Event.Payload
import DiceTable.Json.Printer

/-!
# Inbound events

Every event that a client understands, and the classification of frames.  A frame with a known name
must carry a payload of the right shape.  A frame with any other name is kept as unknown.
-/

namespace DiceTable

/-- An event received from a table. -/
inductive InboundEvent where
  | tableSubscribed (confirmation : Subscribed)
  | tableHistory (history : History)
  | newRoll (record : RollRecord)
  | roll (record : RollRecord)
  | message (envelope : TableMessage)
  | socketError (message : String)
  | proxyConnected (server : Option String)
  | rollForwarded (success : Bool)
  | rollError (message : Option String)
  | rollResult (forwarded : ForwardedRoll)
  | unknown (event : String)
  deriving DecidableEq, Repr

namespace InboundEvent

/-- The name under which an event arrives. -/
def name : InboundEvent → String
  | .tableSubscribed _ => "table:subscribed"
  | .tableHistory _ => "table:history"
  | .newRoll _ => "roll:new"
  | .roll _ => "roll"
  | .message _ => "message"
  | .socketError _ => "error"
  | .proxyConnected _ => "connected"
  | .rollForwarded _ => "roll_forwarded"
  | .rollError _ => "roll_error"
  | .rollResult _ => "roll_result"
  | .unknown event => event

/-- The message in a payload: a string, or the string that an object has under `message`. -/
def messageIn? (data : Json.Value) : Option String :=
  match data with
  | .string s => some s
  | other => (other.get? "message").bind Json.Value.asString?

/-- The event in a payload, if it has the shape that the name asks for. -/
def ofPayload? (now : Timestamp) (event : String) (data : Json.Value) : Option InboundEvent :=
  match event with
  | "table:subscribed" => (Subscribed.decode data.toTree).map tableSubscribed
  | "table:history" => (History.decode now data.toTree).map tableHistory
  | "roll:new" => (RollRecord.decode .null now data.toTree).map newRoll
  | "roll" => (RollRecord.decode .null now data.toTree).map roll
  | "message" => (TableMessage.decode now data.toTree).map message
  | "error" => some (socketError ((messageIn? data).getD data.compact))
  | "connected" => some (proxyConnected ((data.get? "server").bind Json.Value.asString?))
  | "roll_forwarded" =>
    some (rollForwarded (((data.get? "success").bind Json.Value.asBool?).getD false))
  | "roll_error" => some (rollError (messageIn? data))
  | "roll_result" => (ForwardedRoll.decode data.toTree).map rollResult
  | _ => some (unknown event)

/-- Classifies a frame; records without a timestamp are dated `now`. -/
def ofFrame (now : Timestamp) (frame : Frame) : Except ProtocolError InboundEvent :=
  match ofPayload? now frame.event frame.data with
  | some event => .ok event
  | none => .error (.invalidPayload frame.event)

end InboundEvent

end DiceTable
