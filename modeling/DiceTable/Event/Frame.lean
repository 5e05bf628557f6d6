import DiceTable.Json.Reader
import DiceTable.Json.Decode

/-!
# Frames

A frame is an event name with any JSON value as its payload: what a table sends, before anyone has
asked what it means.

What is wrong with a text or a payload is for a parser to say.  The readers here only find that
something is wrong, and give one reason for all of it.
-/

namespace DiceTable

/-- The reason for a text that is not JSON, or not of the shape that is expected. -/
def unreadableText : String := "not JSON of the expected shape"

/-- The reason for a payload that has not the shape that its event asks for. -/
def unreadablePayload : String := "not of the expected shape"

/-- The reasons why something received cannot be used. -/
inductive ProtocolError where
  /-- The text is not JSON, or not of the expected shape. -/
  | decode (reason : String := unreadableText)
  /-- The event is known, but its payload has the wrong shape. -/
  | invalidPayload (event : String) (reason : String := unreadablePayload)
  /-- A packet does not follow its framing. -/
  | malformed (message : String)
  deriving DecidableEq, Repr

/-- The wording of an error. -/
def ProtocolError.message : ProtocolError → String
  | .decode reason => "decode failed: " ++ reason
  | .invalidPayload event reason => "invalid payload for event " ++ event ++ ": " ++ reason
  | .malformed message => "malformed packet: " ++ message

/-- An event name with its payload. -/
structure Frame where
  event : String
  data : Json.Value
  deriving DecidableEq, Repr

namespace Frame

/-- Reads a frame; a missing payload is null. -/
def decode : Json.Decoder Frame := fun t => do
  match ← t.fields? ["event", "data"] with
  | [event, data] =>
    return {
      event := ← Json.Decode.required Json.Decode.string event
      data := ← Json.Decode.withDefault .null Json.Decode.value data }
  | _ => none

/-- The JSON form of a frame. -/
def encode (f : Frame) : Json.Value := .object [("event", .string f.event), ("data", f.data)]

/-- Reads a frame from octets. -/
def ofOctets (octets : List UInt8) : Except ProtocolError Frame :=
  match (Json.Tree.ofOctets? octets).bind decode with
  | some frame => .ok frame
  | none => .error .decode

end Frame

end DiceTable
