import DiceTable.Event.Frame
import DiceTable.Event.Outbound
import DiceTable.Json.Printer
import DiceTable.Text.Blank

/-!
# Framings

Events travel in one of two framings.  *JSON frames* are one JSON object a message.  *Socket.IO*
packs the event into two layers of packets, each marked by a digit at the front: the engine packet
(`0` open, `1` close, `2` ping, `3` pong, `4` message, `5` and `6` of no interest) and, inside a
message, the socket packet (`0` connect, `1` disconnect, `2` event, `4` refusal, `3`, `5` and `6` of
no interest).  A socket packet for a namespace other than the default one names it behind its digit,
beginning with a slash, and is ignored.  An event is an array of its name and its payload, behind
an optional number that would ask for a receipt.
-/

namespace DiceTable

/-- How events are framed. -/
inductive WireFormat where
  | socketIo
  | jsonFrames
  deriving DecidableEq, Repr

/-- What a message from the server says. -/
inductive Incoming where
  /-- An event of the table. -/
  | event (frame : Frame)
  /-- The engine session was opened. -/
  | opened
  /-- A heartbeat, to be answered. -/
  | ping
  /-- The server accepted the connection. -/
  | connected
  /-- The server refused the connection. -/
  | refused (reason : String)
  /-- The server ended the connection. -/
  | closed
  /-- Nothing that matters. -/
  | ignored
  deriving DecidableEq, Repr

namespace Packet

/-- The error for a packet that does not follow the framing. -/
def malformed (message : String) : Except ProtocolError Incoming := .error (.malformed message)

/-- Reads the array of an event, behind the digits that may stand before it. -/
def ofEvent (body : List Char) : Except ProtocolError Incoming :=
  match Json.Tree.ofSymbols? ((body.dropWhile Char.isDigit).map some) with
  | some (.array items) =>
    match items.mapM Json.Decode.value with
    | none => .error .decode
    | some (.string event :: rest) => .ok (.event ⟨event, rest.headD .null⟩)
    | some _ => malformed "event packet without a name"
  | _ => .error .decode

/-- The reason in a refusal: a string, the message of an object, or the body as it stands. -/
def refusalReason (body : List Char) : String :=
  match (Json.Tree.ofSymbols? (body.map some)).bind Json.Decode.value with
  | some (.object members) =>
    match (Json.Value.object members).get? "message" with
    | some (.string message) => message
    | _ => (Json.Value.object members).compact
  | some (.string message) => message
  | _ => if body.isEmpty then "connection refused" else String.ofList body

/-- Reads a socket packet of the default namespace. -/
def ofSocket (kind : Char) (body : List Char) : Except ProtocolError Incoming :=
  match kind with
  | '0' => .ok .connected
  | '1' => .ok .closed
  | '2' => ofEvent body
  | '3' => .ok .ignored
  | '4' => .ok (.refused (refusalReason body))
  | '5' => .ok .ignored
  | '6' => .ok .ignored
  | c => malformed ("unknown socket packet type '" ++ String.singleton c ++ "'")

/-- Reads the body of an engine message. -/
def ofMessage : List Char → Except ProtocolError Incoming
  | [] => malformed "empty message packet"
  | _ :: '/' :: _ => .ok .ignored
  | kind :: body => ofSocket kind body

/-- Reads an engine packet. -/
def ofChars : List Char → Except ProtocolError Incoming
  | [] => malformed "empty packet"
  | kind :: body =>
    match kind with
    | '0' => .ok .opened
    | '1' => .ok .closed
    | '2' => .ok .ping
    | '3' => .ok .ignored
    | '4' => ofMessage body
    | '5' => .ok .ignored
    | '6' => .ok .ignored
    | c => malformed ("unknown engine packet type '" ++ String.singleton c ++ "'")

/-- Reads a packet from octets. -/
def ofOctets (octets : List UInt8) : Except ProtocolError Incoming :=
  match Text.Utf8.decode? octets with
  | none => malformed "packet is not UTF-8"
  | some cs => ofChars cs

end Packet

namespace WireFormat

/-- The path and query of a Socket.IO address. -/
def socketPath : String := "/socket.io/?EIO=4&transport=websocket"

/-- The address to open.  A Socket.IO address gets its path, unless it has a query already. -/
def endpoint (format : WireFormat) (url : String) : String :=
  match format with
  | .socketIo => if url.toList.contains '?' then url else Text.dropSlashes url ++ socketPath
  | .jsonFrames => url

/-- Whether the connection counts as established only when the server says so. -/
def hasHandshake : WireFormat → Bool
  | .socketIo => true
  | .jsonFrames => false

/-- The message that carries the key. -/
def auth (format : WireFormat) (apiKey : String) : String :=
  match format with
  | .socketIo => "40" ++ (OutboundEvent.auth apiKey).content.compact
  | .jsonFrames => (OutboundEvent.auth apiKey).encode.compact

/-- The message that carries an event. -/
def event (format : WireFormat) (e : OutboundEvent) : String :=
  match format with
  | .socketIo => "42" ++ (Json.Value.array [.string e.name, e.content]).compact
  | .jsonFrames => e.encode.compact

/-- The answer to a heartbeat. -/
def pong : WireFormat → Option String
  | .socketIo => some "3"
  | .jsonFrames => none

/-- Sent before the connection is closed. -/
def goodbye : WireFormat → Option String
  | .socketIo => some "41"
  | .jsonFrames => none

/-- Reads a message from the server. -/
def decode (format : WireFormat) (octets : List UInt8) : Except ProtocolError Incoming :=
  match format with
  | .socketIo => Packet.ofOctets octets
  | .jsonFrames => (Frame.ofOctets octets).map .event

end WireFormat

end DiceTable
