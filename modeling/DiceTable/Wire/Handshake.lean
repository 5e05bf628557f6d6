import DiceTable.Client.Error
import DiceTable.Wire.Arrival
import DiceTable.Wire.Format

/-!
# The handshake

What a client does on a new connection until it counts as established.  With JSON frames it sends
its key, and that is all.  With Socket.IO it waits for the server: it answers the opening of the
engine session with its key and every heartbeat with a pong, and is done at the first message that
accepts, refuses or ends the connection, or cannot be read.  What arrives after that message is left
for the listener.
-/

namespace DiceTable.Handshake

/-- What a client does about a message. -/
inductive Reaction where
  /-- Send a message and wait on. -/
  | answer (text : String)
  /-- Wait on. -/
  | wait
  /-- Stop waiting. -/
  | finish (result : Except ClientError Unit)
  deriving Repr

/-- The error for a stream that ends too early. -/
def endedEarly : ClientError := .transport (.connectionClosed "closed during handshake")

/-- The error for a server that does not want to go on. -/
def endedByServer : ClientError := .transport (.connectionClosed "server ended the handshake")

/-- The reaction to a message. -/
def react (format : WireFormat) (apiKey : String) (octets : List UInt8) : Reaction :=
  match format.decode octets with
  | .error e => .finish (.error (.protocol e))
  | .ok .opened => .answer (format.auth apiKey)
  | .ok .ping =>
    match format.pong with
    | some pong => .answer pong
    | none => .wait
  | .ok .connected => .finish (.ok ())
  | .ok (.refused reason) => .finish (.error (.refused reason))
  | .ok .closed => .finish (.error endedByServer)
  | .ok (.event _) => .wait
  | .ok .ignored => .wait

/-- How far a handshake has come: what was sent, what is left of the arrivals, and the result, or
nothing while more must arrive. -/
structure Progress where
  sent : List String
  rest : List Arrival
  result : Option (Except ClientError Unit)
  deriving Repr

/-- Waits for the server, which sends what is listed.  `fault` is why nothing can be sent, if
nothing can. -/
def await (format : WireFormat) (apiKey : String) (fault : Option TransportError) :
    List Arrival → Progress
  | [] => ⟨[], [], none⟩
  | .ended :: rest => ⟨[], rest, some (.error endedEarly)⟩
  | .failed reason :: rest => ⟨[], rest, some (.error (.transport (.receiveFailed reason)))⟩
  | .message octets :: rest =>
    match react format apiKey octets with
    | .finish result => ⟨[], rest, some result⟩
    | .wait => await format apiKey fault rest
    | .answer text =>
      match fault with
      | some e => ⟨[], rest, some (.error (.transport e))⟩
      | none =>
        let progress := await format apiKey fault rest
        { progress with sent := text :: progress.sent }

/-- Begins the handshake on a connection on which this much has arrived. -/
def start (format : WireFormat) (apiKey : String) (fault : Option TransportError)
    (arrivals : List Arrival) : Progress :=
  if format.hasHandshake then await format apiKey fault arrivals
  else
    match fault with
    | some e => ⟨[], arrivals, some (.error (.transport e))⟩
    | none => ⟨[format.auth apiKey], arrivals, some (.ok ())⟩

end DiceTable.Handshake
