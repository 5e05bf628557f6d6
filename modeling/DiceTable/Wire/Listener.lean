import DiceTable.Client.Event
import DiceTable.Wire.Format

/-!
# The listener

What a client does with the messages of an established connection.  Events are passed on in order,
heartbeats are answered, and messages that cannot be read or say nothing are passed over.  The
listener ends when the server closes or refuses the connection, when the stream ends, or when an
answer cannot be sent.

A listener also ends, without a word, when it has a frame to pass on and there is no client any more
that would take it.  This way out is not among those of `listen`: nobody is left then to whom it
could make a difference, and a client that stops of its own has stopped its listener before.
-/

namespace DiceTable.Listener

/-- What a client does about a message. -/
inductive Reaction where
  /-- Pass an event on. -/
  | pass (frame : Frame)
  /-- Send an answer. -/
  | answer (text : String)
  /-- Nothing. -/
  | skip
  /-- Stop listening. -/
  | stop (reason : String)
  deriving Repr

/-- The reason when the server closes the connection. -/
def closedByServer : String := "closed by server"

/-- The reaction to a message. -/
def react (format : WireFormat) (octets : List UInt8) : Reaction :=
  match format.decode octets with
  | .error _ => .skip
  | .ok (.event frame) => .pass frame
  | .ok .ping =>
    match format.pong with
    | some pong => .answer pong
    | none => .skip
  | .ok .closed => .stop closedByServer
  | .ok (.refused reason) => .stop ("refused by server: " ++ reason)
  | .ok .opened => .skip
  | .ok .connected => .skip
  | .ok .ignored => .skip

/-- What a listener did: what it sent, the frames that it passed on, what is left of the arrivals,
and why it stopped, if it did. -/
structure Progress where
  sent : List String
  frames : List Frame
  rest : List Arrival
  stopped : Option String
  deriving Repr

/-- What is reported to the client: the frames, and at the end that the connection is gone. -/
def Progress.reports (attempt : Attempt) (p : Progress) : List Report :=
  p.frames.map (.frame attempt) ++ (p.stopped.map (.closed attempt)).toList

/-- Listens to what has arrived.  `faults n` is why an answer cannot be sent after `n` others, if it
cannot. -/
def listen (format : WireFormat) : (Nat → Option TransportError) → List Arrival → Progress
  | _, [] => ⟨[], [], [], none⟩
  | _, .ended :: rest => ⟨[], [], rest, some closedByServer⟩
  | _, .failed reason :: rest =>
    ⟨[], [], rest, some (TransportError.receiveFailed reason).message⟩
  | faults, .message octets :: rest =>
    match react format octets with
    | .pass frame =>
      let progress := listen format faults rest
      { progress with frames := frame :: progress.frames }
    | .answer text =>
      match faults 0 with
      | some e => ⟨[], [], rest, some e.message⟩
      | none =>
        let progress := listen format (fun n => faults (n + 1)) rest
        { progress with sent := text :: progress.sent }
    | .skip => listen format faults rest
    | .stop reason => ⟨[], [], rest, some reason⟩

end DiceTable.Listener
