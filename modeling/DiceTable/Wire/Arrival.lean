/-!
# Connections

Connections are numbered as they open.  What arrives on one is a sequence of messages that ends when
the server closes the stream or receiving fails.
-/

namespace DiceTable

/-- The number of a connection. -/
abbrev LinkId := Nat

/-- A connection as it is named in messages. -/
def LinkId.text (id : LinkId) : String := "conn-" ++ toString id

/-- What arrives on a connection. -/
inductive Arrival where
  /-- A message. -/
  | message (octets : List UInt8)
  /-- The end of the stream. -/
  | ended
  /-- Receiving failed. -/
  | failed (reason : String)
  deriving DecidableEq, Repr

/-- The arrival with which a connection ends: the end of the stream, or a failure for this
reason. -/
def Arrival.ending : Option String → Arrival
  | none => .ended
  | some reason => .failed reason

/-- What arrives on a connection that ends: these messages, and then its ending. -/
def Arrival.stream (messages : List (List UInt8)) (reason : Option String) : List Arrival :=
  messages.map .message ++ [.ending reason]

end DiceTable
