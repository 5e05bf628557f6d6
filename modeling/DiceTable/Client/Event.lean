import DiceTable.Client.Request
import DiceTable.Feed.LastMessage
import DiceTable.Feed.Route
import DiceTable.Session.Machine
import DiceTable.Wire.Arrival

/-!
# What goes into a client and what comes out

A client takes *inputs* one at a time: commands from its user, reports from what it has started, and
the passing of a deadline.  It answers each with *effects*: events and replies to its user, and
things to be done outside, whose outcome is reported back.

Commands carry a ticket, so that the reply finds its way, whenever it comes.  Reports carry the
attempt that they belong to.
-/

namespace DiceTable

/-- Something that the user should know of. -/
inductive ClientEvent where
  /-- The session is in a new state. -/
  | statusChanged (state : SessionState)
  /-- A message to the user. -/
  | notice (notice : Notice)
  /-- The feed has changed, and has this length now. -/
  | feedUpdated (length : Nat)
  /-- A frame was received. -/
  | messageReceived (frame : Frame)
  deriving DecidableEq, Repr

/-- A copy of what a client knows. -/
structure Snapshot where
  state : SessionState
  feed : List RollRecord
  lastMessage : LastMessage
  deriving DecidableEq, Repr

/-- What a command comes to when it succeeds. -/
inductive Success where
  /-- Connected to this table. -/
  | table (id : TableId)
  /-- Whether there was anything to disconnect. -/
  | disconnected (any : Bool)
  /-- The roll as the server stored it. -/
  | record (record : RollRecord)
  /-- A copy of what the client knows. -/
  | snapshot (snapshot : Snapshot)
  /-- Done. -/
  | done
  deriving DecidableEq, Repr

/-- The answer to a command. -/
abbrev Reply := Except ClientError Success

/-- The number of a command, under which its reply is sent. -/
abbrev Ticket := Nat

/-- What a user may ask of a client. -/
inductive ClientCommand where
  | connect (credentials : Credentials)
  | disconnect
  | submit (request : RollRequest)
  | clear
  | snapshot
  | shutdown
  deriving DecidableEq, Repr

/-- What is reported back to a client. -/
inductive Report where
  /-- The attempt has an established connection. -/
  | connected (attempt : Attempt) (link : LinkId)
  /-- The attempt has failed. -/
  | connectFailed (attempt : Attempt) (error : ClientError)
  /-- A frame has arrived. -/
  | frame (attempt : Attempt) (frame : Frame)
  /-- The connection is gone. -/
  | closed (attempt : Attempt) (reason : String)
  /-- A submission has been answered. -/
  | ingested (attempt : Attempt) (ticket : Ticket) (roll : NewRoll)
    (result : Except IngestError IngestReceipt)

/-- What a client is given. -/
inductive Input where
  | command (ticket : Ticket) (command : ClientCommand)
  | report (report : Report)
  /-- The deadline of the attempt has passed. -/
  | deadline (attempt : Attempt)
  /-- Nobody is left who could give commands or who waits for a reply. -/
  | abandoned

/-- What a client does about an input. -/
inductive Effect where
  /-- Tell the user. -/
  | emit (event : ClientEvent)
  /-- Answer a command. -/
  | reply (ticket : Ticket) (reply : Reply)
  /-- Open a connection, and perform the handshake on it. -/
  | dial (attempt : Attempt) (url apiKey : String)
  /-- Give up opening the connection of an attempt. -/
  | cancelDial (attempt : Attempt)
  /-- Listen to a connection. -/
  | listen (attempt : Attempt) (link : LinkId)
  /-- Listen no more. -/
  | stopListening (attempt : Attempt)
  /-- Send a message. -/
  | send (link : LinkId) (text : String)
  /-- Say goodbye and close a connection. -/
  | close (link : LinkId)
  /-- Submit a roll to the server. -/
  | ingest (attempt : Attempt) (ticket : Ticket) (apiKey : String) (roll : NewRoll)

/-- The circumstances in which an input is handled: the time, a random number, the clock for
deadlines, and the dice. -/
structure Moment extends Occasion where
  clock : Instant
  words : Dice.WordStream

end DiceTable
