import DiceTable.Client.EventQueue
import DiceTable.Client.State
import DiceTable.Wire.Handshake
import DiceTable.Wire.Listener

/-!
# A world for one client

A client with everything around it held in memory: connections, a server that takes rolls, and a
clock that moves only on request.  How a dialled connection opens, and how the server answers a
roll, is laid down beforehand.  The journal lists what reaches the outside.

What a client starts becomes a *job*.  Jobs report to the *mailbox*, which the client reads.
-/

namespace DiceTable.Sandbox

/-- How a connection opens. -/
inductive Opening where
  | atOnce
  /-- After this many nanoseconds. -/
  | after (delay : Nat)
  | never
  | refused (reason : String)
  deriving DecidableEq, Repr

/-- What becomes of a dialled connection. -/
structure DialPlan where
  opening : Opening := .atOnce
  /-- What the server has sent when the connection opens. -/
  arrivals : List Arrival := []
  /-- Whether nothing can be sent on it. -/
  broken : Bool := false
  deriving DecidableEq, Repr

/-- Who reads a connection. -/
inductive LinkRole where
  /-- The handshake of an attempt, made with this key. -/
  | handshake (attempt : Attempt) (apiKey : String)
  /-- The listener of an attempt. -/
  | listener (attempt : Attempt)
  /-- Nobody. -/
  | unread
  deriving DecidableEq, Repr

/-- A connection that was opened. -/
structure Link where
  id : LinkId
  role : LinkRole
  broken : Bool
  /-- What has arrived and was not read yet. -/
  inbox : List Arrival
  deriving DecidableEq, Repr

/-- Why nothing can be sent on a connection, if nothing can. -/
def Link.fault (l : Link) : Option TransportError :=
  if l.broken then some (.connectionClosed "peer gone") else none

/-- A roll that was submitted. -/
structure Submission where
  attempt : Attempt
  ticket : Ticket
  apiKey : String
  roll : NewRoll
  deriving DecidableEq, Repr

/-- What the server says to a roll, if the roll gets there. -/
inductive IngestAnswer where
  /-- It takes the roll, under the next number. -/
  | accept
  /-- It takes the roll under this identifier. -/
  | acceptAs (id : RollId)
  | reject (status : Nat) (message : String)
  /-- Its answer cannot be read. -/
  | garble (reason : String)
  /-- The roll does not get there, or no answer comes back. -/
  | fail (reason : String)
  deriving DecidableEq, Repr

/-- The server that takes rolls. -/
structure Ingest where
  /-- Whether rolls have to wait to be released. -/
  holding : Bool := false
  /-- Whether the next roll to wait is released at once. -/
  released : Bool := false
  /-- The rolls that wait, oldest first. -/
  waiting : List Submission := []
  answer : IngestAnswer := .accept
  /-- How many rolls were taken under a number. -/
  accepted : Nat := 0
  deriving DecidableEq, Repr

/-- Something that a client has started. -/
inductive Job where
  | dial (attempt : Attempt) (url apiKey : String)
  | listen (attempt : Attempt) (link : LinkId)
  | send (link : LinkId) (text : String)
  | close (link : LinkId)
  | ingest (submission : Submission)

/-- A connection that is going to open. -/
structure DelayedLink where
  due : Instant
  attempt : Attempt
  apiKey : String
  plan : DialPlan
  deriving DecidableEq, Repr

/-- What reaches the outside. -/
inductive JournalEntry where
  | dialled (url : String)
  | sent (link : LinkId) (text : String)
  | closed (link : LinkId)
  | submitted (roll : NewRoll) (apiKey : String)
  deriving DecidableEq, Repr

/-- A client and the world around it. -/
structure World where
  config : Config
  client : Client
  /-- Whether the user still holds the client. -/
  held : Bool := true
  events : EventQueue
  /-- The time of day, which stands still. -/
  now : Timestamp
  words : Dice.WordStream
  clock : Instant := 0
  /-- How many inputs the client was given; the next random number. -/
  inputs : Nat := 0
  /-- What becomes of the connection to an address that is dialled next. -/
  plan : String → DialPlan := fun _ => {}
  links : List Link := []
  delayed : List DelayedLink := []
  ingest : Ingest := {}
  mailbox : List Report := []
  jobs : List Job := []
  journal : List JournalEntry := []
  /-- The replies to commands. -/
  replies : List (Ticket × Reply) := []

namespace World

/-- The world at the start of a client. -/
def new (config : Config) (now : Timestamp) (words : Dice.WordStream) : World where
  config := config
  client := .new config
  events := { capacity := config.eventBuffer }
  now := now
  words := words

end World

end DiceTable.Sandbox
