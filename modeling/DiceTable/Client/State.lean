import DiceTable.Client.Config
import DiceTable.Client.Event

/-!
# The client

A client owns a session, a feed, the last message, and what belongs to the current attempt: the
command that waits for its outcome, the dialling, and then the connection and the listening to it.
Everything it does is a function from one input to the next state and the effects.

Whatever is reported for an attempt that is over changes nothing.
-/

namespace DiceTable

/-- A command to connect that waits for the outcome of an attempt. -/
structure PendingConnect where
  attempt : Attempt
  ticket : Ticket
  deriving DecidableEq, Repr

/-- A client. -/
structure Client where
  machine : Machine
  feed : Feed
  lastMessage : LastMessage := {}
  /-- The connection. -/
  link : Option LinkId := none
  /-- The attempt whose connection is being listened to. -/
  listener : Option Attempt := none
  /-- The attempt whose connection is being opened. -/
  dialer : Option Attempt := none
  /-- The command that waits for the outcome. -/
  pending : Option PendingConnect := none
  /-- Whether the client still takes commands. -/
  running : Bool := true
  deriving DecidableEq, Repr

namespace Client

/-- A client that has done nothing yet. -/
def new (config : Config) : Client where
  machine := .new config.connectTimeout
  feed := .new config.feedCapacity

/-- The event that tells of the state of the session. -/
def status (c : Client) : Effect := .emit (.statusChanged c.machine.state)

/-- The event that tells the user something. -/
def notify (notice : Notice) : Effect := .emit (.notice notice)

/-- The event that tells of the feed. -/
def feedStatus (c : Client) : Effect := .emit (.feedUpdated c.feed.length)

/-- Answers the command that waits for the outcome of this attempt, if one does. -/
def resolve (c : Client) (attempt : Attempt) (reply : Reply) : Client × List Effect :=
  match c.pending with
  | some p =>
    if p.attempt = attempt then ({ c with pending := none }, [.reply p.ticket reply]) else (c, [])
  | none => (c, [])

/-- Lets go of the dialling, the listening and the connection. -/
def releaseTransport (c : Client) : Client × List Effect :=
  ({ c with dialer := none, listener := none, link := none },
    (c.dialer.map Effect.cancelDial).toList ++ (c.listener.map Effect.stopListening).toList ++
      (c.link.map Effect.close).toList)

/-! ## Connecting -/

/-- Starts an attempt. -/
def startConnect (config : Config) (m : Moment) (c : Client) (ticket : Ticket)
    (credentials : Credentials) : Client × List Effect :=
  match c.machine.connect m.clock credentials with
  | (_, .error e) => (c, [.reply ticket (.error (.session e))])
  | (machine, .ok attempt) =>
    let c :=
      { c with machine := machine, pending := some ⟨attempt, ticket⟩, dialer := some attempt }
    (c, [c.status,
      .dial attempt (config.wireFormat.endpoint config.socketUrl) credentials.apiKey])

/-- The notice of a connection. -/
def connectedNotice : Notice := .info "Connected successfully! Subscribing to table..."

/-- Takes over an established connection, or closes it if its attempt is over. -/
def onConnected (config : Config) (c : Client) (attempt : Attempt) (link : LinkId) :
    Client × List Effect :=
  match c.machine.transportConnected attempt with
  | (_, .error _) => (c, [.close link])
  | (machine, .ok table) =>
    let c := { c with
      machine := machine, dialer := none, listener := some attempt, link := some link }
    let (c', replies) := c.resolve attempt (.ok (.table table))
    (c', [.listen attempt link, .send link (config.wireFormat.event (.subscribe table)), c.status,
      notify connectedNotice] ++ replies)

/-- Ends an attempt that has failed. -/
def onConnectFailed (c : Client) (attempt : Attempt) (error : ClientError) :
    Client × List Effect :=
  match c.machine.transportFailed attempt error.message with
  | (_, .error _) => (c, [])
  | (machine, .ok ()) =>
    let c := { c with machine := machine, dialer := none }
    let (c', replies) := c.resolve attempt (.error error)
    (c', [c.status, notify (.error ("Connection failed: " ++ error.message))] ++ replies)

/-- The notice of an attempt that took too long. -/
def timeoutNotice : Notice := .error "Connection timeout - check your server URL and try again"

/-- Ends an attempt that has taken too long. -/
def onDeadline (config : Config) (c : Client) (attempt : Attempt) : Client × List Effect :=
  match c.machine.timedOut attempt with
  | (_, .error _) => (c, [])
  | (machine, .ok ()) =>
    let cancelled := (c.dialer.map Effect.cancelDial).toList
    let c := { c with machine := machine, dialer := none }
    let (c', replies) := c.resolve attempt (.error (.connectionTimeout config.connectTimeout))
    (c', cancelled ++ [c.status, notify timeoutNotice] ++ replies)

/-! ## The connection -/

/-- Takes in a frame: keeps it as the last message, and does to the feed what it asks for. -/
def onFrame (m : Moment) (c : Client) (attempt : Attempt) (frame : Frame) : Client × List Effect :=
  if attempt = c.machine.attempt then
    let c := { c with lastMessage := .hold frame m.now }
    let received : Effect := .emit (.messageReceived frame)
    match InboundEvent.ofFrame m.now frame with
    | .error _ => (c, [received])
    | .ok event =>
      let routed := route m.toOccasion c.machine.state event
      let (feed, inserted) := (routed.action.withoutKnown c.feed).apply c.feed
      let c := { c with feed := feed }
      (c, received :: (if 0 < inserted then [c.feedStatus] else []) ++
        (routed.notice.map notify).toList)
  else (c, [])

/-- Lets go of a connection that is gone. -/
def onClosed (c : Client) (attempt : Attempt) : Client × List Effect :=
  match c.machine.transportDisconnected attempt with
  | (_, .error _) => (c, [])
  | (machine, .ok ()) =>
    let c := { c with machine := machine, link := none, listener := none }
    (c, [c.status])

/-- Ends the session on request. -/
def disconnect (c : Client) (ticket : Ticket) : Client × List Effect :=
  match c.machine.disconnect with
  | (_, false) => (c, [.reply ticket (.ok (.disconnected false))])
  | (machine, true) =>
    let (c, released) := releaseTransport { c with machine := machine }
    let (c', replies) := c.resolve c.machine.attempt (.error .cancelled)
    (c', released ++ [c.status] ++ replies ++ [.reply ticket (.ok (.disconnected true))])

/-- Stops the client. -/
def teardown (c : Client) : Client × List Effect :=
  let (c, released) := releaseTransport { c with machine := c.machine.disconnect.1 }
  let replies := c.pending.map fun p => Effect.reply p.ticket (.error .cancelled)
  ({ c with pending := none, running := false }, released ++ replies.toList)

/-! ## Rolls -/

/-- Tells the user why a roll is not submitted. -/
def reject (c : Client) (ticket : Ticket) (error : ClientError) : Client × List Effect :=
  (c, [notify (.error error.message), .reply ticket (.error error)])

/-- Rolls, and submits the roll under the credentials of the session. -/
def startSubmission (config : Config) (m : Moment) (c : Client) (ticket : Ticket)
    (request : RollRequest) : Client × List Effect :=
  match c.machine.state.table?, c.machine.credentials with
  | some table, some credentials =>
    let authored := do
      let request ← request.normalized
      request.author table config.rollSource m.now m.words
    match authored with
    | .ok roll => (c, [.ingest c.machine.attempt ticket credentials.apiKey roll])
    | .error e => c.reject ticket e
  | _, _ => c.reject ticket .notConnected

/-- Takes in the answer to a submission.  The roll enters the feed if the session that it was made
in goes on, unless it is there already. -/
def onIngested (c : Client) (attempt : Attempt) (ticket : Ticket) (roll : NewRoll)
    (result : Except IngestError IngestReceipt) : Client × List Effect :=
  match result with
  | .error e =>
    (c, [notify (.error ("Failed to send roll: " ++ e.message)),
      .reply ticket (.error (.ingest e))])
  | .ok receipt =>
    let record := roll.toRecord receipt.rollId
    let confirmed : Effect := .reply ticket (.ok (.record record))
    if c.machine.isLive attempt then
      let sent := notify (.info ("Roll sent! Roll ID: " ++ record.id))
      if c.feed.contains record.id then (c, [sent, confirmed])
      else
        let c := { c with feed := c.feed.prepend record }
        (c, [c.feedStatus, sent, confirmed])
    else (c, [confirmed])

/-! ## Inputs -/

/-- A copy of what the client knows. -/
def takeSnapshot (c : Client) : Snapshot := ⟨c.machine.state, c.feed.records, c.lastMessage⟩

/-- Carries out a command. -/
def onCommand (config : Config) (m : Moment) (c : Client) (ticket : Ticket) :
    ClientCommand → Client × List Effect
  | .connect credentials => c.startConnect config m ticket credentials
  | .disconnect => c.disconnect ticket
  | .submit request => c.startSubmission config m ticket request
  | .clear =>
    let c := { c with feed := c.feed.clear, lastMessage := {} }
    (c, [c.feedStatus, .reply ticket (.ok .done)])
  | .snapshot => (c, [.reply ticket (.ok (.snapshot c.takeSnapshot))])
  | .shutdown =>
    let (c, effects) := c.teardown
    (c, .reply ticket (.ok .done) :: effects)

/-- Takes in a report. -/
def onReport (config : Config) (m : Moment) (c : Client) : Report → Client × List Effect
  | .connected attempt link => c.onConnected config attempt link
  | .connectFailed attempt error => c.onConnectFailed attempt error
  | .frame attempt frame => c.onFrame m attempt frame
  | .closed attempt _ => c.onClosed attempt
  | .ingested attempt ticket roll result => c.onIngested attempt ticket roll result

/-- What a client that has stopped does: whoever waits for a reply is told so. -/
def refuse : Input → List Effect
  | .command ticket _ => [.reply ticket (.error .clientClosed)]
  | .report (.ingested _ ticket _ _) => [.reply ticket (.error .clientClosed)]
  | _ => []

/-- Handles one input. -/
def step (config : Config) (m : Moment) (c : Client) (input : Input) : Client × List Effect :=
  if c.running then
    match input with
    | .command ticket command => c.onCommand config m ticket command
    | .report report => c.onReport config m report
    | .deadline attempt => c.onDeadline config attempt
    | .abandoned => c.teardown
  else (c, refuse input)

end Client

end DiceTable
