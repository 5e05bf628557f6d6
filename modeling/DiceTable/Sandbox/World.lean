import DiceTable.Sandbox.Basic

/-!
# What happens in a world

Effects of the client become jobs, jobs report back, and the clock brings deadlines and slow
connections to pass in order of time.  After everything that is done to a world, it goes on until
nothing is left that could happen.  A client that its user has let go of still finishes what it was
asked for, and stops then.
-/

namespace DiceTable.Sandbox.World

/-- The circumstances of the next input. -/
def moment (w : World) : Moment where
  now := w.now
  random := w.inputs
  clock := w.clock
  words := w.words

/-- Adds to the journal. -/
def note (w : World) (entries : List JournalEntry) : World :=
  { w with journal := w.journal ++ entries }

/-- Reports to the client. -/
def post (w : World) (reports : List Report) : World := { w with mailbox := w.mailbox ++ reports }

/-- The connection with this number. -/
def link? (w : World) (id : LinkId) : Option Link := w.links.find? (·.id == id)

/-- Puts a connection in place of the one with its number. -/
def putLink (w : World) (l : Link) : World :=
  { w with links := w.links.map fun k => if k.id = l.id then l else k }

/-- Leaves the connections in this role to nobody. -/
def dismiss (w : World) (dismissed : LinkRole → Bool) : World :=
  { w with
    links := w.links.map fun l => if dismissed l.role then { l with role := .unread } else l }

/-! ## Effects -/

/-- Whether this is the handshake of the attempt. -/
def isHandshakeOf (attempt : Attempt) : LinkRole → Bool
  | .handshake a _ => a == attempt
  | _ => false

/-- Whether this is the listener of the attempt. -/
def isListenerOf (attempt : Attempt) : LinkRole → Bool
  | .listener a => a == attempt
  | _ => false

/-- Adds a job. -/
def begin (w : World) (job : Job) : World := { w with jobs := w.jobs ++ [job] }

/-- Brings an effect about, or makes a job of it. -/
def perform (w : World) : Effect → World
  | .emit event => { w with events := w.events.push event }
  | .reply ticket reply => { w with replies := w.replies ++ [(ticket, reply)] }
  | .dial attempt url apiKey => w.begin (.dial attempt url apiKey)
  | .cancelDial attempt =>
    { w with delayed := w.delayed.filter (·.attempt != attempt) }.dismiss (isHandshakeOf attempt)
  | .listen attempt link => w.begin (.listen attempt link)
  | .stopListening attempt => w.dismiss (isListenerOf attempt)
  | .send link text => w.begin (.send link text)
  | .close link => w.begin (.close link)
  | .ingest attempt ticket apiKey roll => w.begin (.ingest ⟨attempt, ticket, apiKey, roll⟩)

/-- Gives the client an input. -/
def give (w : World) (input : Input) : World :=
  let (client, effects) := w.client.step w.config w.moment input
  effects.foldl perform { w with client := client, inputs := w.inputs + 1 }

/-! ## Jobs -/

/-- Takes note of how far the handshake of an attempt has come. -/
def settleHandshake (w : World) (l : Link) (attempt : Attempt) (p : Handshake.Progress) : World :=
  let w := w.note (p.sent.map (.sent l.id))
  let l := { l with inbox := p.rest }
  match p.result with
  | none => w.putLink l
  | some (.ok ()) => (w.putLink { l with role := .unread }).post [.connected attempt l.id]
  | some (.error e) => (w.putLink { l with role := .unread }).post [.connectFailed attempt e]

/-- Opens a connection, and begins the handshake on it. -/
def openLink (w : World) (attempt : Attempt) (apiKey : String) (plan : DialPlan) : World :=
  let l : Link := {
    id := w.links.length + 1
    role := .handshake attempt apiKey
    broken := plan.broken
    inbox := plan.arrivals }
  let w := { w with links := w.links ++ [l] }
  w.settleHandshake l attempt (Handshake.start w.config.wireFormat apiKey l.fault l.inbox)

/-- Lets whoever reads the connection read what has arrived. -/
def readLink (w : World) (l : Link) : World :=
  match l.role with
  | .unread => w
  | .handshake attempt apiKey =>
    w.settleHandshake l attempt (Handshake.await w.config.wireFormat apiKey l.fault l.inbox)
  | .listener attempt =>
    let p := Listener.listen w.config.wireFormat (fun _ => l.fault) l.inbox
    let w := (w.note (p.sent.map (.sent l.id))).post (p.reports attempt)
    match p.stopped with
    | none => w.putLink { l with inbox := p.rest }
    | some _ => w.putLink { l with inbox := p.rest, role := .unread }

/-- Sends a message, if the connection lets it through. -/
def sendOn (w : World) (l : Link) (text : String) : World :=
  if l.broken then w else w.note [.sent l.id text]

/-- Answers a roll. -/
def answerRoll (w : World) (s : Submission) : World :=
  let (ingest, result) : Ingest × Except IngestError IngestReceipt :=
    match w.ingest.answer with
    | .accept =>
      let n := w.ingest.accepted + 1
      ({ w.ingest with accepted := n }, .ok ⟨"srv-" ++ toString n⟩)
    | .acceptAs id => (w.ingest, .ok ⟨id⟩)
    | .reject status message => (w.ingest, .error (.rejected status message))
    | .garble reason => (w.ingest, .error (.invalidReceipt reason))
    | .fail reason => (w.ingest, .error (.request reason))
  { w with ingest := ingest }.post [.ingested s.attempt s.ticket s.roll result]

/-- Takes a roll in, and answers it unless it has to wait. -/
def takeRoll (w : World) (s : Submission) : World :=
  let w := w.note [.submitted s.roll s.apiKey]
  if !w.ingest.holding then w.answerRoll s
  else if w.ingest.released then { w with ingest.released := false }.answerRoll s
  else { w with ingest.waiting := w.ingest.waiting ++ [s] }

/-- Does a job. -/
def run (w : World) : Job → World
  | .dial attempt url apiKey =>
    let plan := w.plan url
    let w := w.note [.dialled url]
    match plan.opening with
    | .atOnce => w.openLink attempt apiKey plan
    | .after delay => { w with delayed := w.delayed ++ [⟨w.clock + delay, attempt, apiKey, plan⟩] }
    | .never => w
    | .refused reason => w.post [.connectFailed attempt (.transport (.connectFailed reason))]
  | .listen attempt link =>
    match w.link? link with
    | some l => w.readLink { l with role := .listener attempt }
    | none => w
  | .send link text =>
    match w.link? link with
    | some l => w.sendOn l text
    | none => w
  | .close link =>
    match w.link? link with
    | some l =>
      let w := match w.config.wireFormat.goodbye with
        | some goodbye => w.sendOn l goodbye
        | none => w
      (w.putLink { l with role := .unread }).note [.closed link]
    | none => w
  | .ingest submission => w.takeRoll submission

/-- Lets the client read its mailbox, and then does the jobs. -/
def round (w : World) : World :=
  let w := w.mailbox.foldl (fun w report => w.give (.report report)) { w with mailbox := [] }
  w.jobs.foldl run { w with jobs := [] }

/-- Goes on until there is neither a report nor a job.  A command leads to a dial, that to a
connection, that to frames, and those to nothing more, so a few rounds are enough. -/
def settle : Nat → World → World
  | 0, w => w
  | rounds + 1, w => if w.mailbox.isEmpty && w.jobs.isEmpty then w else settle rounds w.round

/-- More rounds than anything takes. -/
def enoughRounds : Nat := 8

/-- Whether a command waits for its reply when there is neither a report nor a job: the command to
connect waits for its attempt, and one to submit for the server. -/
def isAwaited (w : World) : Bool := w.client.pending.isSome || !w.ingest.waiting.isEmpty

/-- Lets everything happen that can.  A client that nobody holds stops as soon as nobody waits for
it. -/
def rest (w : World) : World :=
  let w := w.settle enoughRounds
  if w.held || w.isAwaited then w else (w.give .abandoned).settle enoughRounds

/-! ## Time -/

/-- Something that happens at a moment of the clock. -/
inductive Timer where
  | deadline (d : Deadline)
  | opening (d : DelayedLink)
  deriving DecidableEq, Repr

/-- When it happens. -/
def Timer.due : Timer → Instant
  | .deadline d => d.due
  | .opening d => d.due

/-- What is going to happen. -/
def timers (w : World) : List Timer :=
  w.delayed.map .opening ++ (w.client.machine.deadline.map Timer.deadline).toList

/-- What happens first, of what happens up to a moment. -/
def nextTimer? (w : World) (limit : Instant) : Option Timer :=
  w.timers.foldl
    (fun first t =>
      if limit < t.due then first
      else match first with
        | none => some t
        | some f => if t.due < f.due then some t else some f)
    none

/-- Lets it happen. -/
def fire (w : World) (t : Timer) : World :=
  let w := { w with clock := max w.clock t.due }
  match t with
  | .deadline d => w.give (.deadline d.attempt)
  | .opening d =>
    { w with delayed := w.delayed.erase d }.openLink d.attempt d.apiKey d.plan

/-- Lets everything happen up to a moment, and moves the clock there.  Nothing that happens adds a
timer, so there are as many turns as timers. -/
def runUntil : Nat → World → Instant → World
  | 0, w, moment => { w with clock := max w.clock moment }
  | turns + 1, w, moment =>
    match w.nextTimer? moment with
    | some t => runUntil turns (w.fire t).rest moment
    | none => { w with clock := max w.clock moment }

/-- Moves the clock. -/
def advance (w : World) (nanoseconds : Nat) : World :=
  let w := w.rest
  runUntil (w.timers.length + 1) w (w.clock + nanoseconds)

/-! ## What may be done to a world -/

/-- Has the client carry out a command, if the user still holds it. -/
def command (w : World) (ticket : Ticket) (command : ClientCommand) : World :=
  if w.held then (w.give (.command ticket command)).advance 0 else w

/-- Lets go of the client. -/
def leave (w : World) : World := { w with held := false }.advance 0

/-- Lets something arrive on a connection; it is lost if nobody reads the connection. -/
def arrive (w : World) (link : LinkId) (arrival : Arrival) : World :=
  match w.link? link with
  | some l => (w.readLink { l with inbox := l.inbox ++ [arrival] }).advance 0
  | none => w

/-- Lets nothing through any more that is sent on a connection. -/
def breakLink (w : World) (link : LinkId) : World :=
  match w.link? link with
  | some l => w.putLink { l with broken := true }
  | none => w

/-- Releases the roll that has waited longest, or the next one that has to wait. -/
def release (w : World) : World :=
  match w.ingest.waiting with
  | s :: rest => ({ w with ingest.waiting := rest }.answerRoll s).advance 0
  | [] => { w with ingest.released := true }

/-- Takes the events out of the queue. -/
def takeEvents (w : World) : List ClientEvent × World :=
  let (events, queue) := w.events.drain
  (events, { w with events := queue })

end DiceTable.Sandbox.World
