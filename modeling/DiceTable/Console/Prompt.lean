import DiceTable.Console.Command
import DiceTable.Sandbox.World

/-!
# The prompt

The prompt reads lines, has a client carry them out, and prints what comes of it.  Two kinds of
lines are printed: the answers to commands, and the events of the client, which begin with a star or
an exclamation mark.  Connecting goes on in the background; its answer is printed when it comes.

What becomes of a connection is up to the dial plan with which a prompt is started.  Without one no
server can be reached (`refuse`): the reasons that are given then are those of a web socket on a
machine without a network, for an address with the scheme of a web socket and for any other.
-/

namespace DiceTable.Console

open DiceTable.Sandbox (World DialPlan)

/-- What is printed for a line of input. -/
structure Printed where
  answers : List String := []
  events : List String := []
  deriving DecidableEq, Repr

/-- A prompt: its client, and the number of commands given to it. -/
structure Prompt where
  world : World
  given : Nat := 0
  /-- Whether the user has quit. -/
  finished : Bool := false

/-! ## What is printed -/

/-- The line for an event of the client, if it has one. -/
def eventLine? : ClientEvent → Option String
  | .statusChanged state => some ("* status: " ++ state.text)
  | .notice (.error message) => some ("! " ++ message)
  | .notice (.info message) => some ("* " ++ message)
  | .feedUpdated length => some ("* feed now holds " ++ toString length ++ " rolls")
  | .messageReceived _ => none

/-- The line for the outcome of connecting. -/
def connectLine : Reply → String
  | .ok (.table table) => "connected to " ++ table
  | .ok _ => "connected"
  | .error e => "connect failed: " ++ e.message

/-- The line for the outcome of a roll. -/
def rollLines : Reply → List String
  | .ok (.record record) => ["rolled " ++ record.text]
  | .ok _ => []
  | .error e =>
    if e.isInputError then [e.message ++ " (see 'help')"] else ["roll failed: " ++ e.message]

/-- The lines of a feed. -/
def feedLines (feed : List RollRecord) : List String :=
  if feed.isEmpty then ["(no rolls yet)"]
  else feed.map fun r => "  " ++ r.context.character.getD "?" ++ ": " ++ r.text

/-- The lines of the last message. -/
def lastLines (last : LastMessage) : List String :=
  match last.render? with
  | some text => text.splitOn "\n"
  | none => ["(nothing received)"]

/-- The line of the state of the session. -/
def statusLine (state : SessionState) (last : LastMessage) : String :=
  match last.receivedAt? with
  | some time => state.text ++ " (last message " ++ time.clockText ++ ")"
  | none => state.text

/-- The lines for a command, given what the client replied to it. -/
def Command.lines (command : Command) (reply : Reply) : List String :=
  match command, reply with
  | .roll _, reply => rollLines reply
  | .feed, .ok (.snapshot s) => feedLines s.feed
  | .last, .ok (.snapshot s) => lastLines s.lastMessage
  | .status, .ok (.snapshot s) => [statusLine s.state s.lastMessage]
  | .disconnect, .ok (.disconnected false) => ["not connected"]
  | _, _ => []

/-! ## What is done -/

/-- What a command asks of the client, if anything. -/
def Command.asks? : Command → Option ClientCommand
  | .connect apiKey table => some (.connect (.ofTexts apiKey table))
  | .roll request => some (.submit request)
  | .feed => some .snapshot
  | .last => some .snapshot
  | .status => some .snapshot
  | .clear => some .clear
  | .disconnect => some .disconnect
  | .help => none
  | .quit => none

/-- The scheme of an address. -/
def scheme (url : String) : String := (url.splitOn "://").headD ""

/-- What becomes of a connection to an address without a network. -/
def refuse (url : String) : DialPlan where
  opening := .refused
    (if scheme url = "ws" ∨ scheme url = "wss" then "IO error: network is unreachable"
      else "URL error: URL scheme not supported")

namespace Prompt

/-- The name under which the prompt submits its rolls. -/
def appName : String := "CritCast Console Roller"

/-- A prompt with the settings of an environment; `plan` is what becomes of its connections. -/
def start (lookup : String → Option String) (now : Timestamp) (words : Dice.WordStream)
    (plan : String → DialPlan := refuse) : Prompt :=
  let config := { Config.ofEnvironment lookup with appName := appName }.validated
  { world := { World.new config now words with plan := plan } }

/-- Prints what the client has said since: its reply to the command of this line, the outcomes of
connecting, and its events. -/
def report (p : Prompt) (command : Command) : Prompt × Printed :=
  let answers := p.world.replies.flatMap fun (ticket, reply) =>
    match command with
    | .connect _ _ => [connectLine reply]
    | command => if ticket = p.given then command.lines reply else [connectLine reply]
  let (events, world) := p.world.takeEvents
  ({ p with world := { world with replies := [] } }, ⟨answers, events.filterMap eventLine?⟩)

/-- Carries a command out. -/
def carryOut (p : Prompt) (command : Command) : Prompt × Printed :=
  match command.asks? with
  | some asked =>
    let given := p.given + 1
    { p with world := p.world.command given asked, given := given }.report command
  | none =>
    match command with
    | .help => (p, { answers := helpLines })
    | _ => ({ p with finished := true }, {})

/-- Reads a line.  After the user has quit, lines are not read any more. -/
def enter (p : Prompt) (line : String) : Prompt × Printed :=
  if p.finished || Text.allBlank line then (p, {})
  else
    match Command.parse line with
    | .ok command => p.carryOut command
    | .error e => (p, { answers := [e.message] })

/-- Stops the client, and prints what it still has to say. -/
def stop (p : Prompt) : Prompt × Printed :=
  let given := p.given + 1
  { p with world := p.world.command given .shutdown, given := given }.report .quit

end Prompt

end DiceTable.Console
