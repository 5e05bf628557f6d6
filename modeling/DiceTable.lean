import DiceTable.Main
import DiceTable.Proofs.Session.Attempt
import DiceTable.Proofs.Client.Step
import DiceTable.Proofs.Client.Run
import DiceTable.Proofs.Client.Slots
import DiceTable.Proofs.Client.Display
import DiceTable.Proofs.Client.Connecting
import DiceTable.Proofs.Client.Stale
import DiceTable.Proofs.Session.Credentials
import DiceTable.Proofs.Feed.History
import DiceTable.Proofs.Feed.Replay
import DiceTable.Proofs.Json.Tree
import DiceTable.Proofs.Json.Depth
import DiceTable.Proofs.Event.Carried
import DiceTable.Proofs.Feed.Stream
import DiceTable.Proofs.Client.Frame
import DiceTable.Proofs.Wire.Handshake
import DiceTable.Proofs.Wire.Verdict
import DiceTable.Proofs.Wire.Listener
import DiceTable.Proofs.Dice.Reading
import DiceTable.Proofs.Dice.Pieces
import DiceTable.Proofs.Dice.Grammar
import DiceTable.Proofs.Dice.Oversize
import DiceTable.Proofs.Dice.Joining
import DiceTable.Proofs.Dice.Rolling
import DiceTable.Proofs.Dice.Range
import DiceTable.Proofs.Roll.ComponentSum
import DiceTable.Proofs.Json.Compact
import DiceTable.Proofs.Timestamp.Reading
import DiceTable.Proofs.Json.Record
import DiceTable.Proofs.Json.Survival
import DiceTable.Proofs.Roll.RoundTrip
import DiceTable.Proofs.Event.RoundTrip
import DiceTable.Proofs.Client.Submission
import DiceTable.Proofs.Client.Connections
import DiceTable.Proofs.Wire.Framings
import DiceTable.Proofs.Wire.Packet
import DiceTable.Proofs.Session.Deadline
import DiceTable.Proofs.Client.Events
import DiceTable.Proofs.Sandbox.Reader
import DiceTable.Proofs.Client.Secrecy
import DiceTable.Proofs.Json.Acceptance
import DiceTable.Proofs.Sandbox.Secrecy
import DiceTable.Proofs.Roll.Forwarded
import DiceTable.Proofs.Event.Listed
import DiceTable.Proofs.Feed.Single
import DiceTable.Proofs.Client.Rejection
import DiceTable.Proofs.Client.Config
import DiceTable.Proofs.Console.Prompt
