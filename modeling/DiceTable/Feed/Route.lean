import DiceTable.Event.Inbound
import DiceTable.Feed.Action
import DiceTable.Session.State

/-!
# Routing events

An event becomes a change to the feed and, sometimes, a notice to the user.  Peers describe rolls in
several shapes; all of them lead to the same changes.  While the session is not connected, every
event is ignored.
-/

namespace DiceTable

/-- A message to the user. -/
inductive Notice where
  | info (message : String)
  | error (message : String)
  deriving DecidableEq, Repr

/-- What to do about an event. -/
structure Routed where
  action : FeedAction := .none
  notice : Option Notice := none
  deriving DecidableEq, Repr

/-- What an action may take from its surroundings: the time, and a random number. -/
structure Occasion where
  now : Timestamp
  random : Nat
  deriving DecidableEq, Repr

namespace ForwardedRoll

/-- The label of the source of forwarded rolls. -/
def proxyLabel : String := "CritCast Proxy Server"

/-- The record of a forwarded roll: one die of unknown size for each value, and one modifier.  It is
given an identifier, and dated to the occasion if it has no timestamp. -/
def toRecord (f : ForwardedRoll) (occasion : Occasion) : RollRecord where
  id := RollId.generate occasion.now occasion.random
  formula := f.formula
  dice := f.rolls.map Die.unsized
  modifiers := [Modifier.ofSigned f.modifier]
  total := f.total
  context := { rollType := some "forwarded", character := some (f.player.getD "Unknown Player") }
  source := { kind := .proxy, label := some proxyLabel }
  timestamp := f.timestamp.getD occasion.now

end ForwardedRoll

/-- The notice of a subscription. -/
def subscriptionText (table : TableId) : String := "subscribed to table " ++ table

/-- Routes the content of a message envelope. -/
def TableMessage.route : TableMessage → Routed
  | .roll record => { action := .prepend record }
  | .subscribed table recent =>
    let text := subscriptionText (table.getD "")
    { action := .batch recent .oldestFirst
      notice := some (.info
        (if recent.isEmpty then text
          else text ++ ", loaded " ++ toString recent.length ++ " recent rolls")) }
  | .error message => { notice := some (.error message) }
  | .other => {}

/-- Routes an event of a connected session. -/
def InboundEvent.route (occasion : Occasion) (table : TableId) : InboundEvent → Routed
  | .tableSubscribed confirmation =>
    { notice := some (.info (subscriptionText (confirmation.table.getD table))) }
  | .tableHistory history => { action := .batch history.rolls .oldestFirst }
  | .newRoll record => { action := .prepend record }
  | .roll record => { action := .prepend record }
  | .message envelope => envelope.route
  | .socketError text => { notice := some (.error text) }
  | .proxyConnected (some server) => { notice := some (.info ("connected to " ++ server)) }
  | .proxyConnected none => { notice := some (.info "connected to proxy") }
  | .rollForwarded true => { notice := some (.info "roll forwarded") }
  | .rollForwarded false => {}
  | .rollError text =>
    { notice := some (.error ("roll forwarding failed: " ++ text.getD "unknown error")) }
  | .rollResult forwarded => { action := .prepend (forwarded.toRecord occasion) }
  | .unknown _ => {}

/-- Routes an event; it is ignored unless the session is connected. -/
def route (occasion : Occasion) (state : SessionState) (event : InboundEvent) : Routed :=
  match state.table? with
  | some table => event.route occasion table
  | none => {}

end DiceTable
