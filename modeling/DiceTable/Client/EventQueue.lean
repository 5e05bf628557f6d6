import DiceTable.Client.Event

/-!
# The event queue

Events wait for the user in a queue of bounded length.  An event that finds the queue full is lost,
and so is every event when nobody reads the queue any more.
-/

namespace DiceTable

/-- The events that wait for the user, oldest first. -/
structure EventQueue where
  capacity : Nat
  waiting : List ClientEvent := []
  hasReader : Bool := true
  deriving DecidableEq, Repr

namespace EventQueue

/-- Adds an event, if there is room for it. -/
def push (q : EventQueue) (event : ClientEvent) : EventQueue :=
  if q.hasReader && q.waiting.length < q.capacity then { q with waiting := q.waiting ++ [event] }
  else q

/-- An event joins the end of the queue or changes nothing. -/
theorem push_eq (q : EventQueue) (event : ClientEvent) :
    q.push event = q ∨ q.push event = { q with waiting := q.waiting ++ [event] } := by
  unfold push
  split
  · exact .inr rfl
  · exact .inl rfl

/-- Takes all events out. -/
def drain (q : EventQueue) : List ClientEvent × EventQueue := (q.waiting, { q with waiting := [] })

/-- The queue without a reader. -/
def abandon (q : EventQueue) : EventQueue := { q with waiting := [], hasReader := false }

end EventQueue

end DiceTable
