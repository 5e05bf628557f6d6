import DiceTable.Feed.Basic

/-!
# Actions on the feed

What an event asks of the feed: nothing, one roll, or a batch.  Before an action is carried out,
rolls that the feed already shows are dropped from it.
-/

namespace DiceTable

/-- A change to the feed. -/
inductive FeedAction where
  | none
  | prepend (record : RollRecord)
  | batch (records : List RollRecord) (order : BatchOrder)
  deriving DecidableEq, Repr

namespace FeedAction

/-- Carries the action out, and answers how many rolls were put in. -/
def apply (action : FeedAction) (feed : Feed) : Feed × Nat :=
  match action with
  | .none => (feed, 0)
  | .prepend record => (feed.prepend record, 1)
  | .batch records order => feed.prependBatch records order

/-- The action without the rolls that the feed shows. -/
def withoutKnown (action : FeedAction) (feed : Feed) : FeedAction :=
  match action with
  | .none => .none
  | .prepend record => if feed.contains record.id then .none else .prepend record
  | .batch records order =>
    match records.filter fun record => !feed.contains record.id with
    | [] => .none
    | fresh => .batch fresh order

/-- Whether there is nothing to do. -/
def isNone : FeedAction → Bool
  | .none => true
  | _ => false

end FeedAction

end DiceTable
