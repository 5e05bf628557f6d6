import DiceTable.Proofs.Feed.Delivery

/-!
# The feed as a window on its history

A feed keeps only what it shows: a roll that is dropped is gone, and no later change can bring it
back.  Nevertheless what it shows is determined by everything that was ever put in.  The *history*
of a feed lists the rolls put in since it was cleared last, oldest first, and the feed shows the
latest of them, newest first, up to its capacity (`Feed.Shows`).

## Strategy

A change drops what is beyond the capacity after all its rolls are in, and a later change puts
more rolls in front of what is left.  To drop in between makes no difference (`take_append_take`),
so that each change keeps `Feed.Shows` and lengthens the history; the runs follow by induction.
-/

namespace DiceTable

/-- A change made to a feed. -/
inductive FeedChange where
  | prepend (record : RollRecord)
  | batch (records : List RollRecord) (order : BatchOrder)
  | clear
  deriving DecidableEq, Repr

namespace FeedChange

/-- The history of a feed after a change, oldest roll first.  A batch that comes newest first is put
in from its last record to its first. -/
def extend (history : List RollRecord) : FeedChange → List RollRecord
  | .prepend record => history ++ [record]
  | .batch records .oldestFirst => history ++ records
  | .batch records .newestFirst => history ++ records.reverse
  | .clear => []

/-- All rolls put in by these changes since the last clearing among them, oldest first. -/
def history (changes : List FeedChange) : List RollRecord := changes.foldl extend []

end FeedChange

namespace Feed

/-- Makes a change. -/
def change (f : Feed) : FeedChange → Feed
  | .prepend record => f.prepend record
  | .batch records order => (f.prependBatch records order).1
  | .clear => f.clear

/-- The feed after these changes. -/
def after (f : Feed) (changes : List FeedChange) : Feed := changes.foldl change f

section Lists

variable (f : Feed) (change : FeedChange) (changes later : List FeedChange)

@[simp] theorem after_nil : f.after [] = f := rfl

@[simp] theorem after_cons :
    f.after (change :: changes) = (f.change change).after changes := rfl

@[simp] theorem after_append :
    f.after (changes ++ later) = (f.after changes).after later :=
  List.foldl_append

@[simp] theorem capacity_change : (f.change change).capacity = f.capacity := by
  cases change <;> rfl

@[simp] theorem capacity_after : (f.after changes).capacity = f.capacity := by
  induction changes generalizing f with
  | nil => rfl
  | cons change changes ih => rw [after_cons, ih, capacity_change]

end Lists

/-- The feed shows the latest rolls of this history, newest first. -/
def Shows (f : Feed) (history : List RollRecord) : Prop :=
  f.records = history.reverse.take f.capacity

/-- Rolls that are going to be dropped may be dropped before others are put in front of them. -/
theorem take_append_take (n : Nat) (front shown : List RollRecord) :
    (front ++ shown.take n).take n = (front ++ shown).take n := by
  rw [List.take_append, List.take_append, List.take_take, Nat.min_eq_left (Nat.sub_le ..)]

namespace Shows

variable {f : Feed} {history : List RollRecord}

theorem new (capacity : Nat) : (new capacity).Shows [] := List.take_nil.symm

theorem length_le (h : f.Shows history) : f.records.length ≤ f.capacity := by
  rw [h]
  exact List.length_take_le _ _

/-- Every change keeps a feed a window on its history. -/
theorem change (h : f.Shows history) (change : FeedChange) :
    (f.change change).Shows (change.extend history) := by
  -- All that is put in stands in front of the feed, and the feed is cut off afterwards.
  have hfront (inserted : List RollRecord) (g : Feed) (hcapacity : g.capacity = f.capacity)
      (hrecords : g.records = (inserted.reverse ++ f.records).take f.capacity) :
      g.Shows (history ++ inserted) := by
    rw [Shows, hrecords, h, hcapacity, List.reverse_append, take_append_take]
  cases change with
  | prepend record => exact hfront [record] _ rfl (f.records_prepend record)
  | batch records order =>
      cases order with
      | oldestFirst => exact hfront records _ rfl (f.records_prependBatch records .oldestFirst)
      | newestFirst =>
          exact hfront records.reverse _ rfl (f.records_prependBatch records .newestFirst)
  | clear => exact (List.take_nil).symm

theorem after (h : f.Shows history) (changes : List FeedChange) :
    (f.after changes).Shows (changes.foldl FeedChange.extend history) := by
  induction changes generalizing f history with
  | nil => exact h
  | cons change changes ih => exact ih (h.change change)

end Shows

/-- **A feed is a window on its history.**  After any changes to a new feed, it shows the latest
rolls put in since it was cleared last, newest first, as many as it has room for.  So the roll put
in last stands first, and what is missing at the end of the feed are the oldest rolls and no
others, and they are missing only if the feed is full. -/
theorem window_on_history (capacity : Nat) (changes : List FeedChange) :
    let f := (new capacity).after changes
    let history := FeedChange.history changes
    f.records = history.reverse.take (max capacity 1) ∧
      f.length ≤ max capacity 1 ∧
      f.records.head? = history.getLast? ∧
      ∃ dropped, history = dropped ++ f.records.reverse ∧
        (dropped = [] ∨ f.length = max capacity 1) := by
  intro f history
  have hcapacity : f.capacity = max capacity 1 := capacity_after (new capacity) changes
  have hshows : f.Shows history := (Shows.new capacity).after changes
  have hrecords : f.records = history.reverse.take (max capacity 1) := hcapacity ▸ hshows
  refine ⟨hrecords, hcapacity ▸ hshows.length_le, ?_, ?_⟩
  · have hpos : max capacity 1 ≠ 0 := by omega
    rw [hrecords, List.head?_take, if_neg hpos, List.head?_reverse]
  · refine ⟨(history.reverse.drop (max capacity 1)).reverse, ?_, ?_⟩
    · rw [← List.reverse_append, hrecords, List.take_append_drop, List.reverse_reverse]
    · rcases Nat.le_total history.reverse.length (max capacity 1) with hfits | hfull
      · left
        rw [List.drop_of_length_le hfits, List.reverse_nil]
      · right
        rw [length, hrecords, List.length_take_of_le hfull]

end Feed

end DiceTable
