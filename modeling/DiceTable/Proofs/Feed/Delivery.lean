import DiceTable.Feed.Route
import Mathlib.Data.List.Nodup

/-!
# How rolls get into a feed

Events carry rolls (`InboundEvent.rolls`), routing turns an event into an action that puts the same
rolls in (`arranged_route`), and an action puts its rolls in front of those that are shown, up to
the capacity (`records_apply`).

A feed is `Tidy` when it shows no roll twice.  Deliveries keep it so as long as the rolls of one
event are distinct among themselves: known rolls are told apart by comparing with the feed, and
nothing compares the rolls of one batch with each other.
-/

namespace DiceTable

/-- The rolls that an event carries, in the order in which they are given. -/
def InboundEvent.rolls (occasion : Occasion) : InboundEvent → List RollRecord
  | .tableHistory history => history.rolls
  | .newRoll record => [record]
  | .roll record => [record]
  | .message (.roll record) => [record]
  | .message (.subscribed _ recent) => recent
  | .rollResult forwarded => [forwarded.toRecord occasion]
  | _ => []

/-- The rolls of an event that may carry more than one. -/
def InboundEvent.batch : InboundEvent → List RollRecord
  | .tableHistory history => history.rolls
  | .message (.subscribed _ recent) => recent
  | _ => []

/-- An event that repeats no roll in a batch repeats none. -/
theorem InboundEvent.nodup_rolls {event : InboundEvent} (h : (event.batch.map (·.id)).Nodup)
    (occasion : Occasion) : ((event.rolls occasion).map (·.id)).Nodup := by
  cases event with
  | tableHistory history => exact h
  | message envelope =>
      cases envelope with
      | subscribed table recent => exact h
      | _ => simp [rolls]
  | _ => simp [rolls]

namespace FeedAction

/-- The rolls of an action in the order in which they are put in. -/
def arranged : FeedAction → List RollRecord
  | .none => []
  | .prepend record => [record]
  | .batch records order => order.arrange records

/-- Known rolls are dropped, and the order of the others stays. -/
theorem arranged_withoutKnown (action : FeedAction) (f : Feed) :
    (action.withoutKnown f).arranged =
      action.arranged.filter fun record => !f.contains record.id := by
  cases action with
  | none => rfl
  | prepend record =>
      cases hknown : f.contains record.id <;> simp [withoutKnown, arranged, hknown]
  | batch records order =>
      have harrange (given : List RollRecord) :
          order.arrange (given.filter fun record => !f.contains record.id) =
            (order.arrange given).filter fun record => !f.contains record.id := by
        cases order <;> simp [BatchOrder.arrange, List.filter_reverse]
      rw [arranged, ← harrange, withoutKnown]
      cases hfresh : records.filter fun record => !f.contains record.id with
      | nil => cases order <;> rfl
      | cons record fresh => rfl

theorem withoutKnown_eq_none {action : FeedAction} {f : Feed}
    (h : ∀ record ∈ action.arranged, f.contains record.id = true) :
    action.withoutKnown f = .none := by
  cases action with
  | none => rfl
  | prepend record => simp [withoutKnown, h record (by simp [arranged])]
  | batch records order =>
      have hnone : (records.filter fun record => !f.contains record.id) = [] := by
        rw [List.filter_eq_nil_iff]
        intro record hrecord
        have hmem : record ∈ order.arrange records := by
          cases order <;> simpa [BatchOrder.arrange] using hrecord
        simp [h record hmem]
      simp [withoutKnown, hnone]

/-- The last roll that an action puts in stands first, and what is beyond the capacity is gone. -/
theorem records_apply (action : FeedAction) {f : Feed} (hf : f.records.length ≤ f.capacity) :
    (action.apply f).1.records = (action.arranged.reverse ++ f.records).take f.capacity := by
  cases action with
  | none => simp [apply, arranged, List.take_of_length_le hf]
  | prepend record => exact f.records_prepend record
  | batch records order => exact f.records_prependBatch records order

@[simp] theorem capacity_apply (action : FeedAction) (f : Feed) :
    (action.apply f).1.capacity = f.capacity := by
  cases action <;> rfl

theorem inserted_apply (action : FeedAction) (f : Feed) :
    (action.apply f).2 = action.arranged.length := by
  cases action with
  | none => rfl
  | prepend record => rfl
  | batch records order => rfl

end FeedAction

/-- A connected session puts in the rolls that an event carries, and no other session any. -/
theorem arranged_route (occasion : Occasion) (state : SessionState) (event : InboundEvent) :
    (route occasion state event).action.arranged =
      if state.isConnected then event.rolls occasion else [] := by
  cases state with
  | connected table =>
      cases event with
      | message envelope => cases envelope <;> rfl
      | proxyConnected server => cases server <;> rfl
      | rollForwarded success => cases success <;> rfl
      | _ => rfl
  | _ => rfl

namespace Feed

/-- The feed shows no roll twice, is within its capacity, and has room for a roll. -/
structure Tidy (f : Feed) : Prop where
  capacity_pos : 0 < f.capacity
  length_le : f.records.length ≤ f.capacity
  nodup : f.ids.Nodup

theorem contains_eq_false_iff {f : Feed} {id : RollId} : f.contains id = false ↔ id ∉ f.ids := by
  rw [← Bool.not_eq_true, contains_iff]
  rfl

theorem tidy_new (capacity : Nat) : (new capacity).Tidy where
  capacity_pos := Nat.lt_of_lt_of_le Nat.one_pos (Nat.le_max_right capacity 1)
  length_le := Nat.zero_le _
  nodup := List.nodup_nil

namespace Tidy

variable {f : Feed}

theorem clear (h : f.Tidy) : f.clear.Tidy where
  capacity_pos := h.capacity_pos
  length_le := Nat.zero_le _
  nodup := List.nodup_nil

/-- Distinct rolls that a feed does not show may be put in front of it. -/
theorem of_records (h : f.Tidy) {g : Feed} {front : List RollRecord}
    (hcapacity : g.capacity = f.capacity)
    (hrecords : g.records = (front ++ f.records).take f.capacity)
    (hfront : (front.map (·.id)).Nodup) (hnew : ∀ record ∈ front, f.contains record.id = false) :
    g.Tidy where
  capacity_pos := hcapacity ▸ h.capacity_pos
  length_le := by
    rw [hrecords, hcapacity]
    exact List.length_take_le _ _
  nodup := by
    -- Eviction only drops rolls, so it is enough to look at the feed before it.
    have hall : ((front ++ f.records).map (·.id)).Nodup := by
      rw [List.map_append, List.nodup_append]
      refine ⟨hfront, h.nodup, ?_⟩
      intro id hid other hother heq
      obtain ⟨record, hrecord, rfl⟩ := List.mem_map.mp hid
      exact contains_eq_false_iff.mp (hnew record hrecord) (heq ▸ hother)
    rw [ids, hrecords]
    exact hall.sublist ((List.take_sublist _ _).map _)

theorem prepend (h : f.Tidy) {record : RollRecord} (hnew : f.contains record.id = false) :
    (f.prepend record).Tidy := by
  have hrecords : (f.prepend record).records = ([record] ++ f.records).take f.capacity :=
    f.records_prepend record
  exact h.of_records rfl hrecords (List.nodup_singleton _) (by simpa using hnew)

/-- An action on distinct rolls, without those that are known, keeps a feed tidy. -/
theorem deliver (h : f.Tidy) (action : FeedAction) (hrolls : (action.arranged.map (·.id)).Nodup) :
    ((action.withoutKnown f).apply f).1.Tidy := by
  have hrecords := (action.withoutKnown f).records_apply h.length_le
  rw [FeedAction.arranged_withoutKnown] at hrecords
  refine h.of_records (FeedAction.capacity_apply _ f) hrecords ?_ ?_
  · rw [List.map_reverse, List.nodup_reverse]
    exact hrolls.sublist (List.filter_sublist.map _)
  · intro record hrecord
    simpa using (List.mem_filter.mp (List.mem_reverse.mp hrecord)).2

theorem mem_ids_prepend (h : f.Tidy) (record : RollRecord) :
    record.id ∈ (f.prepend record).ids := by
  obtain ⟨n, hn⟩ := Nat.exists_eq_succ_of_ne_zero (Nat.ne_of_gt h.capacity_pos)
  rw [ids, records_prepend, hn, List.take_succ_cons, List.map_cons]
  exact List.mem_cons_self

end Tidy

end Feed

end DiceTable
