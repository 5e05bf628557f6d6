import DiceTable.Proofs.Feed.Delivery
import Mathlib.Data.List.Perm.Subperm

/-!
# A history that comes again

A table sends its history whenever a client subscribes to it, and a client leaves out the rolls that
it knows.  But it only knows what its feed shows.  A roll that was dropped is new when the history
comes again, and then it is put in front of rolls that are newer.  So it makes no difference whether
a history is delivered once or twice if the feed shows all of it after the first time, and in no
other case (`replay_changes_nothing_iff`).

## Strategy

What a delivery puts in are the rolls of the history that the feed does not show (`fresh`), and they
come to stand in front of the others (`ids_takeHistory`).  After the first delivery, therefore, the
question is whether any roll of the history is missing.  The fresh ones are there if there is room
for them, and those that were known are there if the fresh ones have not pushed them out
(`shown_iff`).
-/

namespace DiceTable.Feed

/-- Delivers a history to the feed of a session that is connected to the table, and answers how many
rolls were put in. -/
def takeHistory (f : Feed) (occasion : Occasion) (table : TableId) (history : History) :
    Feed × Nat :=
  ((route occasion (.connected table) (.tableHistory history)).action.withoutKnown f).apply f

/-- The rolls that the feed does not show. -/
def fresh (f : Feed) (rolls : List RollRecord) : List RollRecord :=
  rolls.filter fun roll => roll.id ∉ f.ids

section Delivery

variable {f : Feed} {occasion : Occasion} {table : TableId} {history : History}

theorem fresh_eq_nil_iff {rolls : List RollRecord} :
    f.fresh rolls = [] ↔ ∀ roll ∈ rolls, roll.id ∈ f.ids := by
  simp [fresh, List.filter_eq_nil_iff]

/-- A delivery puts in what the feed does not show, in the order of the history. -/
theorem arranged_history :
    ((route occasion (.connected table) (.tableHistory history)).action.withoutKnown f).arranged =
      f.fresh history.rolls := by
  have hknown (roll : RollRecord) : (!f.contains roll.id) = decide (roll.id ∉ f.ids) := by
    rw [Bool.eq_iff_iff, Bool.not_eq_true', contains_eq_false_iff, decide_eq_true_iff]
  rw [FeedAction.arranged_withoutKnown, arranged_route]
  simp only [hknown]
  rfl

theorem inserted_takeHistory :
    (f.takeHistory occasion table history).2 = (f.fresh history.rolls).length := by
  rw [takeHistory, FeedAction.inserted_apply, arranged_history]

theorem records_takeHistory (hf : f.Tidy) :
    (f.takeHistory occasion table history).1.records =
      ((f.fresh history.rolls).reverse ++ f.records).take f.capacity := by
  rw [takeHistory, FeedAction.records_apply _ hf.length_le, arranged_history]

theorem ids_takeHistory (hf : f.Tidy) :
    (f.takeHistory occasion table history).1.ids =
      (((f.fresh history.rolls).map (·.id)).reverse ++ f.ids).take f.capacity := by
  rw [ids, records_takeHistory hf, List.map_take, List.map_append, List.map_reverse]
  rfl

/-- A history that is shown changes nothing. -/
theorem takeHistory_of_shown (h : ∀ roll ∈ history.rolls, roll.id ∈ f.ids) :
    f.takeHistory occasion table history = (f, 0) := by
  have hnone : (route occasion (.connected table) (.tableHistory history)).action.withoutKnown f =
      .none :=
    FeedAction.withoutKnown_eq_none fun roll hroll => contains_iff.mpr (h roll hroll)
  rw [takeHistory, hnone]
  rfl

/-- A history that is not shown as a whole brings a roll to the front that was not there. -/
theorem shown_of_takeHistory_eq (hf : f.Tidy) (h : (f.takeHistory occasion table history).1 = f) :
    ∀ roll ∈ history.rolls, roll.id ∈ f.ids := by
  rw [← fresh_eq_nil_iff]
  by_contra hfresh
  obtain ⟨id, others, hids⟩ : ∃ id others, ((f.fresh history.rolls).map (·.id)).reverse =
      id :: others := List.exists_cons_of_ne_nil (by simpa using hfresh)
  obtain ⟨room, hroom⟩ := Nat.exists_eq_succ_of_ne_zero (Nat.ne_of_gt hf.capacity_pos)
  have hshown : id ∈ f.ids := by
    have hsame := congrArg ids h
    rw [ids_takeHistory hf, hids, hroom, List.cons_append, List.take_succ_cons] at hsame
    exact hsame ▸ List.mem_cons_self
  have hmem : id ∈ (f.fresh history.rolls).map (·.id) := by
    rw [← List.mem_reverse, hids]
    exact List.mem_cons_self
  obtain ⟨roll, hroll, rfl⟩ := List.mem_map.mp hmem
  exact of_decide_eq_true (List.mem_filter.mp hroll).2 hshown

/-- After a delivery the whole history is shown if there is room for the fresh rolls, and if the
rolls that were known are not among those that make room for them. -/
theorem shown_iff (occasion : Occasion) (table : TableId) (hf : f.Tidy)
    (hdistinct : (history.rolls.map (·.id)).Nodup) :
    (∀ roll ∈ history.rolls, roll.id ∈ (f.takeHistory occasion table history).1.ids) ↔
      (f.fresh history.rolls).length ≤ f.capacity ∧
        ∀ roll ∈ history.rolls, roll.id ∈ f.ids →
          roll.id ∈ f.ids.take (f.capacity - (f.fresh history.rolls).length) := by
  let new : List RollId := (f.fresh history.rolls).map (·.id)
  have hlength : new.reverse.length = (f.fresh history.rolls).length := by
    rw [List.length_reverse, List.length_map]
  have hcut : (f.takeHistory occasion table history).1.ids =
      new.reverse.take f.capacity ++ f.ids.take (f.capacity - (f.fresh history.rolls).length) := by
    rw [ids_takeHistory hf, List.take_append, hlength]
  have hunknown : ∀ id ∈ new, id ∉ f.ids := by
    intro id hid
    obtain ⟨roll, hroll, rfl⟩ := List.mem_map.mp hid
    exact of_decide_eq_true (List.mem_filter.mp hroll).2
  rw [hcut]
  constructor
  · intro hshown
    constructor
    · -- The fresh rolls are distinct, and all of them stand in the room that there is.
      have hsubset : new ⊆ new.reverse.take f.capacity := by
        intro id hid
        obtain ⟨roll, hroll, rfl⟩ := List.mem_map.mp hid
        have hmem := hshown roll (List.mem_filter.mp hroll).1
        exact (List.mem_append.mp hmem).resolve_right fun hknown =>
          hunknown _ hid (List.mem_of_mem_take hknown)
      have hnodup : new.Nodup := hdistinct.sublist (List.filter_sublist.map _)
      have hfits := (hnodup.subperm hsubset).length_le
      rw [List.length_take, List.length_reverse, List.length_map] at hfits
      omega
    · intro roll hroll hknown
      exact (List.mem_append.mp (hshown roll hroll)).resolve_left fun hnew =>
        hunknown _ (List.mem_reverse.mp (List.mem_of_mem_take hnew)) hknown
  · rintro ⟨hfits, hkept⟩ roll hroll
    by_cases hknown : roll.id ∈ f.ids
    · exact List.mem_append_right _ (hkept roll hroll hknown)
    · have hnew : roll.id ∈ new :=
        List.mem_map_of_mem (List.mem_filter.mpr ⟨hroll, decide_eq_true hknown⟩)
      rw [List.take_of_length_le (hlength ▸ hfits)]
      exact List.mem_append_left _ (List.mem_reverse.mpr hnew)

end Delivery

/-- **A history that comes again.**  After a history was delivered to a feed, the same history once
more puts in the rolls that the feed does not show, and no others.  So it puts in none, and leaves
the feed as it is, exactly if the feed shows the whole history by then.  That is so exactly if there
was room for the rolls that were new to the feed, and if the others of the history stood where the
new ones do not push them out; in particular if there was room for the new rolls beside those that
the feed showed. -/
theorem replay_changes_nothing_iff (occasion again : Occasion) (table table' : TableId) {f : Feed}
    (hf : f.Tidy) {history : History} (hdistinct : (history.rolls.map (·.id)).Nodup) :
    let first := (f.takeHistory occasion table history).1
    let second := first.takeHistory again table' history
    let new := f.fresh history.rolls
    second.1.records = ((first.fresh history.rolls).reverse ++ first.records).take f.capacity ∧
      second.2 = (first.fresh history.rolls).length ∧
      (second = (first, 0) ↔ ∀ roll ∈ history.rolls, roll.id ∈ first.ids) ∧
      (second.1 = first ↔ second.2 = 0) ∧
      ((∀ roll ∈ history.rolls, roll.id ∈ first.ids) ↔
        new.length ≤ f.capacity ∧ ∀ roll ∈ history.rolls, roll.id ∈ f.ids →
          roll.id ∈ f.ids.take (f.capacity - new.length)) ∧
      (f.length + new.length ≤ f.capacity → second = (first, 0)) := by
  intro first second new
  have htidy : first.Tidy := by
    refine hf.deliver _ ?_
    rw [arranged_route]
    exact hdistinct
  have hcapacity : first.capacity = f.capacity := FeedAction.capacity_apply _ f
  have hinserted : second.2 = (first.fresh history.rolls).length := inserted_takeHistory
  have hnone : second.2 = 0 ↔ ∀ roll ∈ history.rolls, roll.id ∈ first.ids := by
    rw [hinserted, List.length_eq_zero_iff, fresh_eq_nil_iff]
  have hshown := shown_iff occasion table hf hdistinct
  refine ⟨hcapacity ▸ records_takeHistory htidy, hinserted, ⟨?_, takeHistory_of_shown⟩, ⟨?_, ?_⟩,
    hshown, ?_⟩
  · intro heq
    exact hnone.mp (congrArg Prod.snd heq)
  · intro heq
    exact hnone.mpr (shown_of_takeHistory_eq htidy heq)
  · intro hzero
    show (first.takeHistory again table' history).1 = first
    rw [takeHistory_of_shown (hnone.mp hzero)]
  · intro hroom
    have hlength : f.ids.length = f.length := List.length_map _
    have hfits : new.length ≤ f.capacity := by omega
    -- Nothing has to make room.
    have hall : f.ids.take (f.capacity - new.length) = f.ids := List.take_of_length_le (by omega)
    exact takeHistory_of_shown (hshown.mpr ⟨hfits, fun roll _ hknown => hall.symm ▸ hknown⟩)

/-- A history brings one known roll and one new one, and there is room for both. -/
theorem replay_changes_nothing_iff_overlapping :
    let occasion : Occasion := ⟨⟨⟨2024, 1, 1⟩, 0, 0, 0, 0⟩, 0⟩
    let roll (id : RollId) : RollRecord := ⟨id, "1", [], [], 1, {}, {}, occasion.now⟩
    let f : Feed := ⟨[roll "c", roll "a"], 3⟩
    let history : History := ⟨none, [roll "a", roll "b"]⟩
    let first := (f.takeHistory occasion "table" history).1
    (f.Tidy ∧ (history.rolls.map (·.id)).Nodup) ∧
      first.ids = ["b", "c", "a"] ∧ first.takeHistory occasion "table" history = (first, 0) := by
  intro occasion roll f history first
  have hf : f.Tidy := ⟨by decide, by decide, by decide⟩
  have hdistinct : (history.rolls.map (·.id)).Nodup := by decide
  have hroom : f.length + (f.fresh history.rolls).length ≤ f.capacity := by decide
  exact ⟨⟨hf, hdistinct⟩, by decide,
    (replay_changes_nothing_iff occasion occasion "table" "table" hf hdistinct).2.2.2.2.2 hroom⟩

/-- A history of two rolls is delivered twice to a feed with room for one: the first roll is
dropped, comes back, and takes the place of the second. -/
theorem dropped_roll_comes_back :
    let occasion : Occasion := ⟨⟨⟨2024, 1, 1⟩, 0, 0, 0, 0⟩, 0⟩
    let roll (id : RollId) : RollRecord := ⟨id, "1", [], [], 1, {}, {}, occasion.now⟩
    let history : History := ⟨none, [roll "a", roll "b"]⟩
    let first := ((new 1).takeHistory occasion "table" history).1
    let second := first.takeHistory occasion "table" history
    ((new 1).ids.Nodup ∧ (history.rolls.map (·.id)).Nodup) ∧ first.ids = ["b"] ∧
      ¬ (second.2 = 0 ∧ second.1 = first) ∧ second.1.ids = ["a"] := by
  decide

end DiceTable.Feed
