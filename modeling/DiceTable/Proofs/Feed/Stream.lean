import DiceTable.Proofs.Event.Carried
import DiceTable.Wire.Format
import Mathlib.Data.List.Count
import Mathlib.Order.MinMax

/-!
# Rolls from the wire

A message from the server is decoded into a frame, the frame is classified, the event is routed, the
rolls that the feed shows are dropped, and the others are put in.  `records_deliver` says what comes
of all these steps together.

Known rolls are told by comparing with the feed as it was before the message.  So an identifier can
be shown twice only if a single message brings it twice: no delivery raises the number of times that
an identifier is shown, unless the message itself carries it more often (`count_ids_deliver`).
-/

namespace DiceTable

/-- The rolls that a session in this state takes from a frame: none unless it is connected. -/
def Frame.carried (occasion : Occasion) (state : SessionState) (frame : Frame) :
    List RollRecord :=
  if state.isConnected then frame.rolls occasion else []

namespace Feed

variable {f : Feed} {occasion : Occasion} {state : SessionState} {frame : Frame}

/-! ## One frame -/

/-- Delivers a frame to the feed of a session in this state. -/
def deliver (f : Feed) (occasion : Occasion) (state : SessionState) (frame : Frame) : Feed :=
  match InboundEvent.ofFrame occasion.now frame with
  | .ok event => (((route occasion state event).action.withoutKnown f).apply f).1
  | .error _ => f

@[simp] theorem capacity_deliver :
    (f.deliver occasion state frame).capacity = f.capacity := by
  unfold deliver
  split
  · exact FeedAction.capacity_apply _ f
  · rfl

/-- The rolls of a frame that the feed does not show are put in front of it, the last one first, and
what is beyond the capacity is gone. -/
theorem records_deliver (hf : f.records.length ≤ f.capacity) :
    (f.deliver occasion state frame).records =
      (((frame.carried occasion state).filter fun record => record.id ∉ f.ids).reverse ++
        f.records).take f.capacity := by
  have hknown (record : RollRecord) : (!f.contains record.id) = decide (record.id ∉ f.ids) := by
    rw [Bool.eq_iff_iff, Bool.not_eq_true', contains_eq_false_iff, decide_eq_true_iff]
  unfold deliver Frame.carried
  rw [Frame.rolls_eq]
  cases InboundEvent.ofFrame occasion.now frame with
  | error error =>
      rw [ite_self, List.filter_nil, List.reverse_nil, List.nil_append, List.take_of_length_le hf]
  | ok event =>
      rw [FeedAction.records_apply _ hf, FeedAction.arranged_withoutKnown, arranged_route]
      simp only [hknown]

theorem length_deliver_le (hf : f.records.length ≤ f.capacity) :
    (f.deliver occasion state frame).records.length ≤ f.capacity := by
  rw [records_deliver hf]
  exact List.length_take_le _ _

/-- An identifier is shown no more often after a delivery than it was before, or than the frame
carries it. -/
theorem count_ids_deliver (hf : f.records.length ≤ f.capacity) (id : RollId) :
    (f.deliver occasion state frame).ids.count id ≤
      max (f.ids.count id) (((frame.carried occasion state).map (·.id)).count id) := by
  let fresh := (frame.carried occasion state).filter fun record => record.id ∉ f.ids
  -- Eviction only drops rolls, so it is enough to look at the feed before it.
  have hall : (f.deliver occasion state frame).ids.count id ≤
      (fresh.map (·.id)).count id + f.ids.count id := by
    rw [ids, records_deliver hf]
    refine (((List.take_sublist _ _).map _).count_le id).trans ?_
    rw [List.map_append, List.count_append, List.map_reverse, List.count_reverse]
    exact le_rfl
  by_cases hshown : id ∈ f.ids
  · -- What the feed shows is filtered out of the frame.
    have hfresh : (fresh.map (·.id)).count id = 0 := by
      rw [List.count_eq_zero, List.mem_map]
      rintro ⟨record, hrecord, rfl⟩
      exact of_decide_eq_true (List.mem_filter.mp hrecord).2 hshown
    exact le_trans (by omega) (le_max_left _ _)
  · have hbefore : f.ids.count id = 0 := List.count_eq_zero.mpr hshown
    have hfresh : (fresh.map (·.id)).count id ≤
        ((frame.carried occasion state).map (·.id)).count id :=
      (List.filter_sublist.map _).count_le id
    exact le_trans (by omega) (le_max_right _ _)

end Feed

/-! ## A stream of messages -/

/-- A message from the server, and the occasion on which it is read. -/
structure WireMessage where
  occasion : Occasion
  octets : List UInt8
  deriving DecidableEq, Repr

namespace WireMessage

/-- The frame in a message, if it is the message of an event. -/
def frame? (format : WireFormat) (message : WireMessage) : Option Frame :=
  match format.decode message.octets with
  | .ok (.event frame) => some frame
  | _ => none

def rolls (format : WireFormat) (message : WireMessage) : List RollRecord :=
  ((message.frame? format).map (·.rolls message.occasion)).getD []

end WireMessage

namespace Feed

variable {format : WireFormat} {table : TableId} {f : Feed}

/-- Takes in a message in a session that is connected to the table. -/
def receive (format : WireFormat) (table : TableId) (f : Feed) (message : WireMessage) : Feed :=
  match message.frame? format with
  | some frame => f.deliver message.occasion (.connected table) frame
  | none => f

def receiveAll (format : WireFormat) (table : TableId) (f : Feed) (messages : List WireMessage) :
    Feed :=
  messages.foldl (receive format table) f

theorem length_receive_le (table : TableId) (hf : f.records.length ≤ f.capacity)
    (message : WireMessage) :
    (f.receive format table message).records.length ≤
      (f.receive format table message).capacity := by
  unfold receive
  split
  · rw [capacity_deliver]
    exact length_deliver_le hf
  · exact hf

theorem count_ids_receive (table : TableId) (hf : f.records.length ≤ f.capacity)
    (message : WireMessage) (id : RollId) :
    (f.receive format table message).ids.count id ≤
      max (f.ids.count id) (((message.rolls format).map (·.id)).count id) := by
  unfold receive WireMessage.rolls
  cases message.frame? format with
  | none => exact le_max_left _ _
  | some frame => exact count_ids_deliver hf id

/-- What is shown more than once is carried that often by one message. -/
theorem count_ids_receiveAll (hf : f.records.length ≤ f.capacity) (messages : List WireMessage)
    (id : RollId) :
    (f.receiveAll format table messages).ids.count id ≤ f.ids.count id ∨
      ∃ message ∈ messages, (f.receiveAll format table messages).ids.count id ≤
        ((message.rolls format).map (·.id)).count id := by
  induction messages generalizing f with
  | nil => exact .inl le_rfl
  | cons message messages ih =>
      -- Either a later message carries that many, or the first one has left that many.
      have hstep : (f.receive format table message).ids.count id ≤ _ :=
        count_ids_receive table hf message id
      rcases ih (length_receive_le table hf message) with hrest | ⟨later, hlater, hcount⟩
      · rcases le_max_iff.mp (hrest.trans hstep) with hbefore | hcarried
        · exact .inl hbefore
        · exact .inr ⟨message, List.mem_cons_self, hcarried⟩
      · exact .inr ⟨later, List.mem_cons_of_mem _ hlater, hcount⟩

/-- **What is shown twice came twice in one message.**  After any messages to a new feed, an
identifier is shown at most once, or one of the messages carries it at least as often as it is
shown.  So no roll is shown twice if no message carries one twice. -/
theorem shown_twice_only_if_sent_twice (format : WireFormat) (table : TableId) (capacity : Nat)
    (messages : List WireMessage) :
    let f := (new capacity).receiveAll format table messages
    (∀ id, f.ids.count id ≤ 1 ∨ ∃ message ∈ messages,
        f.ids.count id ≤ ((message.rolls format).map (·.id)).count id) ∧
      ((∀ message ∈ messages, ((message.rolls format).map (·.id)).Nodup) → f.ids.Nodup) := by
  intro f
  have hcount (id : RollId) : f.ids.count id ≤ 1 ∨ ∃ message ∈ messages,
      f.ids.count id ≤ ((message.rolls format).map (·.id)).count id :=
    have hempty : (new capacity).records.length ≤ (new capacity).capacity := Nat.zero_le _
    (count_ids_receiveAll hempty messages id).imp_left fun h => h.trans (Nat.zero_le 1)
  refine ⟨hcount, fun hdistinct => List.nodup_iff_count_le_one.mpr fun id => ?_⟩
  rcases hcount id with hone | ⟨message, hmessage, hcarried⟩
  · exact hone
  · exact hcarried.trans (List.nodup_iff_count_le_one.mp (hdistinct message hmessage) id)

/-- A history brings two rolls, and one of them comes once more by itself. -/
theorem shown_twice_only_if_sent_twice_echoed :
    let occasion : Occasion := ⟨⟨⟨2024, 1, 1⟩, 0, 0, 0, 0⟩, 0⟩
    -- The history and its records are written as arrays of their fields.
    let history : WireMessage := ⟨occasion, Text.Utf8.encode
      "42[\"table:history\",[null,[[\"a\",\"1\",[],[],1],[\"b\",\"1\",[],[],1]]]]".toList⟩
    let echo : WireMessage := ⟨occasion, Text.Utf8.encode
      "42[\"roll:new\",[\"a\",\"1\",[],[],1]]".toList⟩
    (history.rolls .socketIo).map (·.id) = ["a", "b"] ∧
      (echo.rolls .socketIo).map (·.id) = ["a"] ∧
      ((new defaultCapacity).receiveAll .socketIo "table" [history, echo]).ids.Nodup := by
  intro occasion history echo
  have hhistory : (history.rolls .socketIo).map (·.id) = ["a", "b"] := by decide +kernel
  have hecho : (echo.rolls .socketIo).map (·.id) = ["a"] := by decide +kernel
  refine ⟨hhistory, hecho, ?_⟩
  refine (shown_twice_only_if_sent_twice .socketIo "table" defaultCapacity [history, echo]).2 ?_
  simp [hhistory, hecho]

/-- A history that brings two rolls under one identifier is shown as it came. -/
theorem not_nodup_of_repetition :
    let occasion : Occasion := ⟨⟨⟨2024, 1, 1⟩, 0, 0, 0, 0⟩, 0⟩
    let history : WireMessage := ⟨occasion, Text.Utf8.encode
      "42[\"table:history\",[null,[[\"r\",\"1\",[],[],1],[\"r\",\"2\",[],[],2]]]]".toList⟩
    ¬ ((new defaultCapacity).receiveAll .socketIo "table" [history]).ids.Nodup := by
  intro occasion history
  have hids : ((new defaultCapacity).receiveAll .socketIo "table" [history]).ids = ["r", "r"] := by
    decide +kernel
  rw [hids]
  decide

end Feed

end DiceTable
