import DiceTable.Proofs.Event.Listed

/-!
# Four ways to announce a roll

A roll comes by itself as `roll:new` or as `roll`, or inside a message, which is written as an
object or as an array (`Frame.Announces`).  All four are routed as the same event
(`Frame.Announces.ofFrame`): the session puts the record in front of the feed, if it is connected
and the feed does not show it, and tells the user nothing.

The payload goes two ways, by itself or through the envelope of the message, where more spellings
are allowed and the record may be read at another time.  `RollRecord.decode_again` covers both.
-/

namespace DiceTable

open Json (Value)
open RollRecord (Redated)

/-- The frames that announce the roll with this payload. -/
inductive Frame.Announces (v : Value) : Frame → Prop
  | new : Announces v ⟨"roll:new", v⟩
  | bare : Announces v ⟨"roll", v⟩
  | message : Announces v ⟨"message", .object [("roll", v), ("type", .string "roll")]⟩
  | messageArray : Announces v ⟨"message", .array [.string "roll", v]⟩

/-- What a feed makes of an event. -/
structure FeedOutcome where
  feed : Feed
  inserted : Nat
  notice : Option Notice
  deriving DecidableEq, Repr

/-- What a feed makes of an event that is routed like this: it takes the rolls that it does not
show. -/
def Feed.outcome (f : Feed) (routed : Routed) : FeedOutcome where
  feed := ((routed.action.withoutKnown f).apply f).1
  inserted := ((routed.action.withoutKnown f).apply f).2
  notice := routed.notice

/-! ## One event -/

/-- A record that a session in this state is told of is put in if the session is connected. -/
def RollRecord.routed (state : SessionState) (record : RollRecord) : Routed :=
  if state.isConnected then { action := .prepend record } else {}

theorem route_newRoll (occasion : Occasion) (state : SessionState) (record : RollRecord) :
    route occasion state (.newRoll record) = record.routed state := by
  cases state <;> rfl

theorem route_roll (occasion : Occasion) (state : SessionState) (record : RollRecord) :
    route occasion state (.roll record) = record.routed state := by
  cases state <;> rfl

theorem route_message_roll (occasion : Occasion) (state : SessionState) (record : RollRecord) :
    route occasion state (.message (.roll record)) = record.routed state := by
  cases state <;> rfl

/-- An envelope with the payload of a roll is the message of that roll. -/
theorem TableMessage.decode_roll {now : Timestamp} {v content : Value} {record : RollRecord}
    (payload : Value)
    (henvelope : payload.envelope? = some ("roll", content))
    (hcontent : content.fields? ["roll"] = some [some v])
    (hrecord : RollRecord.decode .null now v.toTree = some record) :
    decode now payload.toTree = some (.roll record) := by
  obtain ⟨same, hlenient, hsame⟩ := RollRecord.decode_again .nullOrEmpty now hrecord
  obtain rfl := hsame.eq
  rw [decode_toTree, henvelope, Option.bind_some]
  unfold decodeContent
  rw [if_pos rfl, Json.Value.fields?_toTree, hcontent]
  simp only [Option.map_some, List.map_cons, List.map_nil, Option.bind_eq_bind, Option.bind_some,
    Json.Decode.required, hlenient]
  rfl

/-- Every frame that announces a roll is read as an event that is routed as that roll. -/
theorem Frame.Announces.ofFrame {v : Value} {frame : Frame} (h : frame.Announces v)
    {now : Timestamp} {record : RollRecord}
    (hrecord : RollRecord.decode .null now v.toTree = some record) :
    ∃ event, InboundEvent.ofFrame now frame = .ok event ∧
      ∀ occasion state, route occasion state event = record.routed state := by
  simp only [InboundEvent.ofFrame_eq_ok_iff]
  cases h with
  | new =>
      exact ⟨.newRoll record, congrArg (Option.map InboundEvent.newRoll) hrecord,
        fun occasion state => route_newRoll occasion state record⟩
  | bare =>
      exact ⟨.roll record, congrArg (Option.map InboundEvent.roll) hrecord,
        fun occasion state => route_roll occasion state record⟩
  | message =>
      have hdecode :=
        TableMessage.decode_roll (.object [("roll", v), ("type", .string "roll")]) rfl rfl hrecord
      exact ⟨.message (.roll record), congrArg (Option.map InboundEvent.message) hdecode,
        fun occasion state => route_message_roll occasion state record⟩
  | messageArray =>
      have hdecode := TableMessage.decode_roll (.array [.string "roll", v]) rfl rfl hrecord
      exact ⟨.message (.roll record), congrArg (Option.map InboundEvent.message) hdecode,
        fun occasion state => route_message_roll occasion state record⟩

/-! ## Two readings of one roll -/

/-- The outcomes are the same, up to when their records were read. -/
structure FeedOutcome.Redated (now later : Timestamp) (a b : FeedOutcome) : Prop where
  records : List.Forall₂ (RollRecord.Redated now later) a.feed.records b.feed.records
  capacity : b.feed.capacity = a.feed.capacity
  inserted : b.inserted = a.inserted
  notice : b.notice = a.notice

theorem FeedOutcome.Redated.refl (now later : Timestamp) (a : FeedOutcome) :
    a.Redated now later a where
  records := List.forall₂_same.mpr fun record _ => .refl now later record
  capacity := rfl
  inserted := rfl
  notice := rfl

/-- Read at the same moment, they are the same. -/
theorem FeedOutcome.Redated.eq {now : Timestamp} {a b : FeedOutcome} (h : a.Redated now now b) :
    b = a := by
  have hrecords : a.feed.records = b.feed.records :=
    List.forall₂_eq_eq_eq ▸ h.records.imp fun _ _ hredated => hredated.eq.symm
  obtain ⟨⟨records, capacity⟩, inserted, notice⟩ := a
  obtain ⟨⟨records', capacity'⟩, inserted', notice'⟩ := b
  obtain ⟨-, rfl, rfl, rfl⟩ := h
  cases hrecords
  rfl

/-- Two readings of a roll lead to the same outcome: the feed shows both or neither. -/
theorem Feed.outcome_redated {now later : Timestamp} {r s : RollRecord}
    (h : RollRecord.Redated now later r s) (f : Feed) (state : SessionState) :
    (f.outcome (r.routed state)).Redated now later (f.outcome (s.routed state)) := by
  unfold RollRecord.routed
  cases state.isConnected with
  | false => exact .refl now later _
  | true =>
      simp only [if_true, outcome, FeedAction.withoutKnown, h.id_eq]
      cases f.contains r.id with
      | true => exact .refl now later _
      | false =>
          refine ⟨?_, rfl, rfl, rfl⟩
          exact List.forall₂_take _
            (.cons h (List.forall₂_same.mpr fun record _ => .refl now later record))

/-- **All single rolls are alike.**  If a payload is read as that of `roll:new`, it is read in
each of the frames that announce it, at any time, and whatever the state of the session and the
feed, any two of them lead to the same outcome, up to when the roll was read if it has no
timestamp. -/
theorem single_rolls_agree {v : Value} {now : Timestamp} {event : InboundEvent}
    (hreads : InboundEvent.ofFrame now ⟨"roll:new", v⟩ = .ok event) {frame other : Frame}
    (hframe : frame.Announces v) (hother : other.Announces v) (first second : Occasion) :
    ∃ e d, InboundEvent.ofFrame first.now frame = .ok e ∧
      InboundEvent.ofFrame second.now other = .ok d ∧
      ∀ (state : SessionState) (f : Feed),
        let a := f.outcome (route first state e)
        let b := f.outcome (route second state d)
        a.Redated first.now second.now b ∧ (first.now = second.now → a = b) := by
  obtain ⟨_, hdecode, -⟩ := Option.map_eq_some_iff.mp (InboundEvent.ofFrame_eq_ok_iff.mp hreads)
  obtain ⟨r, hr, -⟩ := RollRecord.decode_again .null first.now hdecode
  obtain ⟨s, hs, hredated⟩ := RollRecord.decode_again .null second.now hr
  obtain ⟨e, he, hroute⟩ := hframe.ofFrame hr
  obtain ⟨d, hd, hroute'⟩ := hother.ofFrame hs
  refine ⟨e, d, he, hd, fun state f => ?_⟩
  simp only [hroute, hroute']
  have houtcome := f.outcome_redated hredated state
  refine ⟨houtcome, fun hsame => ?_⟩
  rw [hsame] at houtcome
  exact houtcome.eq.symm

/-- A roll without a timestamp. -/
def undated : Value :=
  .object [("notation", .string "1d6"), ("rollId", .string "a"), ("total", .ofInt 4)]

/-- It enters a feed by itself as it does in a message that comes later, up to its date. -/
theorem single_rolls_agree_undated :
    let later : Timestamp := ⟨⟨2024, 1, 1⟩, 0, 0, 0, 0⟩
    let roll : RollRecord := { id := "a", formula := "1d6", total := 4, timestamp := .epoch }
    let message : Value := .object [("roll", undated), ("type", .string "roll")]
    InboundEvent.ofFrame .epoch ⟨"roll:new", undated⟩ = .ok (.newRoll roll) ∧
      ∃ e d, InboundEvent.ofFrame .epoch ⟨"roll:new", undated⟩ = .ok e ∧
        InboundEvent.ofFrame later ⟨"message", message⟩ = .ok d ∧
        let a := (Feed.new 50).outcome (route ⟨.epoch, 0⟩ (.connected "table") e)
        let b := (Feed.new 50).outcome (route ⟨later, 0⟩ (.connected "table") d)
        a.feed.records = [roll] ∧ a.inserted = 1 ∧ a.Redated .epoch later b := by
  intro later roll message
  have hreads : InboundEvent.ofFrame .epoch ⟨"roll:new", undated⟩ = .ok (.newRoll roll) := by
    decide +kernel
  obtain ⟨e, d, he, hd, hagree⟩ :=
    single_rolls_agree hreads .new .message ⟨.epoch, 0⟩ ⟨later, 0⟩
  obtain ⟨hredated, -⟩ := hagree (.connected "table") (Feed.new 50)
  obtain rfl : e = .newRoll roll := Except.ok.inj (he.symm.trans hreads)
  exact ⟨hreads, _, d, he, hd, rfl, rfl, hredated⟩

end DiceTable
