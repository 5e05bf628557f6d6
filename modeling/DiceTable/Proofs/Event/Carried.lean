import DiceTable.Proofs.Feed.Delivery
import DiceTable.Proofs.Json.Tree

/-!
# What a frame carries

`Frame.rolls` reads the rolls of a frame off its payload, by the name of the event and the shape
of the payload alone: a list of records for a history or a subscription, of which only the
well-formed ones count, a single record for the events that announce a roll, and a record made up
for a forwarded roll.  A payload of any other shape carries nothing, and no other event does.

A client takes another way: it classifies the frame first (`InboundEvent.ofFrame`), and asks the
event for its rolls (`InboundEvent.rolls`) afterwards.  Both give the same rolls (`Frame.rolls_eq`).
-/

namespace DiceTable

/-! ## Lists of records -/

namespace RollRecord

/-- Reads an element of a list of records.  Of a member that is repeated, the last one counts. -/
def ofValue? (now : Timestamp) (v : Json.Value) : Option RollRecord :=
  decode .null now v.sorted.toTree

/-- The well-formed records in a list, which may be missing or null; nothing for any other value. -/
def listed? (now : Timestamp) : Option Json.Value → Option (List RollRecord)
  | none => some []
  | some .null => some []
  | some (.array items) => some (items.filterMap (ofValue? now))
  | some _ => none

/-- Whether a field may stand for the name of a table, which may be missing or null. -/
def mayNameTable : Option Json.Value → Bool
  | none => true
  | some .null => true
  | some (.string _) => true
  | some _ => false

/-- The record that is the only field of a message. -/
def ofMessage? (now : Timestamp) : List (Option Json.Value) → Option RollRecord
  | [record] => record.bind fun v => decode .nullOrEmpty now v.toTree
  | _ => none

/-- The well-formed records of a table, given the fields for its name and for its records. -/
def ofTable? (now : Timestamp) : List (Option Json.Value) → Option (List RollRecord)
  | [table, rolls] => if mayNameTable table then listed? now rolls else none
  | _ => none

theorem decodeLenient_toTree (now : Timestamp) (field : Option Json.Value) :
    decodeLenient now (field.map Json.Value.toTree) = listed? now field := by
  match field with
  | none => rfl
  | some .null => rfl
  | some (.bool _) => rfl
  | some (.number _) => rfl
  | some (.string _) => rfl
  | some (.object _) => rfl
  | some (.array items) =>
      rw [Option.map_some, Json.Value.toTree, decodeLenient, Json.Value.mapM_value_toTrees, listed?,
        Option.map_some, List.filterMap_map]
      rfl

end RollRecord

/-! ## The envelope of a message -/

/-- The type and the content of an envelope: an object with its type among the members, or an array
with its type in front. -/
def Json.Value.envelope? : Json.Value → Option (String × Json.Value)
  | .object members =>
    match single? "type" members with
    | some (some (.string type)) => some (type, .object (members.filter (·.1 != "type")))
    | _ => none
  | .array (.string type :: content) => some (type, .array content)
  | _ => none

theorem TableMessage.decode_toTree (now : Timestamp) (v : Json.Value) :
    TableMessage.decode now v.toTree =
      v.envelope?.bind fun e => TableMessage.decodeContent now e.1 e.2.toTree := by
  unfold TableMessage.decode
  rw [if_pos v.isReadable_toTree]
  cases v with
  | array items =>
      cases items with
      | nil => rfl
      | cons item items => cases item <;> rfl
  | object members =>
      have hcontent : (Json.Value.toMembers members).filter (·.1 != some "type") =
          Json.Value.toMembers (members.filter (·.1 != "type")) := by
        simp only [Json.Value.toMembers_eq_map, List.filter_map]
        rfl
      simp only [Json.Value.toTree, Json.Value.envelope?, Json.Value.single?_toMembers, hcontent]
      cases Json.Value.single? "type" members with
      | none => rfl
      | some field =>
          cases field with
          | none => rfl
          | some type => cases type <;> rfl
  | _ => rfl

/-- The rolls in the content of an envelope of this type. -/
def TableMessage.rollsIn (now : Timestamp) (type : String) (content : Json.Value) :
    List RollRecord :=
  match type with
  | "subscribed" =>
    ((content.fields? ["tableId", "recentRolls"]).bind (RollRecord.ofTable? now)).getD []
  | "roll" => ((content.fields? ["roll"]).bind (RollRecord.ofMessage? now)).toList
  | _ => []

/-! ## The rolls of a frame -/

/-- The rolls that a frame carries, in the order in which they are written. -/
def Frame.rolls (occasion : Occasion) (frame : Frame) : List RollRecord :=
  match frame.event with
  | "table:history" =>
    ((frame.data.fields? ["tableId", "rolls"]).bind (RollRecord.ofTable? occasion.now)).getD []
  | "roll:new" => (RollRecord.decode .null occasion.now frame.data.toTree).toList
  | "roll" => (RollRecord.decode .null occasion.now frame.data.toTree).toList
  | "message" =>
    match frame.data.envelope? with
    | some (type, content) => TableMessage.rollsIn occasion.now type content
    | none => []
  | "roll_result" =>
    ((ForwardedRoll.decode frame.data.toTree).map (·.toRecord occasion)).toList
  | _ => []

/-! ## The rolls of the event in a frame -/

theorem RollRecord.ofTable?_pair (now : Timestamp) (table rolls : Option Json.Value) :
    ofTable? now [table, rolls] =
      (Json.Decode.optional Json.Decode.string (table.map Json.Value.toTree)).bind fun _ =>
        decodeLenient now (rolls.map Json.Value.toTree) := by
  rw [decodeLenient_toTree]
  cases table with
  | none => rfl
  | some name => cases name <;> rfl

/-- What is decoded from the name of a table and a list of records has the rolls of that list. -/
theorem RollRecord.map_rolls_fields {α : Type} (now : Timestamp) (keys : List String)
    (v : Json.Value) (make : Option TableId → List RollRecord → α) (rolls : α → List RollRecord)
    (hmake : ∀ table records, rolls (make table records) = records) :
    ((v.toTree.fields? keys).bind fun fields =>
        match fields with
        | [table, records] => do
          return make (← Json.Decode.optional Json.Decode.string table)
            (← decodeLenient now records)
        | _ => none).map rolls =
      (v.fields? keys).bind (ofTable? now) := by
  rw [Json.Value.fields?_toTree]
  match v.fields? keys with
  | none => rfl
  | some [] => rfl
  | some [_] => rfl
  | some [table, records] =>
      rw [Option.bind_some, ofTable?_pair]
      simp only [List.map_cons, List.map_nil, Option.map_some, Option.bind_some,
        Option.bind_eq_bind]
      cases Json.Decode.optional Json.Decode.string (table.map Json.Value.toTree) with
      | none => rfl
      | some name =>
          cases decodeLenient now (records.map Json.Value.toTree) with
          | none => rfl
          | some decoded => exact congrArg some (hmake name decoded)
  | some (_ :: _ :: _ :: _) => rfl

theorem History.map_rolls_decode (now : Timestamp) (v : Json.Value) :
    (History.decode now v.toTree).map History.rolls =
      (v.fields? ["tableId", "rolls"]).bind (RollRecord.ofTable? now) :=
  RollRecord.map_rolls_fields now _ v History.mk History.rolls fun _ _ => rfl

namespace TableMessage

def rolls : TableMessage → List RollRecord
  | .roll record => [record]
  | .subscribed _ recent => recent
  | _ => []

theorem map_rolls_subscribed (now : Timestamp) (content : Json.Value) :
    (decodeContent now "subscribed" content.toTree).map rolls =
      (content.fields? ["tableId", "recentRolls"]).bind (RollRecord.ofTable? now) :=
  RollRecord.map_rolls_fields now _ content subscribed rolls fun _ _ => rfl

theorem map_rolls_roll (now : Timestamp) (content : Json.Value) :
    (decodeContent now "roll" content.toTree).map rolls =
      ((content.fields? ["roll"]).bind (RollRecord.ofMessage? now)).map fun record => [record] := by
  unfold decodeContent
  rw [if_pos rfl, Json.Value.fields?_toTree]
  match content.fields? ["roll"] with
  | none => rfl
  | some [] => rfl
  | some [none] => rfl
  | some [some record] =>
      simp only [RollRecord.ofMessage?, Json.Decode.required, List.map_cons, List.map_nil,
        Option.map_some, Option.bind_eq_bind, Option.bind_some]
      cases RollRecord.decode .nullOrEmpty now record.toTree <;> rfl
  | some (_ :: _ :: _) => rfl

/-- An envelope of any other type has no rolls. -/
theorem rolls_eq_nil {now : Timestamp} {type : String} {content : Json.Tree} {e : TableMessage}
    (hsubscribed : type ≠ "subscribed") (hroll : type ≠ "roll")
    (h : decodeContent now type content = some e) : e.rolls = [] := by
  unfold decodeContent at h
  rw [if_neg hroll, if_neg hsubscribed] at h
  split at h
  · match hfields : content.fields? ["message"] with
    | none => simp [hfields] at h
    | some [] => simp [hfields] at h
    | some [message] =>
        simp only [hfields, Option.bind_eq_bind, Option.bind_some] at h
        obtain ⟨text, -, htext⟩ := Option.bind_eq_some_iff.mp h
        cases htext
        rfl
    | some (_ :: _ :: _) => simp [hfields] at h
  · split at h
    · cases h
    · cases h
      rfl

theorem rolls_decodeContent (now : Timestamp) (type : String) (content : Json.Value) :
    ((decodeContent now type content.toTree).map rolls).getD [] = rollsIn now type content := by
  unfold rollsIn
  split
  next => rw [map_rolls_subscribed]
  next =>
    rw [map_rolls_roll]
    cases (content.fields? ["roll"]).bind (RollRecord.ofMessage? now) <;> rfl
  next hsubscribed hroll =>
    cases hdecode : decodeContent now type content.toTree with
    | none => rfl
    | some e => exact rolls_eq_nil hsubscribed hroll hdecode

end TableMessage

theorem InboundEvent.rolls_message (occasion : Occasion) (e : TableMessage) :
    (InboundEvent.message e).rolls occasion = e.rolls := by
  cases e <;> rfl

theorem Frame.rolls_eq_ofPayload? (occasion : Occasion) (frame : Frame) :
    frame.rolls occasion =
      ((InboundEvent.ofPayload? occasion.now frame.event frame.data).map
        (InboundEvent.rolls occasion)).getD [] := by
  obtain ⟨event, data⟩ := frame
  unfold InboundEvent.ofPayload?
  simp only
  -- One case for each name, in the order in which the names are tried.
  split
  next => cases Subscribed.decode data.toTree <;> rfl
  next =>
    show ((data.fields? ["tableId", "rolls"]).bind (RollRecord.ofTable? occasion.now)).getD [] = _
    rw [← History.map_rolls_decode, Option.map_map]
    rfl
  next =>
    show (RollRecord.decode .null occasion.now data.toTree).toList = _
    cases RollRecord.decode .null occasion.now data.toTree <;> rfl
  next =>
    show (RollRecord.decode .null occasion.now data.toTree).toList = _
    cases RollRecord.decode .null occasion.now data.toTree <;> rfl
  next =>
    show (match data.envelope? with
      | some (type, content) => TableMessage.rollsIn occasion.now type content
      | none => []) = _
    rw [TableMessage.decode_toTree, Option.map_map, Function.comp_def]
    simp only [InboundEvent.rolls_message]
    cases data.envelope? with
    | none => rfl
    | some e => exact (TableMessage.rolls_decodeContent occasion.now e.1 e.2).symm
  next => rfl
  next => rfl
  next => rfl
  next => rfl
  next =>
    show ((ForwardedRoll.decode data.toTree).map (·.toRecord occasion)).toList = _
    cases ForwardedRoll.decode data.toTree <;> rfl
  next =>
    show Frame.rolls occasion ⟨event, data⟩ = []
    unfold Frame.rolls
    split <;> simp_all

/-- A frame carries the rolls of its event, and none if its payload has the wrong shape. -/
theorem Frame.rolls_eq (occasion : Occasion) (frame : Frame) :
    frame.rolls occasion =
      match InboundEvent.ofFrame occasion.now frame with
      | .ok event => event.rolls occasion
      | .error _ => [] := by
  rw [Frame.rolls_eq_ofPayload?, InboundEvent.ofFrame]
  cases InboundEvent.ofPayload? occasion.now frame.event frame.data <;> rfl

end DiceTable
