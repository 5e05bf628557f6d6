import DiceTable.Proofs.Event.Carried
import DiceTable.Proofs.Json.Sorted
import DiceTable.Proofs.Roll.Reading

/-!
# Rolls in a list

Three paths lead from a JSON value to a record: the payload of `roll:new` is decoded as it stands,
a history lists values that are decoded one by one, and a subscription lists them inside the
envelope of a message.  In both lists an element that is no record is dropped and the others stay,
so that the two give the same records: those of the elements that are records by themselves
(`RollRecord.announced?`).

A list is taken apart into values before its elements are decoded, and thereby sorted once more.
For elements that were read from a text this changes nothing (`Json.Value.sorted_of_ofTree?`);
only an object that repeats a key, which no reader gives, would be taken by a list and refused by
`roll:new`.
-/

namespace DiceTable

open Json (Value)

/-! ## One record -/

/-- A frame is read as the event that its payload makes under its name. -/
theorem InboundEvent.ofFrame_eq_ok_iff {now : Timestamp} {frame : Frame} {event : InboundEvent} :
    ofFrame now frame = .ok event ↔ ofPayload? now frame.event frame.data = some event := by
  unfold ofFrame
  cases ofPayload? now frame.event frame.data <;> simp

/-- The record of the frame that announces a roll with this payload. -/
def RollRecord.announced? (now : Timestamp) (v : Value) : Option RollRecord :=
  match InboundEvent.ofFrame now ⟨"roll:new", v⟩ with
  | .ok (.newRoll record) => some record
  | _ => none

theorem RollRecord.announced?_eq (now : Timestamp) (v : Value) :
    announced? now v = decode .null now v.toTree := by
  have hpayload : InboundEvent.ofPayload? now "roll:new" v =
      (decode .null now v.toTree).map .newRoll := rfl
  unfold announced? InboundEvent.ofFrame
  rw [hpayload]
  cases decode .null now v.toTree <;> rfl

/-! ## A list of them -/

/-- The value tells of a table and lists rolls in this field, under this key: it is an object or an
array, and may name the table.  The field may be missing. -/
def Json.Value.Lists (key : String) (list : Option Value) (v : Value) : Prop :=
  ∃ table, v.fields? ["tableId", key] = some [table, list] ∧ RollRecord.mayNameTable table = true

/-- The payload is that of a history with this list of rolls, whatever the list may be. -/
def IsHistory (list : Option Value) (payload : Value) : Prop := payload.Lists "rolls" list

/-- The payload is the message of a subscription with this list of rolls, whatever the list may
be. -/
def IsSubscription (list : Option Value) (payload : Value) : Prop :=
  ∃ content, payload.envelope? = some ("subscribed", content) ∧ content.Lists "recentRolls" list

theorem RollRecord.exists_name {table : Option Value} (h : mayNameTable table = true) :
    ∃ name, Json.Decode.optional Json.Decode.string (table.map Value.toTree) = some name := by
  match table with
  | none => exact ⟨none, rfl⟩
  | some .null => exact ⟨none, rfl⟩
  | some (.string name) => exact ⟨some name, rfl⟩
  | some (.bool _) => cases h
  | some (.number _) => cases h
  | some (.array _) => cases h
  | some (.object _) => cases h

/-- The elements of a list that are records by themselves are its records. -/
theorem RollRecord.listed?_array (now : Timestamp) {vs : List Value}
    (hvs : ∀ v ∈ vs, v.sorted = v) :
    listed? now (some (.array vs)) = some (vs.filterMap (announced? now)) := by
  have heach : ∀ v ∈ vs, ofValue? now v = announced? now v := fun v hv => by
    rw [announced?_eq, ofValue?, hvs v hv]
  rw [listed?, List.filterMap_congr heach]

section Lists

variable {key : String} {list : Option Value} {payload : Value} {now : Timestamp}
  {rolls : List RollRecord}

/-- What is made of the name of a table and its records is made of them wherever they are listed. -/
theorem Json.Value.Lists.bind_fields {α : Type} (h : payload.Lists key list)
    (hrolls : RollRecord.listed? now list = some rolls)
    (make : Option TableId → List RollRecord → α) :
    ∃ table, ((payload.toTree.fields? ["tableId", key]).bind fun fields =>
        match fields with
        | [table, records] => do
          return make (← Json.Decode.optional Json.Decode.string table)
            (← RollRecord.decodeLenient now records)
        | _ => none) = some (make table rolls) := by
  obtain ⟨table, hfields, hnames⟩ := h
  obtain ⟨name, hname⟩ := RollRecord.exists_name hnames
  refine ⟨name, ?_⟩
  rw [Json.Value.fields?_toTree, hfields]
  simp only [Option.map_some, List.map_cons, List.map_nil, Option.bind_some, Option.bind_eq_bind,
    hname, RollRecord.decodeLenient_toTree, hrolls]
  rfl

theorem Json.Value.Lists.of_bind
    (h : (payload.fields? ["tableId", key]).bind (RollRecord.ofTable? now) = some rolls) :
    ∃ list, payload.Lists key list ∧ RollRecord.listed? now list = some rolls := by
  obtain ⟨fields, hfields, htable⟩ := Option.bind_eq_some_iff.mp h
  match fields with
  | [table, list] =>
      obtain ⟨hnames, hrolls⟩ := Option.ite_none_right_eq_some.mp htable
      exact ⟨list, ⟨table, hfields, hnames⟩, hrolls⟩
  | [] => cases htable
  | [_] => cases htable
  | _ :: _ :: _ :: _ => cases htable

theorem IsHistory.ofFrame (h : IsHistory list payload)
    (hrolls : RollRecord.listed? now list = some rolls) :
    ∃ table, InboundEvent.ofFrame now ⟨"table:history", payload⟩ =
      .ok (.tableHistory ⟨table, rolls⟩) := by
  obtain ⟨table, hdecode⟩ := h.bind_fields hrolls History.mk
  replace hdecode : History.decode now payload.toTree = some ⟨table, rolls⟩ := hdecode
  refine ⟨table, InboundEvent.ofFrame_eq_ok_iff.mpr ?_⟩
  exact congrArg (Option.map InboundEvent.tableHistory) hdecode

theorem IsSubscription.ofFrame (h : IsSubscription list payload)
    (hrolls : RollRecord.listed? now list = some rolls) :
    ∃ table, InboundEvent.ofFrame now ⟨"message", payload⟩ =
      .ok (.message (.subscribed table rolls)) := by
  obtain ⟨content, henvelope, hlists⟩ := h
  obtain ⟨table, hdecode⟩ := hlists.bind_fields hrolls TableMessage.subscribed
  replace hdecode : TableMessage.decode now payload.toTree = some (.subscribed table rolls) := by
    rw [TableMessage.decode_toTree, henvelope]
    exact hdecode
  refine ⟨table, InboundEvent.ofFrame_eq_ok_iff.mpr ?_⟩
  exact congrArg (Option.map InboundEvent.message) hdecode

/-- Whatever is read as a history is such a payload, and its list is null, missing or an array. -/
theorem IsHistory.of_ofFrame {history : History}
    (h : InboundEvent.ofFrame now ⟨"table:history", payload⟩ = .ok (.tableHistory history)) :
    ∃ list, IsHistory list payload ∧ RollRecord.listed? now list = some history.rolls := by
  obtain ⟨_, hdecode, heq⟩ := Option.map_eq_some_iff.mp (InboundEvent.ofFrame_eq_ok_iff.mp h)
  cases heq
  refine Json.Value.Lists.of_bind ?_
  rw [← History.map_rolls_decode, hdecode, Option.map_some]

/-- Only the message of a subscription is read as one. -/
theorem TableMessage.eq_of_decodeContent {type : String} {content : Json.Tree}
    {table : Option TableId} (h : decodeContent now type content = some (.subscribed table rolls)) :
    type = "subscribed" := by
  by_contra hother
  unfold decodeContent at h
  rw [if_neg hother] at h
  split at h
  · obtain ⟨fields, -, h⟩ := Option.bind_eq_some_iff.mp h
    split at h
    · obtain ⟨record, -, heq⟩ := Option.bind_eq_some_iff.mp h
      cases heq
    · cases h
  · split at h
    · obtain ⟨fields, -, h⟩ := Option.bind_eq_some_iff.mp h
      split at h
      · obtain ⟨message, -, heq⟩ := Option.bind_eq_some_iff.mp h
        cases heq
      · cases h
    · split at h <;> cases h

/-- Whatever is read as a subscription is such a payload, and its list is null, missing or an
array. -/
theorem IsSubscription.of_ofFrame {table : Option TableId}
    (h : InboundEvent.ofFrame now ⟨"message", payload⟩ = .ok (.message (.subscribed table rolls))) :
    ∃ list, IsSubscription list payload ∧ RollRecord.listed? now list = some rolls := by
  obtain ⟨_, hdecode, heq⟩ := Option.map_eq_some_iff.mp (InboundEvent.ofFrame_eq_ok_iff.mp h)
  cases heq
  rw [TableMessage.decode_toTree] at hdecode
  obtain ⟨⟨type, content⟩, henvelope, hcontent⟩ := Option.bind_eq_some_iff.mp hdecode
  obtain rfl := TableMessage.eq_of_decodeContent hcontent
  have hlists : ∃ list, content.Lists "recentRolls" list ∧
      RollRecord.listed? now list = some rolls := by
    refine Json.Value.Lists.of_bind ?_
    rw [← TableMessage.map_rolls_subscribed, hcontent]
    rfl
  obtain ⟨list, hlists, hrolls⟩ := hlists
  exact ⟨list, ⟨content, henvelope, hlists⟩, hrolls⟩

end Lists

/-- **A bad roll costs only itself.**  A history and a subscription that list the same values, as
they come from a text, are both read, with the same rolls: in order, those of the values that are
records by themselves.  At another time the same rolls are read, up to the dates of those that
come without one.  A list that is null or missing is empty.  Whatever else is read as a history or
a subscription is such a payload, too. -/
theorem bad_roll_costs_only_itself (vs : List Value) (hvs : ∀ v ∈ vs, v.sorted = v) :
    (∀ payload, IsHistory (some (.array vs)) payload → ∀ now, ∃ table,
        InboundEvent.ofFrame now ⟨"table:history", payload⟩ =
          .ok (.tableHistory ⟨table, vs.filterMap (RollRecord.announced? now)⟩)) ∧
      (∀ payload, IsSubscription (some (.array vs)) payload → ∀ now, ∃ table,
        InboundEvent.ofFrame now ⟨"message", payload⟩ =
          .ok (.message (.subscribed table (vs.filterMap (RollRecord.announced? now))))) ∧
      (∀ now later, List.Forall₂ (RollRecord.Redated now later)
        (vs.filterMap (RollRecord.announced? now)) (vs.filterMap (RollRecord.announced? later))) ∧
      (∀ list, list = none ∨ list = some .null → ∀ payload now,
        (IsHistory list payload → ∃ table,
          InboundEvent.ofFrame now ⟨"table:history", payload⟩ = .ok (.tableHistory ⟨table, []⟩)) ∧
        (IsSubscription list payload → ∃ table,
          InboundEvent.ofFrame now ⟨"message", payload⟩ = .ok (.message (.subscribed table [])))) ∧
      ∀ payload now,
        (∀ history,
          InboundEvent.ofFrame now ⟨"table:history", payload⟩ = .ok (.tableHistory history) →
            ∃ list, IsHistory list payload) ∧
        ∀ table rolls,
          InboundEvent.ofFrame now ⟨"message", payload⟩ = .ok (.message (.subscribed table rolls)) →
            ∃ list, IsSubscription list payload := by
  refine ⟨fun payload h now => h.ofFrame (RollRecord.listed?_array now hvs),
    fun payload h now => h.ofFrame (RollRecord.listed?_array now hvs), fun now later => ?_,
    fun list hlist payload now => ?_,
    fun payload now => ⟨fun history h => ?_, fun table rolls h => ?_⟩⟩
  · refine List.rel_filterMap (R := Eq) ?_ (List.forall₂_refl vs)
    rintro v _ rfl
    rw [RollRecord.announced?_eq, RollRecord.announced?_eq]
    exact RollRecord.rel_decode now later v.toTree
  · have hempty : RollRecord.listed? now list = some [] := by
      rcases hlist with rfl | rfl <;> rfl
    exact ⟨fun h => h.ofFrame hempty, fun h => h.ofFrame hempty⟩
  · obtain ⟨list, hhistory, -⟩ := IsHistory.of_ofFrame h
    exact ⟨list, hhistory⟩
  · obtain ⟨list, hsubscription, -⟩ := IsSubscription.of_ofFrame h
    exact ⟨list, hsubscription⟩

/-- Five values, of which the first and the last are rolls. -/
def mixed : List Value :=
  [.object [("notation", .string "1d6"), ("rollId", .string "a"), ("total", .ofInt 4)],
    .object [("notation", .string "1d6"), ("total", .ofInt 4)], .string "not a roll", .null,
    .array [.string "b", .string "2d6", .array [], .array [], .ofInt 7]]

/-- The five values in a text, the members of the first in another order. -/
def mixedText : List UInt8 :=
  Text.Utf8.encode ("[\x7b\"rollId\":\"a\",\"notation\":\"1d6\",\"total\":4\x7d," ++
    "\x7b\"notation\":\"1d6\",\"total\":4\x7d,\"not a roll\",null,[\"b\",\"2d6\",[],[],7]]").toList

/-- A history and a subscription that list them bring the two rolls. -/
theorem bad_roll_costs_only_itself_mixed :
    let history : Value := .object [("rolls", .array mixed), ("tableId", .string "table")]
    let subscription : Value := .array [.string "subscribed", .null, .array mixed]
    let rolls : List RollRecord :=
      [{ id := "a", formula := "1d6", total := 4, timestamp := .epoch },
        { id := "b", formula := "2d6", total := 7, timestamp := .epoch }]
    (∀ v ∈ mixed, v.sorted = v) ∧
      IsHistory (some (.array mixed)) history ∧ IsSubscription (some (.array mixed)) subscription ∧
      (∃ table, InboundEvent.ofFrame .epoch ⟨"table:history", history⟩ =
        .ok (.tableHistory ⟨table, rolls⟩)) ∧
      ∃ table, InboundEvent.ofFrame .epoch ⟨"message", subscription⟩ =
        .ok (.message (.subscribed table rolls)) := by
  intro history subscription rolls
  have hread : (Json.Tree.ofOctets? mixedText).bind Value.ofTree? = some (.array mixed) := by
    decide +kernel
  have hsorted : ∀ v ∈ mixed, v.sorted = v := by
    obtain ⟨t, -, ht⟩ := Option.bind_eq_some_iff.mp hread
    exact Value.sorted_of_mem (Value.sorted_of_ofTree? ht)
  have hhistory : IsHistory (some (.array mixed)) history := ⟨some (.string "table"), rfl, rfl⟩
  have hsubscription : IsSubscription (some (.array mixed)) subscription :=
    ⟨.array [.null, .array mixed], rfl, some .null, rfl, rfl⟩
  have hrolls : mixed.filterMap (RollRecord.announced? .epoch) = rolls := by decide +kernel
  obtain ⟨hlisted, hrecent, -⟩ := bad_roll_costs_only_itself mixed hsorted
  refine ⟨hsorted, hhistory, hsubscription, ?_, ?_⟩
  · rw [← hrolls]
    exact hlisted history hhistory .epoch
  · rw [← hrolls]
    exact hrecent subscription hsubscription .epoch

end DiceTable
