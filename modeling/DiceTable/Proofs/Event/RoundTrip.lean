import DiceTable.Event.Outbound
import DiceTable.Proofs.Event.Carried
import DiceTable.Proofs.Roll.RoundTrip

/-!
# Wire types survive a round trip

Whatever is read as one of the types that travel between a client and a table is read as the same
again from the compact text that is written for it (`wire_types_survive`): a text may leave fields
out, list them in another order or in an array, or add unknown ones, but the value that it stands
for is kept.
-/

namespace DiceTable

open Json (Ensures Restores Survives Value)
open Json.Decode
open Json.Value (arranges_id plain_record plain_some plain_map plain_array plain_ofInt)

/-! ## Lists of records -/

namespace RollRecord

theorem wellFormed_of_decodeLenient {now : Timestamp} (hnow : now.IsValid)
    {field : Option Json.Tree} {rolls : List RollRecord}
    (h : decodeLenient now field = some rolls) :
    ∀ r ∈ rolls, r.IsWellFormed := by
  unfold decodeLenient at h
  split at h
  · cases h
    exact List.forall_mem_nil _
  · cases h
    exact List.forall_mem_nil _
  · obtain ⟨values, -, rfl⟩ := Option.map_eq_some_iff.mp h
    intro r hr
    obtain ⟨v, -, hv⟩ := List.mem_filterMap.mp hr
    exact ensures_decode .null hnow v.toTree r hv
  · cases h

theorem decodeLenient_encode (now : Timestamp) {rolls : List RollRecord}
    (h : ∀ r ∈ rolls, r.IsWellFormed) :
    decodeLenient now (some (Value.array (rolls.map encode)).toTree) = some rolls := by
  have hlist : decodeLenient now (some (Value.array (rolls.map encode)).toTree) =
      listed? now (some (.array (rolls.map encode))) :=
    decodeLenient_toTree now (some (.array (rolls.map encode)))
  have heach : ∀ r ∈ rolls, (ofValue? now ∘ encode) r = some r := fun r hr =>
    restores_decode .null now Json.Value.arranges_sorted (h r hr)
  rw [hlist, listed?, List.filterMap_map, List.filterMap_congr heach]
  exact congrArg some List.filterMap_some

end RollRecord

/-! ## Confirmation and history -/

theorem optional_string_encode (o : Option String) :
    optional string ((o.map Value.string).map Value.toTree) = some o :=
  optional_string_restored arranges_id o

namespace Subscribed

theorem encode_eq (s : Subscribed) : s.encode = .record ["tableId"] [s.table.map .string] := by
  simp [encode, Value.record_eq_ofFields, Function.comp_def]

theorem plain_encode {depth : Nat} (s : Subscribed) : s.encode.Plain (depth + 1) := by
  rw [encode_eq]
  exact plain_record (plain_string_map s.table)

theorem decode_encode (s : Subscribed) : decode s.encode.toTree = some s := by
  have hkeys : ["tableId"].Nodup := by decide
  rw [encode_eq, decode, Value.fields?_toTree_record hkeys rfl]
  simp only [List.map_cons, List.map_nil, Option.bind_eq_bind, Option.bind_some,
    optional_string_encode]
  rfl

end Subscribed

namespace History

/-- The records of the history are well formed. -/
def IsWellFormed (h : History) : Prop := ∀ r ∈ h.rolls, r.IsWellFormed

theorem ensures_decode {now : Timestamp} (hnow : now.IsValid) :
    Ensures (decode now) IsWellFormed := by
  intro t x h
  simp only [decode, Option.bind_eq_bind, Option.bind_eq_some_iff] at h
  obtain ⟨fields, -, h⟩ := h
  split at h
  next table rolls =>
    simp only [Option.bind_eq_some_iff] at h
    obtain ⟨_, -, _, hrolls, heq⟩ := h
    cases heq
    exact RollRecord.wellFormed_of_decodeLenient hnow hrolls
  next => cases h

theorem encode_eq (h : History) : h.encode = .record ["tableId", "rolls"]
    [h.table.map .string, some (.array (h.rolls.map RollRecord.encode))] := by
  simp [encode, Value.record_eq_ofFields, Function.comp_def]

theorem plain_encode {depth : Nat} {h : History} (hwell : h.IsWellFormed) :
    h.encode.Plain (depth + 5) := by
  have hrolls : (Value.array (h.rolls.map RollRecord.encode)).Plain (depth + 4) :=
    plain_array fun r hr => RollRecord.plain_encode (hwell r hr)
  rw [encode_eq]
  exact plain_record ⟨plain_string_map h.table, plain_some hrolls⟩

theorem decode_encode (now : Timestamp) {h : History} (hwell : h.IsWellFormed) :
    decode now h.encode.toTree = some h := by
  have hkeys : ["tableId", "rolls"].Nodup := by decide
  have hrolls := RollRecord.decodeLenient_encode now hwell
  rw [encode_eq, decode, Value.fields?_toTree_record hkeys rfl]
  simp only [List.map_cons, List.map_nil, Option.map_some, Option.bind_eq_bind, Option.bind_some,
    optional_string_encode, hrolls]
  rfl

end History

/-! ## The message envelope -/

namespace TableMessage

/-- The records that the envelope carries are well formed. -/
def IsWellFormed (e : TableMessage) : Prop := ∀ r ∈ e.rolls, r.IsWellFormed

theorem wellFormed_of_decodeContent {now : Timestamp} (hnow : now.IsValid) {type : String}
    {content : Json.Tree} {e : TableMessage} (h : decodeContent now type content = some e) :
    e.IsWellFormed := by
  by_cases hroll : type = "roll"
  · unfold decodeContent at h
    rw [if_pos hroll] at h
    obtain ⟨fields, -, h⟩ := Option.bind_eq_some_iff.mp h
    split at h
    next record =>
      obtain ⟨r, hr, heq⟩ := Option.bind_eq_some_iff.mp h
      cases heq
      have hwell := of_required hr (RollRecord.ensures_decode .nullOrEmpty hnow)
      exact List.forall_mem_singleton.mpr hwell
    next => cases h
  · by_cases hsubscribed : type = "subscribed"
    · unfold decodeContent at h
      rw [if_neg hroll, if_pos hsubscribed] at h
      obtain ⟨fields, -, h⟩ := Option.bind_eq_some_iff.mp h
      split at h
      next table recent =>
        obtain ⟨_, -, h⟩ := Option.bind_eq_some_iff.mp h
        obtain ⟨rolls, hrolls, heq⟩ := Option.bind_eq_some_iff.mp h
        cases heq
        exact RollRecord.wellFormed_of_decodeLenient hnow hrolls
      next => cases h
    · rw [IsWellFormed, rolls_eq_nil hsubscribed hroll h]
      exact List.forall_mem_nil _

theorem ensures_decode {now : Timestamp} (hnow : now.IsValid) :
    Ensures (decode now) IsWellFormed := by
  intro t e h
  unfold decode at h
  obtain ⟨-, h⟩ := Option.ite_none_right_eq_some.mp h
  split at h
  · split at h
    · exact wellFormed_of_decodeContent hnow h
    · cases h
  · exact wellFormed_of_decodeContent hnow h
  · cases h

/-- The name of a table, which is written even if there is none. -/
def tableValue : Option TableId → Value
  | some t => .string t
  | none => .null

theorem encode_roll (record : RollRecord) : encode (.roll record) =
    .record ["type", "roll"] [some (.string "roll"), some record.encode] := rfl

theorem encode_subscribed (table : Option TableId) (recent : List RollRecord) :
    encode (.subscribed table recent) = .record ["type", "tableId", "recentRolls"]
      [some (.string "subscribed"), some (tableValue table),
        some (.array (recent.map RollRecord.encode))] := by
  cases table <;> rfl

theorem plain_encode {depth : Nat} {e : TableMessage} (h : e.IsWellFormed) :
    e.encode.Plain (depth + 5) := by
  cases e with
  | roll record =>
      have hrecord : record.encode.Plain (depth + 4) :=
        RollRecord.plain_encode (h record List.mem_cons_self)
      rw [encode_roll]
      exact plain_record ⟨plain_some (.string _), plain_some hrecord⟩
  | subscribed table recent =>
      have htable : (tableValue table).Plain (depth + 4) := by
        cases table with
        | none => exact .null
        | some t => exact .string t
      have hrecent : (Value.array (recent.map RollRecord.encode)).Plain (depth + 4) :=
        plain_array fun r hr => RollRecord.plain_encode (h r hr)
      rw [encode_subscribed]
      exact plain_record ⟨plain_some (.string _), plain_some htable, plain_some hrecent⟩
  | error message =>
      show (Value.record ["type", "message"]
        [some (.string "error"), some (.string message)]).Plain (depth + 5)
      exact plain_record ⟨plain_some (.string _), plain_some (.string _)⟩
  | other =>
      show (Value.record ["type"] [some (.string "other")]).Plain (depth + 5)
      exact plain_record (plain_some (.string _))

theorem decode_encode (now : Timestamp) {e : TableMessage} (h : e.IsWellFormed) :
    decode now e.encode.toTree = some e := by
  rw [decode_toTree]
  cases e with
  | roll record =>
      have henvelope : (encode (.roll record)).envelope? =
          some ("roll", .record ["roll"] [some record.encode]) := rfl
      have hkeys : ["roll"].Nodup := by decide
      have hrecord : RollRecord.decode .nullOrEmpty now record.encode.toTree = some record :=
        RollRecord.restores_decode .nullOrEmpty now arranges_id (h record List.mem_cons_self)
      rw [henvelope, Option.bind_some]
      unfold decodeContent
      rw [if_pos rfl, Value.fields?_toTree_record hkeys rfl]
      simp only [List.map_cons, List.map_nil, Option.map_some, Option.bind_eq_bind,
        Option.bind_some, required, hrecord]
      rfl
  | subscribed table recent =>
      have henvelope : (encode (.subscribed table recent)).envelope? =
          some ("subscribed", .record ["tableId", "recentRolls"]
            [some (tableValue table), some (.array (recent.map RollRecord.encode))]) := by
        cases table <;> rfl
      have hkeys : ["tableId", "recentRolls"].Nodup := by decide
      have htable : optional string (some (tableValue table).toTree) = some table := by
        cases table <;> rfl
      have hrecent : RollRecord.decodeLenient now
          (some (Value.array (recent.map RollRecord.encode)).toTree) = some recent :=
        RollRecord.decodeLenient_encode now h
      have hother : "subscribed" ≠ "roll" := by decide
      rw [henvelope, Option.bind_some]
      unfold decodeContent
      simp only [if_neg hother, if_true]
      rw [Value.fields?_toTree_record hkeys rfl]
      simp only [List.map_cons, List.map_nil, Option.map_some, Option.bind_eq_bind,
        Option.bind_some, htable, hrecent]
      rfl
  | error message => rfl
  | other => rfl

end TableMessage

/-! ## Forwarded rolls -/

namespace ForwardedRoll

/-- The numbers of the roll are in the range of the wire, and its timestamp, if it has one, is an
instant of the calendar. -/
structure IsWellFormed (f : ForwardedRoll) : Prop where
  rolls : ∀ n ∈ f.rolls, Word.isSigned64 n = true
  modifier : Word.isSigned64 f.modifier = true
  total : Word.isSigned64 f.total = true
  timestamp : ∀ t ∈ f.timestamp, t.IsValid

theorem ensures_decode : Ensures decode IsWellFormed := by
  intro t x h
  simp only [decode, Option.bind_eq_bind, Option.bind_eq_some_iff] at h
  obtain ⟨fields, -, h⟩ := h
  split at h
  next formula rolls modifier total player timestamp =>
    simp only [Option.bind_eq_some_iff] at h
    obtain ⟨_, -, _, hrolls, _, hmodifier, _, htotal, _, -, _, htimestamp, heq⟩ := h
    cases heq
    have hrolls := of_withDefault hrolls (List.forall_mem_nil _) (ensures_list ensures_signed64)
    have hmodifier := of_withDefault hmodifier (by rfl) ensures_signed64
    have htotal := of_required htotal ensures_signed64
    have htimestamp := of_optional htimestamp Timestamp.ensures_decode
    exact ⟨hrolls, hmodifier, htotal, htimestamp⟩
  next => cases h

theorem encode_eq (x : ForwardedRoll) :
    x.encode = .record ["notation", "rolls", "modifier", "result", "player", "timestamp"]
      [some (.string x.formula), some (.array (x.rolls.map .ofInt)), some (.ofInt x.modifier),
        some (.ofInt x.total), x.player.map .string,
        x.timestamp.map fun t => .string t.text] := by
  simp [encode, Value.record_eq_ofFields, Function.comp_def]

theorem plain_encode {depth : Nat} {x : ForwardedRoll} (h : x.IsWellFormed) :
    x.encode.Plain (depth + 2) := by
  have hrolls : (Value.array (x.rolls.map Value.ofInt)).Plain (depth + 1) :=
    plain_array fun n hn => plain_ofInt (h.rolls n hn)
  rw [encode_eq]
  exact plain_record ⟨plain_some (.string _), plain_some hrolls,
    plain_some (plain_ofInt h.modifier), plain_some (plain_ofInt h.total),
    plain_string_map x.player, plain_map fun t _ => .string t.text⟩

theorem decode_encode {x : ForwardedRoll} (h : x.IsWellFormed) :
    decode x.encode.toTree = some x := by
  have hkeys : ["notation", "rolls", "modifier", "result", "player", "timestamp"].Nodup := by decide
  have hformula : string (Value.string x.formula).toTree = some x.formula := rfl
  have hrolls : list signed64 (Value.array (x.rolls.map .ofInt)).toTree = some x.rolls :=
    restores_list restores_signed64 arranges_id h.rolls
  have hmodifier : signed64 (Value.ofInt x.modifier).toTree = some x.modifier :=
    restores_signed64 arranges_id h.modifier
  have htotal : signed64 (Value.ofInt x.total).toTree = some x.total :=
    restores_signed64 arranges_id h.total
  have htimestamp : optional Timestamp.decode
      ((x.timestamp.map fun t => Value.string t.text).map Value.toTree) = some x.timestamp :=
    optional_restored Timestamp.restores_decode rfl arranges_id h.timestamp
  rw [encode_eq, decode, Value.fields?_toTree_record hkeys rfl]
  simp only [List.map_cons, List.map_nil, Option.map_some, Option.bind_eq_bind, Option.bind_some,
    required, withDefault, hformula, hrolls, hmodifier, htotal, htimestamp, optional_string_encode]
  rfl

end ForwardedRoll

/-! ## Outbound events -/

namespace OutboundEvent

theorem plain_encode {depth : Nat} (e : OutboundEvent) : e.encode.Plain (depth + 2) := by
  have hcontent : e.content.Plain (depth + 1) := by
    cases e <;> exact .object (List.forall_mem_singleton.mpr (.string _))
  exact .object (List.forall_mem_cons.mpr ⟨.string _, List.forall_mem_singleton.mpr hcontent⟩)

theorem decode_encode (e : OutboundEvent) : decode e.encode.toTree = some e := by
  cases e <;> rfl

end OutboundEvent

/-! ## All types -/

/-- **Wire types survive.**  Whatever is read from a text as one of these types is read as the
same from the compact text written for it, whenever that is.  The values that can be read are
exactly those with numbers in range, sources of the kind of their name, and timestamps of the
calendar. -/
theorem wire_types_survive {now later : Timestamp} (hnow : now.IsValid) :
    Survives (RollRecord.decode .null now) (RollRecord.decode .null later) RollRecord.encode
        RollRecord.IsWellFormed ∧
      Survives (NewRoll.decode .null) (NewRoll.decode .null) NewRoll.encode NewRoll.IsWellFormed ∧
      Survives IngestReceipt.decode IngestReceipt.decode IngestReceipt.encode (fun _ => True) ∧
      Survives (Die.decode .null) (Die.decode .null) Die.encode Die.IsWellFormed ∧
      Survives (Modifier.decode .null) (Modifier.decode .null) Modifier.encode
        Modifier.IsWellFormed ∧
      Survives RollContext.decode RollContext.decode RollContext.encode (fun _ => True) ∧
      Survives RollSource.decode RollSource.decode RollSource.encode (·.kind.IsNamed) ∧
      Survives OutboundEvent.decode OutboundEvent.decode OutboundEvent.encode (fun _ => True) ∧
      Survives Subscribed.decode Subscribed.decode Subscribed.encode (fun _ => True) ∧
      Survives (History.decode now) (History.decode later) History.encode History.IsWellFormed ∧
      Survives (TableMessage.decode now) (TableMessage.decode later) TableMessage.encode
        TableMessage.IsWellFormed ∧
      Survives ForwardedRoll.decode ForwardedRoll.decode ForwardedRoll.encode
        ForwardedRoll.IsWellFormed := by
  have hany {α : Type} (decode : Json.Decoder α) : Ensures decode fun _ => True :=
    fun _ _ _ => trivial
  refine ⟨?_, ?_, ?_, ?_, ?_, ?_, ?_, ?_, ?_, ?_, ?_, ?_⟩
  · exact Json.survives (RollRecord.ensures_decode .null hnow) RollRecord.plain_encode
      (RollRecord.restores_decode .null now arranges_id)
      (RollRecord.restores_decode .null later arranges_id)
  · exact Json.survives_self (NewRoll.ensures_decode .null) NewRoll.plain_encode
      (NewRoll.restores_decode .null arranges_id)
  · exact Json.survives_self (hany _) (fun _ => IngestReceipt.plain_encode _)
      (IngestReceipt.restores_decode arranges_id)
  · exact Json.survives_self (Die.ensures_decode .null) Die.plain_encode
      (Die.restores_decode .null arranges_id)
  · exact Json.survives_self (Modifier.ensures_decode .null) Modifier.plain_encode
      (Modifier.restores_decode .null arranges_id)
  · exact Json.survives_self (hany _) (fun _ => RollContext.plain_encode _)
      (RollContext.restores_decode arranges_id)
  · exact Json.survives_self RollSource.ensures_decode (fun _ => RollSource.plain_encode _)
      (RollSource.restores_decode arranges_id)
  · exact Json.survives_self (hany _) (fun _ => OutboundEvent.plain_encode _)
      (fun _ => OutboundEvent.decode_encode _)
  · exact Json.survives_self (hany _) (fun _ => Subscribed.plain_encode _)
      (fun _ => Subscribed.decode_encode _)
  · exact Json.survives (History.ensures_decode hnow) History.plain_encode
      (History.decode_encode now) (History.decode_encode later)
  · exact Json.survives (TableMessage.ensures_decode hnow) TableMessage.plain_encode
      (TableMessage.decode_encode now) (TableMessage.decode_encode later)
  · exact Json.survives_self ForwardedRoll.ensures_decode ForwardedRoll.plain_encode
      ForwardedRoll.decode_encode

/-- A roll with a member that is unknown, the others out of order, and most of them missing. -/
def sparseText : List UInt8 :=
  Text.Utf8.encode
    "\x7b\"total\": 5, \"seen\": [1], \"notation\": \"d6\", \"rollId\": \"é\"\x7d".toList

theorem wire_types_survive_sparse :
    Timestamp.epoch.IsValid ∧
      (Json.Tree.ofOctets? sparseText).bind (RollRecord.decode .null .epoch) =
        some { id := "é", formula := "d6", total := 5, timestamp := .epoch } ∧
      (Json.Tree.ofOctets? (Text.Utf8.encode (RollRecord.encode
          { id := "é", formula := "d6", total := 5, timestamp := .epoch }).compact.toList)).bind
          (RollRecord.decode .null ⟨⟨2024, 2, 29⟩, 23, 59, 60, 5⟩) =
        some { id := "é", formula := "d6", total := 5, timestamp := .epoch } := by
  have hnow : Timestamp.epoch.IsValid := ⟨by decide, by decide, by decide, by decide, by decide⟩
  have hread : (Json.Tree.ofOctets? sparseText).bind (RollRecord.decode .null .epoch) =
      some { id := "é", formula := "d6", total := 5, timestamp := .epoch } := by decide +kernel
  exact ⟨hnow, hread, (wire_types_survive hnow).1.kept _ _ hread⟩

end DiceTable
