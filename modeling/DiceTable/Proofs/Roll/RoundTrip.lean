import DiceTable.Roll.Record
import DiceTable.Proofs.Json.Survival
import DiceTable.Proofs.Timestamp.Reading

/-!
# Rolls are read back

A die, a modifier, a context, a source and a roll made of them are decoded from what is written
for them, if their numbers are in the range of the wire and their timestamps are instants of the
calendar (`IsWellFormed`).  Whatever is decoded has that form, so that nothing is lost when it is
passed on.

## Strategy

Each type has four lemmas: what its decoder ensures, what is written for it as a record
(`encode_eq`), that the record is plain, and that it is decoded again.  The last is stated for any
arrangement of the members, since the records of a list stand sorted when they are decoded.
-/

namespace DiceTable

open Json (Ensures Restores Value)
open Json.Decode
open Json.Value (plain_record plain_some plain_map plain_array plain_ofInt plain_ofNat)

/-! ## Dice -/

theorem DieKind.ofName?_name : ∀ k : DieKind, ofName? k.name = some k
  | .standard => rfl

namespace Die

/-- The numbers of the die are in the range of the wire. -/
structure IsWellFormed (d : Die) : Prop where
  sides : ∀ n ∈ d.sides, n ≤ Word.maxUnsigned32
  value : Word.isSigned64 d.value = true

theorem ensures_decode (hollow : Hollow) : Ensures (decode hollow) IsWellFormed := by
  intro t d h
  simp only [decode, Option.bind_eq_bind, Option.bind_eq_some_iff] at h
  obtain ⟨fields, -, h⟩ := h
  split at h
  next sides value kind =>
    simp only [Option.bind_eq_some_iff] at h
    obtain ⟨_, hsides, _, hvalue, _, -, heq⟩ := h
    cases heq
    have hsides := of_optional hsides ensures_unsigned32
    have hvalue := of_required hvalue ensures_signed64
    exact ⟨hsides, hvalue⟩
  next => cases h

theorem encode_eq (d : Die) : d.encode = .record ["sides", "value", "type"]
    [d.sides.map .ofNat, some (.ofInt d.value), some (.string d.kind.name)] := by
  simp [encode, Value.record_eq_ofFields, Function.comp_def]

theorem plain_encode {depth : Nat} {d : Die} (h : d.IsWellFormed) : d.encode.Plain (depth + 1) := by
  have hsides : ∀ n ∈ d.sides, (Value.ofNat n).Plain depth := by
    intro n hn
    exact plain_ofNat ((h.sides n hn).trans (by decide))
  rw [encode_eq]
  exact plain_record
    ⟨plain_map hsides, plain_some (plain_ofInt h.value), plain_some (.string _)⟩

theorem restores_decode (hollow : Hollow) : Restores (decode hollow) encode IsWellFormed := by
  intro f hf d hd
  have hkeys : ["sides", "value", "type"].Nodup := by decide
  have hsides := optional_restored restores_unsigned32 rfl hf hd.sides
  have hvalue := restores_signed64 hf hd.value
  have hkind := restores_name DieKind.ofName?_name hollow hf (x := d.kind) trivial
  rw [encode_eq, decode, hf.fields?_record hkeys rfl]
  simp only [List.map_cons, List.map_nil, Option.map_some, Option.bind_eq_bind, Option.bind_some,
    required, withDefault, hsides, hvalue, hkind]
  rfl

end Die

/-! ## Modifiers -/

theorem ModifierKind.ofName?_name : ∀ k : ModifierKind, ofName? k.name = some k
  | .add => rfl
  | .subtract => rfl

namespace Modifier

/-- The magnitude of the modifier is in the range of the wire. -/
def IsWellFormed (m : Modifier) : Prop := m.magnitude ≤ Word.maxUnsigned64

theorem ensures_decode (hollow : Hollow) : Ensures (decode hollow) IsWellFormed := by
  intro t m h
  simp only [decode, Option.bind_eq_bind, Option.bind_eq_some_iff] at h
  obtain ⟨fields, -, h⟩ := h
  split at h
  next kind magnitude origin =>
    simp only [Option.bind_eq_some_iff] at h
    obtain ⟨_, -, _, hmagnitude, _, -, heq⟩ := h
    cases heq
    have hmagnitude := of_required hmagnitude ensures_unsigned64
    exact hmagnitude
  next => cases h

theorem encode_eq (m : Modifier) : m.encode = .record ["type", "value", "source"]
    [some (.string m.kind.name), some (.ofNat m.magnitude), some (.string m.origin)] := rfl

theorem plain_encode {depth : Nat} {m : Modifier} (h : m.IsWellFormed) :
    m.encode.Plain (depth + 1) := by
  rw [encode_eq]
  exact plain_record
    ⟨plain_some (.string _), plain_some (plain_ofNat h), plain_some (.string _)⟩

theorem restores_decode (hollow : Hollow) : Restores (decode hollow) encode IsWellFormed := by
  intro f hf m hm
  have hkeys : ["type", "value", "source"].Nodup := by decide
  have hkind := restores_name ModifierKind.ofName?_name hollow hf (x := m.kind) trivial
  have hmagnitude := restores_unsigned64 hf hm
  have horigin := restores_string hf (x := m.origin) trivial
  rw [encode_eq, decode, hf.fields?_record hkeys rfl]
  simp only [List.map_cons, List.map_nil, Option.map_some, Option.bind_eq_bind, Option.bind_some,
    required, withDefault, hkind, hmagnitude, horigin]
  rfl

end Modifier

/-! ## Contexts and sources -/

theorem optional_string_restored {f : Value → Value} (hf : Value.Arranges f) (o : Option String) :
    optional string ((o.map Value.string).map fun v => (f v).toTree) = some o :=
  optional_restored restores_string rfl hf fun _ _ => trivial

theorem plain_string_map {depth : Nat} (o : Option String) :
    ∀ v ∈ o.map Value.string, v.Plain depth :=
  plain_map fun s _ => .string s

namespace RollContext

theorem encode_eq (c : RollContext) :
    c.encode = .record ["rollType", "character", "weapon", "spell", "skill"]
      [c.rollType.map .string, c.character.map .string, c.weapon.map .string, c.spell.map .string,
        c.skill.map .string] := by
  simp [encode, Value.record_eq_ofFields, Function.comp_def]

theorem plain_encode {depth : Nat} (c : RollContext) : c.encode.Plain (depth + 1) := by
  rw [encode_eq]
  exact plain_record ⟨plain_string_map _, plain_string_map _, plain_string_map _,
    plain_string_map _, plain_string_map _⟩

theorem restores_decode : Restores decode encode fun _ => True := by
  intro f hf c _
  have hkeys : ["rollType", "character", "weapon", "spell", "skill"].Nodup := by decide
  rw [encode_eq, decode, hf.fields?_record hkeys rfl]
  simp only [List.map_cons, List.map_nil, Option.bind_eq_bind, Option.bind_some,
    optional_string_restored hf]
  rfl

end RollContext

namespace SourceKind

/-- The kind is the one that its name stands for. -/
def IsNamed (k : SourceKind) : Prop := ofName k.name = k

theorem isNamed_ofName (s : String) : (ofName s).IsNamed := by
  by_cases happ : s = "app"
  · rw [happ]
    rfl
  · by_cases hproxy : s = "proxy"
    · rw [hproxy]
      rfl
    · have hother : ofName s = .other s := by rw [ofName, if_neg happ, if_neg hproxy]
      rw [hother]
      exact hother

theorem ensures_decode : Ensures (fun t => (string t).map ofName) IsNamed := by
  intro t k h
  obtain ⟨name, -, rfl⟩ := Option.map_eq_some_iff.mp h
  exact isNamed_ofName name

theorem restores_decode :
    Restores (fun t => (string t).map ofName) (fun k => Value.string k.name) IsNamed := by
  intro f hf k hk
  rw [hf.string]
  exact congrArg some hk

end SourceKind

namespace RollSource

theorem ensures_decode : Ensures decode fun s => s.kind.IsNamed := by
  intro t s h
  simp only [decode, Option.bind_eq_bind, Option.bind_eq_some_iff] at h
  obtain ⟨fields, -, h⟩ := h
  split at h
  next kind label version =>
    simp only [Option.bind_eq_some_iff] at h
    obtain ⟨k, hkind, _, -, _, -, heq⟩ := h
    cases heq
    have hunknown : SourceKind.unknown.IsNamed := SourceKind.isNamed_ofName "unknown"
    exact of_withDefault hkind hunknown SourceKind.ensures_decode
  next => cases h

theorem encode_eq (s : RollSource) : s.encode = .record ["type", "appName", "version"]
    [some (.string s.kind.name), s.label.map .string, s.version.map .string] := by
  simp [encode, Value.record_eq_ofFields, Function.comp_def]

theorem plain_encode {depth : Nat} (s : RollSource) : s.encode.Plain (depth + 1) := by
  rw [encode_eq]
  exact plain_record ⟨plain_some (.string _), plain_string_map _, plain_string_map _⟩

theorem restores_decode : Restores decode encode fun s => s.kind.IsNamed := by
  intro f hf s hs
  have hkeys : ["type", "appName", "version"].Nodup := by decide
  have hkind : (string (f (.string s.kind.name)).toTree).map SourceKind.ofName = some s.kind :=
    SourceKind.restores_decode hf hs
  rw [encode_eq, decode, hf.fields?_record hkeys rfl]
  simp only [List.map_cons, List.map_nil, Option.map_some, Option.bind_eq_bind, Option.bind_some,
    withDefault, hkind, optional_string_restored hf]
  rfl

end RollSource

/-! ## Timestamps -/

namespace Timestamp

theorem ensures_decode : Ensures decode IsValid := by
  intro t instant h
  obtain ⟨s, -, hs⟩ := Option.bind_eq_some_iff.mp h
  exact isValid_of_ofText? hs

theorem restores_decode : Restores decode (fun t => Value.string t.text) IsValid := by
  intro f hf t ht
  have hstring : string (Value.string t.text).toTree = some t.text := rfl
  rw [hf.string, decode, hstring, Option.bind_some, ofText?_text ht]

end Timestamp

/-! ## Rolls -/

namespace RollRecord

/-- The numbers of the roll are in the range of the wire, its source has the kind of its name, and
its timestamp is an instant of the calendar. -/
structure IsWellFormed (r : RollRecord) : Prop where
  dice : ∀ d ∈ r.dice, d.IsWellFormed
  modifiers : ∀ m ∈ r.modifiers, m.IsWellFormed
  total : Word.isSigned64 r.total = true
  source : r.source.kind.IsNamed
  timestamp : r.timestamp.IsValid

theorem ensures_decode (hollow : Hollow) {now : Timestamp} (hnow : now.IsValid) :
    Ensures (decode hollow now) IsWellFormed := by
  intro t r h
  simp only [decode, Option.bind_eq_bind, Option.bind_eq_some_iff] at h
  obtain ⟨fields, -, h⟩ := h
  split at h
  next id formula dice modifiers total context source timestamp =>
    simp only [Option.bind_eq_some_iff] at h
    obtain ⟨_, -, _, -, _, hdice, _, hmodifiers, _, htotal, _, -, _, hsource, _, htimestamp,
      heq⟩ := h
    cases heq
    have hdice := of_withDefault hdice (List.forall_mem_nil _)
      (ensures_list (Die.ensures_decode hollow))
    have hmodifiers := of_withDefault hmodifiers (List.forall_mem_nil _)
      (ensures_list (Modifier.ensures_decode hollow))
    have htotal := of_required htotal ensures_signed64
    have hunknown : SourceKind.unknown.IsNamed := SourceKind.isNamed_ofName "unknown"
    have hsource := of_withDefault hsource hunknown RollSource.ensures_decode
    have htimestamp := of_withDefault htimestamp hnow Timestamp.ensures_decode
    exact ⟨hdice, hmodifiers, htotal, hsource, htimestamp⟩
  next => cases h

/-- The keys behind the identifier. -/
def contentKeys : List String :=
  ["notation", "dice", "modifiers", "total", "context", "source", "timestamp"]

/-- The fields behind the identifier. -/
def content (r : RollRecord) : List (Option Value) :=
  [some (.string r.formula), some (.array (r.dice.map Die.encode)),
    some (.array (r.modifiers.map Modifier.encode)), some (.ofInt r.total), some r.context.encode,
    some r.source.encode, some (.string r.timestamp.text)]

theorem encode_eq (r : RollRecord) :
    r.encode = .record ("rollId" :: contentKeys) (some (.string r.id) :: r.content) := rfl

theorem plain_content {depth : Nat} {r : RollRecord} (h : r.IsWellFormed) (key s : String) :
    (Value.record (key :: contentKeys) (some (.string s) :: r.content)).Plain (depth + 3) := by
  have hdice : (Value.array (r.dice.map Die.encode)).Plain (depth + 2) :=
    plain_array fun d hd => Die.plain_encode (h.dice d hd)
  have hmodifiers : (Value.array (r.modifiers.map Modifier.encode)).Plain (depth + 2) :=
    plain_array fun m hm => Modifier.plain_encode (h.modifiers m hm)
  exact plain_record ⟨plain_some (.string _), plain_some (.string _), plain_some hdice,
    plain_some hmodifiers, plain_some (plain_ofInt h.total),
    plain_some (RollContext.plain_encode _), plain_some (RollSource.plain_encode _),
    plain_some (.string _)⟩

theorem plain_encode {depth : Nat} {r : RollRecord} (h : r.IsWellFormed) :
    r.encode.Plain (depth + 3) :=
  plain_content h "rollId" r.id

/-- Each part is decoded from what is written for it. -/
theorem content_restored {f : Value → Value} (hf : Value.Arranges f) {r : RollRecord}
    (h : r.IsWellFormed) (hollow : Hollow) :
    list (Die.decode hollow) (f (.array (r.dice.map Die.encode))).toTree = some r.dice ∧
      list (Modifier.decode hollow) (f (.array (r.modifiers.map Modifier.encode))).toTree =
        some r.modifiers ∧
      signed64 (f (.ofInt r.total)).toTree = some r.total ∧
      RollContext.decode (f r.context.encode).toTree = some r.context ∧
      RollSource.decode (f r.source.encode).toTree = some r.source ∧
      Timestamp.decode (f (.string r.timestamp.text)).toTree = some r.timestamp := by
  refine ⟨?_, ?_, ?_, ?_, ?_, ?_⟩
  · exact restores_list (Die.restores_decode hollow) hf h.dice
  · exact restores_list (Modifier.restores_decode hollow) hf h.modifiers
  · exact restores_signed64 hf h.total
  · exact RollContext.restores_decode hf trivial
  · exact RollSource.restores_decode hf h.source
  · exact Timestamp.restores_decode hf h.timestamp

theorem restores_decode (hollow : Hollow) (now : Timestamp) :
    Restores (decode hollow now) encode IsWellFormed := by
  intro f hf r hr
  have hkeys : ("rollId" :: contentKeys).Nodup := by decide
  have hlength : (some (.string r.id) :: r.content).length = ("rollId" :: contentKeys).length := rfl
  have hfields := hf.fields?_record hkeys hlength
  have hstring (s : String) : string (f (.string s)).toTree = some s := restores_string hf trivial
  obtain ⟨hdice, hmodifiers, htotal, hcontext, hsource, htimestamp⟩ := content_restored hf hr hollow
  rw [encode_eq, decode]
  simp only [contentKeys] at hfields ⊢
  rw [hfields]
  simp only [content, List.map_cons, List.map_nil, Option.map_some, Option.bind_eq_bind,
    Option.bind_some, required, withDefault, hstring, hdice, hmodifiers, htotal, hcontext, hsource,
    htimestamp]
  rfl

end RollRecord

namespace NewRoll

/-- The roll becomes a well-formed record, whatever its identifier. -/
def IsWellFormed (r : NewRoll) : Prop := ∀ id, (r.toRecord id).IsWellFormed

theorem ensures_decode (hollow : Hollow) : Ensures (decode hollow) IsWellFormed := by
  intro t r h
  simp only [decode, Option.bind_eq_bind, Option.bind_eq_some_iff] at h
  obtain ⟨fields, -, h⟩ := h
  split at h
  next table formula dice modifiers total context source timestamp =>
    simp only [Option.bind_eq_some_iff] at h
    obtain ⟨_, -, _, -, _, hdice, _, hmodifiers, _, htotal, _, -, _, hsource, _, htimestamp,
      heq⟩ := h
    cases heq
    have hdice := of_required hdice (ensures_list (Die.ensures_decode hollow))
    have hmodifiers := of_required hmodifiers (ensures_list (Modifier.ensures_decode hollow))
    have htotal := of_required htotal ensures_signed64
    have hsource := of_required hsource RollSource.ensures_decode
    have htimestamp := of_required htimestamp Timestamp.ensures_decode
    exact fun _ => ⟨hdice, hmodifiers, htotal, hsource, htimestamp⟩
  next => cases h

theorem encode_eq (r : NewRoll) (id : RollId) :
    r.encode = .record ("tableId" :: RollRecord.contentKeys)
      (some (.string r.table) :: (r.toRecord id).content) := rfl

theorem plain_encode {depth : Nat} {r : NewRoll} (h : r.IsWellFormed) :
    r.encode.Plain (depth + 3) :=
  RollRecord.plain_content (h "") "tableId" r.table

theorem restores_decode (hollow : Hollow) : Restores (decode hollow) encode IsWellFormed := by
  intro f hf r hr
  have hkeys : ("tableId" :: RollRecord.contentKeys).Nodup := by decide
  have hlength : (some (.string r.table) :: (r.toRecord "").content).length =
      ("tableId" :: RollRecord.contentKeys).length := rfl
  have hfields := hf.fields?_record hkeys hlength
  have hstring (s : String) : string (f (.string s)).toTree = some s := restores_string hf trivial
  obtain ⟨hdice, hmodifiers, htotal, hcontext, hsource, htimestamp⟩ :=
    RollRecord.content_restored hf (hr "") hollow
  simp only [toRecord] at hdice hmodifiers htotal hcontext hsource htimestamp
  rw [encode_eq r "", decode]
  simp only [RollRecord.contentKeys] at hfields ⊢
  rw [hfields]
  simp only [RollRecord.content, toRecord, List.map_cons, List.map_nil, Option.map_some,
    Option.bind_eq_bind, Option.bind_some, required, hstring, hdice, hmodifiers, htotal, hcontext,
    hsource, htimestamp]
  rfl

end NewRoll

/-! ## Receipts -/

namespace IngestReceipt

theorem encode_eq (r : IngestReceipt) :
    r.encode = .record ["rollId"] [some (.string r.rollId)] := rfl

theorem plain_encode {depth : Nat} (r : IngestReceipt) : r.encode.Plain (depth + 1) := by
  rw [encode_eq]
  exact plain_record (plain_some (.string _))

theorem restores_decode : Restores decode encode fun _ => True := by
  intro f hf r _
  have hkeys : ["rollId"].Nodup := by decide
  rw [encode_eq, decode, hf.fields?_record hkeys rfl]
  simp only [List.map_cons, List.map_nil, Option.map_some, Option.bind_eq_bind, Option.bind_some,
    required, hf.string]
  rfl

end IngestReceipt

end DiceTable
