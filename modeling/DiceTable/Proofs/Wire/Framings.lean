import DiceTable.Proofs.Event.RoundTrip
import DiceTable.Proofs.Wire.Packet

/-!
# One event in two framings

The framings put the name and the payload of an event into different texts, and read them by
different ways.  Both ways read the payload behind one bracket, and so they agree on it, whether it
is read or not (`framings_agree`).
-/

namespace DiceTable

open Json (Spells Tree Value stringText greatestDepth)
open Text.Utf8 (encode)

/-! ## Texts of an event -/

/-- The packet of an event with these arguments, behind the digits of a receipt. -/
def packetText (receipt : List Char) (arguments : List (List Char)) : List Char :=
  '4' :: '2' :: (receipt ++ '[' :: ([','].intercalate arguments ++ [']']))

/-- The object with these members. -/
def objectText (members : List (String × List Char)) : List Char :=
  '\x7b' :: ([','].intercalate (members.map fun m => stringText m.1 ++ ':' :: m.2) ++ ['\x7d'])

section Texts

variable {key key' : String} {first second : Tree} {firstText secondText : List Char}

theorem spells_objectText_single (h : Spells (.element first) firstText) :
    Spells (.element (.object [(some key, first)])) (objectText [(key, firstText)]) := by
  have hobject := (Spells.object (.lastMember (Json.spells_member key h))).bare
  simpa [objectText, List.intercalate] using hobject

theorem spells_objectText_pair (hfirst : Spells (.element first) firstText)
    (hsecond : Spells (.element second) secondText) :
    Spells (.element (.object [(some key, first), (some key', second)]))
      (objectText [(key, firstText), (key', secondText)]) := by
  have hobject := (Spells.object (.nextMember (Json.spells_member key hfirst)
    (.lastMember (Json.spells_member key' hsecond)))).bare
  simpa [objectText, List.intercalate] using hobject

end Texts

/-! ## Packets -/

/-- The digits of a receipt are skipped, and the array behind them is read. -/
theorem decode_packetText {receipt : List Char} (hreceipt : ∀ c ∈ receipt, c.isDigit = true)
    {trees : List Tree} {arguments : List (List Char)}
    (h : Spells (.items trees) ([','].intercalate arguments)) :
    WireFormat.socketIo.decode (encode (packetText receipt arguments)) =
      match (trees.map (Tree.cut (greatestDepth - 1))).mapM Json.Decode.value with
      | none => .error .decode
      | some (.string event :: rest) => .ok (.event ⟨event, rest.headD .null⟩)
      | some _ => Packet.malformed "event packet without a name" :=
  Packet.decode_event hreceipt (Spells.array h).bare

section Agreement

variable {name : String} {nameText payload : List Char} {tree : Tree}

theorem decode_packet_pair {receipt : List Char} (hreceipt : ∀ c ∈ receipt, c.isDigit = true)
    (hname : Spells (.element (.string name)) nameText)
    (hpayload : Spells (.element tree) payload) :
    WireFormat.socketIo.decode (encode (packetText receipt [nameText, payload])) =
      eventOutcome name (tree.cut (greatestDepth - 1)) := by
  have hitems : Spells (.items [.string name, tree]) ([','].intercalate [nameText, payload]) := by
    simpa [List.intercalate] using Spells.nextItem hname (.lastItem hpayload)
  exact Packet.decode_named_event hreceipt (Spells.array hitems).bare

theorem decode_packet_name {receipt : List Char} (hreceipt : ∀ c ∈ receipt, c.isDigit = true)
    (hname : Spells (.element (.string name)) nameText) :
    WireFormat.socketIo.decode (encode (packetText receipt [nameText])) =
      .ok (.event ⟨name, .null⟩) := by
  have hitems : Spells (.items [.string name]) ([','].intercalate [nameText]) := by
    simpa [List.intercalate] using Spells.lastItem hname
  rw [decode_packetText hreceipt hitems]
  rfl

/-! ## Objects -/

/-- The frame of a text that is read as this tree. -/
theorem decode_jsonFrames {text : List Char} (h : Spells (.element tree) text) :
    WireFormat.jsonFrames.decode (encode text) =
      match Frame.decode (tree.cut greatestDepth) with
      | some frame => .ok (.event frame)
      | none => .error .decode := by
  show (Frame.ofOctets _).map Incoming.event = _
  rw [Frame.ofOctets, Tree.ofOctets?, Text.Utf8.symbols_encode, Tree.ofSymbols?_of_spells h,
    Option.bind_some]
  cases Frame.decode (tree.cut greatestDepth) <;> rfl

/-- The name and the payload of a frame are found under their keys, in either order. -/
theorem decode_frame (name : String) (data : Tree) :
    Frame.decode (.object [(some "event", .string name), (some "data", data)]) =
        (Value.ofTree? data).map (Frame.mk name) ∧
      Frame.decode (.object [(some "data", data), (some "event", .string name)]) =
        (Value.ofTree? data).map (Frame.mk name) :=
  ⟨Option.map_eq_bind.symm, Option.map_eq_bind.symm⟩

theorem decode_object_pair {members : List (String × List Char)}
    (hname : Spells (.element (.string name)) nameText) (hpayload : Spells (.element tree) payload)
    (hmembers : members = [("event", nameText), ("data", payload)] ∨
      members = [("data", payload), ("event", nameText)]) :
    WireFormat.jsonFrames.decode (encode (objectText members)) =
      eventOutcome name (tree.cut (greatestDepth - 1)) := by
  have hread : WireFormat.jsonFrames.decode (encode (objectText members)) =
      match (Value.ofTree? (tree.cut (greatestDepth - 1))).map (Frame.mk name) with
      | some frame => .ok (.event frame)
      | none => .error .decode := by
    rw [← (decode_frame name _).1]
    rcases hmembers with rfl | rfl
    · exact decode_jsonFrames (spells_objectText_pair hname hpayload)
    · rw [(decode_frame name _).1, ← (decode_frame name _).2]
      exact decode_jsonFrames (spells_objectText_pair hpayload hname)
  rw [hread, eventOutcome]
  cases Value.ofTree? (tree.cut (greatestDepth - 1)) <;> rfl

theorem decode_object_name (hname : Spells (.element (.string name)) nameText) :
    WireFormat.jsonFrames.decode (encode (objectText [("event", nameText)])) =
      .ok (.event ⟨name, .null⟩) := by
  rw [decode_jsonFrames (spells_objectText_single hname)]
  rfl

end Agreement

/-! ## What is sent -/

namespace OutboundEvent

theorem plain_content (e : OutboundEvent) : e.content.Plain 1 := by
  cases e <;> exact .object (List.forall_mem_singleton.mpr (.string _))

theorem sorted_content (e : OutboundEvent) : e.content.sorted = e.content := by
  cases e <;> rfl

/-- The content of an outbound event is not too deep for a payload. -/
theorem eventOutcome_content (e : OutboundEvent) :
    eventOutcome e.name (e.content.toTree.cut (greatestDepth - 1)) =
      .ok (.event ⟨e.name, e.content⟩) := by
  rw [eventOutcome, e.plain_content.cut_toTree (by decide), Value.ofTree?_toTree, e.sorted_content]

theorem toList_event_socketIo (e : OutboundEvent) :
    (WireFormat.socketIo.event e).toList =
      packetText [] [stringText e.name, e.content.compactChars] := by
  rw [WireFormat.event, String.toList_append, Value.compact, String.toList_ofList]
  simp [Value.compactChars, Value.compactItems, Value.compactMoreItems, packetText,
    List.intercalate]

theorem toList_event_jsonFrames (e : OutboundEvent) :
    (WireFormat.jsonFrames.event e).toList =
      objectText [("event", stringText e.name), ("data", e.content.compactChars)] := by
  rw [WireFormat.event, Value.compact, String.toList_ofList]
  simp [encode, Value.compactChars, Value.compactMembers, Value.compactMoreMembers, objectText,
    List.intercalate]

/-- What a framing writes for an event is read as the event, with its content as the payload. -/
theorem decode_event (format : WireFormat) (e : OutboundEvent) :
    format.decode (Text.Utf8.encode (format.event e).toList) =
      .ok (.event ⟨e.name, e.content⟩) := by
  have hname : Spells (.element (.string e.name)) (stringText e.name) :=
    (Spells.leaf (Json.leafText_stringText e.name)).bare
  have hcontent := (Json.spells_compactChars e.plain_content).bare
  cases format with
  | socketIo =>
      rw [e.toList_event_socketIo, decode_packet_pair (by simp) hname hcontent,
        e.eventOutcome_content]
  | jsonFrames =>
      rw [e.toList_event_jsonFrames, decode_object_pair hname hcontent (.inl rfl),
        e.eventOutcome_content]

end OutboundEvent

/-! ## The main statement -/

/-- **The framings agree.**  Take a text for a name and a text for a payload, whatever layout and
escapes they use, and put them into a packet behind any digits, and into an object in either
order.  All of these come to the same: the event with this name and with what the payload denotes,
or an error if it denotes nothing, nested arrays and objects being read as far as they are built
behind one bracket.  Without a payload all come to the event whose payload is null.

What either framing writes for an event is read as this event, with its content as the payload;
the object is also read back as the event that was sent.  And the message that carries the key
holds this key and nothing else. -/
theorem framings_agree :
    (∀ (receipt : List Char) (name : String) (nameText : List Char) (tree : Tree)
        (payload : List Char), (∀ c ∈ receipt, c.isDigit = true) →
      Spells (.element (.string name)) nameText → Spells (.element tree) payload →
        WireFormat.socketIo.decode (encode (packetText receipt [nameText, payload])) =
            eventOutcome name (tree.cut (greatestDepth - 1)) ∧
          WireFormat.jsonFrames.decode
              (encode (objectText [("event", nameText), ("data", payload)])) =
            eventOutcome name (tree.cut (greatestDepth - 1)) ∧
          WireFormat.jsonFrames.decode
              (encode (objectText [("data", payload), ("event", nameText)])) =
            eventOutcome name (tree.cut (greatestDepth - 1))) ∧
      (∀ (receipt : List Char) (name : String) (nameText : List Char),
        (∀ c ∈ receipt, c.isDigit = true) → Spells (.element (.string name)) nameText →
        WireFormat.socketIo.decode (encode (packetText receipt [nameText])) =
            .ok (.event ⟨name, .null⟩) ∧
          WireFormat.jsonFrames.decode (encode (objectText [("event", nameText)])) =
            .ok (.event ⟨name, .null⟩)) ∧
      (∀ name : String, Spells (.element (.string name)) (stringText name)) ∧
      (∀ e : OutboundEvent,
        WireFormat.socketIo.decode (encode (WireFormat.socketIo.event e).toList) =
            .ok (.event ⟨e.name, e.content⟩) ∧
          WireFormat.jsonFrames.decode (encode (WireFormat.jsonFrames.event e).toList) =
            .ok (.event ⟨e.name, e.content⟩) ∧
          (Tree.ofOctets? (encode (WireFormat.jsonFrames.event e).toList)).bind
            OutboundEvent.decode = some e) ∧
      ∀ key : String,
        (∃ body, WireFormat.socketIo.auth key = "40" ++ body ∧
          (Tree.ofText? body).bind Value.ofTree? = some (.object [("apiKey", .string key)])) ∧
        (Tree.ofText? (WireFormat.jsonFrames.auth key)).bind Value.ofTree? =
          some (.object
            [("data", .object [("apiKey", .string key)]), ("event", .string "auth")]) := by
  refine ⟨?_, ?_, fun name => (Spells.leaf (Json.leafText_stringText name)).bare, ?_, ?_⟩
  · intro receipt name nameText tree payload hreceipt hname hpayload
    exact ⟨decode_packet_pair hreceipt hname hpayload,
      decode_object_pair hname hpayload (.inl rfl), decode_object_pair hname hpayload (.inr rfl)⟩
  · intro receipt name nameText hreceipt hname
    exact ⟨decode_packet_name hreceipt hname, decode_object_name hname⟩
  · intro e
    refine ⟨e.decode_event .socketIo, e.decode_event .jsonFrames, ?_⟩
    have hplain : e.encode.Plain greatestDepth := e.plain_encode
    rw [WireFormat.event, Tree.ofOctets?_compact hplain, Option.bind_some, e.decode_encode]
  · intro key
    have hcontent : (OutboundEvent.auth key).content.Plain greatestDepth :=
      .object (List.forall_mem_singleton.mpr (.string key))
    have hencode : (OutboundEvent.auth key).encode.Plain greatestDepth :=
      (OutboundEvent.auth key).plain_encode
    refine ⟨⟨_, rfl, Value.ofText?_compact hcontent⟩, ?_⟩
    · -- The members of a value that was read are sorted by key.
      have hless : ("data" : String) < "event" := by decide
      rw [WireFormat.auth, Value.ofText?_compact hencode]
      simp [OutboundEvent.encode, OutboundEvent.name, OutboundEvent.content, Value.sorted,
        Value.sortedValues, Value.sortMembers, Value.putMember, hless]

example : WireFormat.socketIo.decode (encode "4217[ \"\\u00e9\", [null, 1]]".toList) =
    .ok (.event ⟨"é", .array [.null, .number (.whole 1)]⟩) := by cbv

example : WireFormat.jsonFrames.decode
      (encode "\x7b\"data\":[null, 1],\"event\": \"\\u00e9\"\x7d".toList) =
    .ok (.event ⟨"é", .array [.null, .number (.whole 1)]⟩) := by cbv

end DiceTable
