import DiceTable.Proofs.Json.Acceptance
import DiceTable.Proofs.Json.Compact
import DiceTable.Proofs.Json.Depth
import DiceTable.Proofs.Text.Utf8
import DiceTable.Proofs.Wire.Listener
import DiceTable.Wire.Handshake

/-!
# The grammar of packets

Which packets there are is said here without reading them.  What a packet says is a matter of its
first two characters, except that a slash behind the digit of a socket packet comes first,
whatever that digit is, and that an event needs an array (`Means`).  A text outside the framing is
malformed, with a message (`Malformed`).  What is left are events without an array that can be
read (`IsUnreadable`).  Reading computes these rules and nothing else (`decode_follows_rules`).

An array is read as far as values are built (`exists_arrayText_iff`), and the grammar of JSON allows
more (`not_all_events_are_read`).

## Strategy

Each rule is read as it says, whatever stands behind it (`ofChars_of_outcome`), and the reader
follows some rule on every text (`outcome_ofChars`).  An event is the one packet with a receipt to
be found: an array begins with a blank or a bracket, so that the receipt is all the digits in
front of it (`arguments?_eq_some_iff`).
-/

namespace DiceTable

open Json (Spells Tree Value greatestDepth)
open Text.Utf8 (encode)

/-- What an event with this payload comes to. -/
def eventOutcome (name : String) (payload : Tree) : Except ProtocolError Incoming :=
  match Value.ofTree? payload with
  | some data => .ok (.event ⟨name, data⟩)
  | none => .error .decode

namespace Packet

/-! ## The rules -/

/-- A text of an array, and the values that its items denote.  They stand behind one bracket. -/
def ArrayText (values : List Value) (text : List Char) : Prop :=
  ∃ items, Spells (.element (.array items)) text ∧
    (items.map (Tree.cut (greatestDepth - 1))).mapM Json.Decode.value = some values

/-- The body of an event: the digits of a receipt, and an array. -/
def EventText (values : List Value) (body : List Char) : Prop :=
  ∃ receipt text, body = receipt ++ text ∧ (∀ c ∈ receipt, c.isDigit = true) ∧ ArrayText values text

/-- The kinds of packets that are understood, of the engine and of the socket. -/
def kinds : List Char := ['0', '1', '2', '3', '4', '5', '6']

/-- The packets, and what each of them says. -/
inductive Means : List Char → Incoming → Prop where
  | opened (body : List Char) : Means ('0' :: body) .opened
  | closed (body : List Char) : Means ('1' :: body) .closed
  | ping (body : List Char) : Means ('2' :: body) .ping
  /-- A pong, an upgrade or a noop of the engine. -/
  | idle {kind : Char} (body : List Char) (hkind : kind ∈ ['3', '5', '6']) :
      Means (kind :: body) .ignored
  /-- A packet of another namespace, of whatever kind. -/
  | elsewhere (kind : Char) (body : List Char) : Means ('4' :: kind :: '/' :: body) .ignored
  | connected {body : List Char} (h : body.head? ≠ some '/') : Means ('4' :: '0' :: body) .connected
  | disconnected {body : List Char} (h : body.head? ≠ some '/') : Means ('4' :: '1' :: body) .closed
  /-- The name, and the payload or null. -/
  | event {name : String} {rest : List Value} {body : List Char}
      (h : EventText (.string name :: rest) body) :
      Means ('4' :: '2' :: body) (.event ⟨name, rest.headD .null⟩)
  | refused {body : List Char} (h : body.head? ≠ some '/') :
      Means ('4' :: '4' :: body) (.refused (refusalReason body))
  /-- An acknowledgement of an event, or a packet with attachments. -/
  | unused {kind : Char} {body : List Char} (hkind : kind ∈ ['3', '5', '6'])
      (h : body.head? ≠ some '/') : Means ('4' :: kind :: body) .ignored

/-- The texts that do not follow the framing, and what is said about each of them. -/
inductive Malformed : List Char → String → Prop where
  | empty : Malformed [] "empty packet"
  | engine {kind : Char} (body : List Char) (hkind : kind ∉ kinds) :
      Malformed (kind :: body) ("unknown engine packet type '" ++ String.singleton kind ++ "'")
  | bare : Malformed ['4'] "empty message packet"
  | socket {kind : Char} {body : List Char} (hkind : kind ∉ kinds) (h : body.head? ≠ some '/') :
      Malformed ('4' :: kind :: body)
        ("unknown socket packet type '" ++ String.singleton kind ++ "'")
  /-- An event whose first argument is missing or no string. -/
  | nameless {values : List Value} {body : List Char} (h : EventText values body)
      (hname : ∀ name rest, values ≠ .string name :: rest) :
      Malformed ('4' :: '2' :: body) "event packet without a name"

/-- An event of the default namespace without an array that can be read. -/
def IsUnreadable (cs : List Char) : Prop :=
  ∃ body, cs = '4' :: '2' :: body ∧ body.head? ≠ some '/' ∧ ∀ values, ¬EventText values body

/-- What a text comes to by these rules. -/
inductive Outcome (cs : List Char) : Except ProtocolError Incoming → Prop where
  | packet {incoming : Incoming} (h : Means cs incoming) : Outcome cs (.ok incoming)
  | malformed {message : String} (h : Malformed cs message) :
      Outcome cs (.error (.malformed message))
  | unreadable (h : IsUnreadable cs) : Outcome cs (.error .decode)

/-! ## Events -/

variable {cs body : List Char} {values : List Value}

theorem ofTrees?_eq_mapM (trees : List Tree) :
    Value.ofTrees? trees = trees.mapM Json.Decode.value := by
  induction trees with
  | nil => rfl
  | cons tree trees ih =>
      rw [Value.ofTrees?, List.mapM_cons, ih]
      rfl

/-- **When an array is read**: if it is nested no deeper than values are built, its own bracket
included, and every part of it denotes something. -/
theorem exists_arrayText_iff {text : List Char} :
    (∃ values, ArrayText values text) ↔
      ∃ items, Spells (.element (.array items)) text ∧ (Tree.array items).isReadable = true ∧
        (Tree.array items).depth ≤ greatestDepth := by
  have hitems (items : List Tree) :
      (∃ values, (items.map (Tree.cut (greatestDepth - 1))).mapM Json.Decode.value = some values) ↔
        (Tree.array items).isReadable = true ∧ (Tree.array items).depth ≤ greatestDepth := by
    rw [← ofTrees?_eq_mapM, ← Option.isSome_iff_exists, Tree.isSome_ofTrees?_cut_iff]
    exact and_congr_right fun _ => Nat.le_sub_one_iff_lt (by decide)
  constructor
  · rintro ⟨values, items, hspells, hvalues⟩
    exact ⟨items, hspells, (hitems items).mp ⟨values, hvalues⟩⟩
  · rintro ⟨items, hspells, hreadable⟩
    obtain ⟨values, hvalues⟩ := (hitems items).mpr hreadable
    exact ⟨values, items, hspells, hvalues⟩

/-- An array begins with a blank or a bracket. -/
theorem exists_cons_of_spells_array {items : List Tree} {text : List Char}
    (h : Spells (.element (.array items)) text) :
    ∃ c more, text = c :: more ∧ c.isDigit = false ∧ c ≠ '/' := by
  cases h with
  | @element _ before _ behind hbefore hvalue _ =>
      cases before with
      | cons c before =>
          have hblank := hbefore c List.mem_cons_self
          simp only [Json.isLayout, Bool.or_eq_true, beq_iff_eq, Option.some.injEq] at hblank
          refine ⟨c, _, rfl, ?_⟩
          rcases hblank with ((rfl | rfl) | rfl) | rfl <;> decide
      | nil =>
          cases hvalue with
          | leaf hleaf => cases Json.cut_of_leafText hleaf 0
          | emptyArray => exact ⟨'[', _, rfl, by decide⟩
          | array => exact ⟨'[', _, rfl, by decide⟩

/-- Neither the digits of a receipt nor an array name another namespace. -/
theorem head?_ne_of_spells_array {receipt text : List Char} {items : List Tree}
    (hreceipt : ∀ c ∈ receipt, c.isDigit = true) (h : Spells (.element (.array items)) text) :
    (receipt ++ text).head? ≠ some '/' := by
  cases receipt with
  | nil =>
      obtain ⟨c, more, rfl, -, hc⟩ := exists_cons_of_spells_array h
      simpa using hc
  | cons c receipt =>
      have hdigit := hreceipt c List.mem_cons_self
      rintro ⟨⟩
      exact absurd hdigit (by decide)

theorem EventText.head?_ne (h : EventText values body) : body.head? ≠ some '/' := by
  obtain ⟨receipt, text, rfl, hreceipt, items, hspells, -⟩ := h
  exact head?_ne_of_spells_array hreceipt hspells

theorem exists_of_cut_eq_array {tree : Tree} {items : List Tree}
    (h : tree.cut greatestDepth = .array items) :
    ∃ written, tree = .array written ∧ items = written.map (Tree.cut (greatestDepth - 1)) := by
  cases tree with
  | array written => exact ⟨written, rfl, (Tree.array.inj h).symm⟩
  | _ => cases h

/-- The values of the array behind the digits in front. -/
def arguments? (body : List Char) : Option (List Value) :=
  match Tree.ofSymbols? ((body.dropWhile Char.isDigit).map some) with
  | some (.array items) => items.mapM Json.Decode.value
  | _ => none

theorem ofEvent_eq (body : List Char) :
    ofEvent body =
      match arguments? body with
      | none => .error .decode
      | some (.string event :: rest) => .ok (.event ⟨event, rest.headD .null⟩)
      | some _ => malformed "event packet without a name" := by
  rw [ofEvent, arguments?]
  cases Tree.ofSymbols? ((body.dropWhile Char.isDigit).map some) with
  | none => rfl
  | some tree => cases tree <;> rfl

/-- The digits of a receipt are skipped, and the array behind them is read. -/
theorem arguments?_append {receipt text : List Char} {items : List Tree}
    (hreceipt : ∀ c ∈ receipt, c.isDigit = true) (h : Spells (.element (.array items)) text) :
    arguments? (receipt ++ text) =
      (items.map (Tree.cut (greatestDepth - 1))).mapM Json.Decode.value := by
  obtain ⟨c, more, hcons, hc, -⟩ := exists_cons_of_spells_array h
  have hdrop : (receipt ++ text).dropWhile Char.isDigit = text := by
    rw [List.dropWhile_append_of_pos hreceipt, hcons, List.dropWhile_cons_of_neg (by simp [hc])]
  rw [arguments?, hdrop, Tree.ofSymbols?_of_spells h]
  rfl

/-- What is read behind some digits is the array that stands there. -/
theorem arguments?_eq_some_iff : arguments? body = some values ↔ EventText values body := by
  constructor
  · intro h
    rw [arguments?] at h
    split at h
    next items hread =>
      have htext :
          Tree.ofText? (String.ofList (body.dropWhile Char.isDigit)) = some (.array items) := by
        rw [Tree.ofText?, String.toList_ofList, hread]
      obtain ⟨written, hspells, hcut⟩ := Tree.ofText?_eq_some_iff.mp htext
      obtain ⟨items', rfl, rfl⟩ := exists_of_cut_eq_array hcut.symm
      rw [String.toList_ofList] at hspells
      exact ⟨body.takeWhile Char.isDigit, body.dropWhile Char.isDigit,
        (List.takeWhile_append_dropWhile).symm, fun c hc => List.mem_takeWhile_imp hc, items',
        hspells, h⟩
    next => cases h
  · rintro ⟨receipt, text, rfl, hreceipt, items, hspells, hvalues⟩
    rw [arguments?_append hreceipt hspells, hvalues]

theorem arguments?_eq_none_iff : arguments? body = none ↔ ∀ values, ¬EventText values body := by
  rw [Option.eq_none_iff_forall_ne_some]
  exact forall_congr' fun _ => not_congr arguments?_eq_some_iff

/-! ## Packets -/

/-- A slash would name another namespace. -/
theorem ofMessage_of_head?_ne {kind : Char} (h : body.head? ≠ some '/') :
    ofMessage (kind :: body) = ofSocket kind body := by
  cases body with
  | nil => rfl
  | cons c body =>
      rw [ofMessage]
      rintro rest heq
      exact h (by rw [(List.cons.inj heq).1]; rfl)

/-- Each rule is read as it says. -/
theorem ofChars_of_means {incoming : Incoming} (h : Means cs incoming) :
    ofChars cs = .ok incoming := by
  cases h with
  | opened => rfl
  | closed => rfl
  | ping => rfl
  | idle body hkind =>
      simp only [List.mem_cons, List.not_mem_nil, or_false] at hkind
      rcases hkind with rfl | rfl | rfl <;> rfl
  | elsewhere => rfl
  | connected h => exact ofMessage_of_head?_ne h
  | disconnected h => exact ofMessage_of_head?_ne h
  | event h =>
      refine (ofMessage_of_head?_ne h.head?_ne).trans ?_
      rw [ofSocket, ofEvent_eq, arguments?_eq_some_iff.mpr h]
  | refused h => exact ofMessage_of_head?_ne h
  | unused hkind h =>
      refine (ofMessage_of_head?_ne h).trans ?_
      simp only [List.mem_cons, List.not_mem_nil, or_false] at hkind
      rcases hkind with rfl | rfl | rfl <;> rfl

theorem ofSocket_of_not_mem {kind : Char} (hkind : kind ∉ kinds) (body : List Char) :
    ofSocket kind body =
      malformed ("unknown socket packet type '" ++ String.singleton kind ++ "'") := by
  rw [ofSocket]
  all_goals
    rintro rfl
    exact hkind (by decide)

theorem ofChars_of_not_mem {kind : Char} (hkind : kind ∉ kinds) (body : List Char) :
    ofChars (kind :: body) =
      malformed ("unknown engine packet type '" ++ String.singleton kind ++ "'") := by
  simp only [ofChars]
  split
  case h_8 => rfl
  all_goals exact absurd (by decide) hkind

theorem ofChars_of_malformed {message : String} (h : Malformed cs message) :
    ofChars cs = .error (.malformed message) := by
  cases h with
  | empty => rfl
  | engine body hkind => exact ofChars_of_not_mem hkind body
  | bare => rfl
  | @socket kind body hkind h =>
      exact (ofMessage_of_head?_ne h).trans (ofSocket_of_not_mem hkind body)
  | nameless h hname =>
      refine (ofMessage_of_head?_ne h.head?_ne).trans ?_
      rw [ofSocket, ofEvent_eq, arguments?_eq_some_iff.mpr h]
      split
      next heq => cases heq
      next heq => exact absurd (Option.some.inj heq) (hname _ _)
      next => rfl

theorem ofChars_of_isUnreadable (h : IsUnreadable cs) : ofChars cs = .error .decode := by
  obtain ⟨body, rfl, hslash, hnone⟩ := h
  refine (ofMessage_of_head?_ne hslash).trans ?_
  rw [ofSocket, ofEvent_eq, arguments?_eq_none_iff.mpr hnone]

theorem ofChars_of_outcome {result : Except ProtocolError Incoming} (h : Outcome cs result) :
    ofChars cs = result := by
  cases h with
  | packet h => exact ofChars_of_means h
  | malformed h => exact ofChars_of_malformed h
  | unreadable h => exact ofChars_of_isUnreadable h

/-! ## The reader follows the rules -/

theorem outcome_ofEvent (hslash : body.head? ≠ some '/') :
    Outcome ('4' :: '2' :: body) (ofEvent body) := by
  rw [ofEvent_eq]
  split
  next hnone => exact .unreadable ⟨body, rfl, hslash, arguments?_eq_none_iff.mp hnone⟩
  next event rest hsome => exact .packet (.event (arguments?_eq_some_iff.mp hsome))
  next values hname hsome =>
    refine .malformed (.nameless (arguments?_eq_some_iff.mp hsome) ?_)
    rintro name rest rfl
    exact hname name rest rfl

theorem outcome_ofSocket (kind : Char) (hslash : body.head? ≠ some '/') :
    Outcome ('4' :: kind :: body) (ofSocket kind body) := by
  rw [ofSocket.eq_def]
  split
  case h_1 => exact .packet (.connected hslash)
  case h_2 => exact .packet (.disconnected hslash)
  case h_3 => exact outcome_ofEvent hslash
  case h_4 => exact .packet (.unused (by decide) hslash)
  case h_5 => exact .packet (.refused hslash)
  case h_6 => exact .packet (.unused (by decide) hslash)
  case h_7 => exact .packet (.unused (by decide) hslash)
  case h_8 => exact .malformed (.socket (by simp_all [kinds]) hslash)

theorem outcome_ofMessage (body : List Char) : Outcome ('4' :: body) (ofMessage body) := by
  cases body with
  | nil => exact .malformed .bare
  | cons kind body =>
      by_cases hslash : body.head? = some '/'
      · obtain ⟨rest, rfl⟩ := List.head?_eq_some_iff.mp hslash
        exact .packet (.elsewhere kind rest)
      · rw [ofMessage_of_head?_ne hslash]
        exact outcome_ofSocket kind hslash

/-- Whatever the text, the reader follows a rule. -/
theorem outcome_ofChars (cs : List Char) : Outcome cs (ofChars cs) := by
  rw [ofChars.eq_def]
  split
  next => exact .malformed .empty
  next kind body =>
    split
    case h_1 => exact .packet (.opened body)
    case h_2 => exact .packet (.closed body)
    case h_3 => exact .packet (.ping body)
    case h_4 => exact .packet (.idle body (by decide))
    case h_5 => exact outcome_ofMessage body
    case h_6 => exact .packet (.idle body (by decide))
    case h_7 => exact .packet (.idle body (by decide))
    case h_8 => exact .malformed (.engine body (by simp_all [kinds]))

/-- **Reading computes the rules**, and no two of them apply to one text with different outcomes. -/
theorem ofChars_eq_iff {result : Except ProtocolError Incoming} :
    ofChars cs = result ↔ Outcome cs result :=
  ⟨fun h => h ▸ outcome_ofChars cs, ofChars_of_outcome⟩

/-! ## Octets -/

variable {octets : List UInt8}

theorem decode_encode (cs : List Char) : WireFormat.socketIo.decode (encode cs) = ofChars cs := by
  show ofOctets _ = _
  rw [ofOctets, Text.Utf8.decode?_encode]

/-- An event comes to what its array denotes. -/
theorem decode_event {receipt text : List Char} {items : List Tree}
    (hreceipt : ∀ c ∈ receipt, c.isDigit = true) (h : Spells (.element (.array items)) text) :
    WireFormat.socketIo.decode (encode ('4' :: '2' :: (receipt ++ text))) =
      match (items.map (Tree.cut (greatestDepth - 1))).mapM Json.Decode.value with
      | none => .error .decode
      | some (.string event :: rest) => .ok (.event ⟨event, rest.headD .null⟩)
      | some _ => malformed "event packet without a name" := by
  calc WireFormat.socketIo.decode (encode ('4' :: '2' :: (receipt ++ text)))
      = ofMessage ('2' :: (receipt ++ text)) := decode_encode _
    _ = ofEvent (receipt ++ text) := ofMessage_of_head?_ne (head?_ne_of_spells_array hreceipt h)
    _ = _ := by rw [ofEvent_eq, arguments?_append hreceipt h]

/-- An event with a name and a payload comes to what the payload denotes. -/
theorem decode_named_event {receipt text : List Char} {name : String} {payload : Tree}
    (hreceipt : ∀ c ∈ receipt, c.isDigit = true)
    (h : Spells (.element (.array [.string name, payload])) text) :
    WireFormat.socketIo.decode (encode ('4' :: '2' :: (receipt ++ text))) =
      eventOutcome name (payload.cut (greatestDepth - 1)) := by
  have hvalues : ([Tree.string name, payload].map (Tree.cut (greatestDepth - 1))).mapM
      Json.Decode.value =
        (Value.ofTree? (payload.cut (greatestDepth - 1))).map (.string name :: [·]) := by
    simp only [List.map_cons, List.map_nil, List.mapM_cons, List.mapM_nil, Json.Decode.value]
    cases Value.ofTree? (payload.cut (greatestDepth - 1)) <;> rfl
  rw [decode_event hreceipt h, eventOutcome, hvalues]
  cases Value.ofTree? (payload.cut (greatestDepth - 1)) <;> rfl

theorem decode_of_not_text (h : ∀ cs, octets ≠ encode cs) :
    WireFormat.socketIo.decode octets = .error (.malformed "packet is not UTF-8") := by
  have hnone : Text.Utf8.decode? octets = none :=
    Option.eq_none_iff_forall_ne_some.mpr fun cs hcs => h cs (Text.Utf8.decode?_eq_some_iff.mp hcs)
  show ofOctets _ = _
  rw [ofOctets, hnone]
  rfl

/-- Octets that are no text are malformed, and a text comes to what the rules say. -/
theorem decode_eq_iff {result : Except ProtocolError Incoming} :
    WireFormat.socketIo.decode octets = result ↔
      (∀ cs, octets ≠ encode cs) ∧ result = .error (.malformed "packet is not UTF-8") ∨
        ∃ cs, octets = encode cs ∧ Outcome cs result := by
  by_cases htext : ∃ cs, octets = encode cs
  · obtain ⟨cs, rfl⟩ := htext
    rw [decode_encode, ofChars_eq_iff]
    constructor
    · exact fun h => .inr ⟨cs, rfl, h⟩
    · rintro (⟨hnone, -⟩ | ⟨cs', heq, h⟩)
      · exact absurd rfl (hnone cs)
      · obtain rfl := Text.Utf8.encode_injective heq
        exact h
  · have hnone : ∀ cs, octets ≠ encode cs := not_exists.mp htext
    rw [decode_of_not_text hnone]
    simp [hnone, eq_comm]

/-- The handshake waits on behind a packet of another namespace, and the listener listens on. -/
theorem passed_over (kind : Char) (body : List Char) (rest : List Arrival) :
    let packet := Arrival.message (encode ('4' :: kind :: '/' :: body))
    (∀ apiKey fault, Handshake.await .socketIo apiKey fault (packet :: rest) =
        Handshake.await .socketIo apiKey fault rest) ∧
      ∀ faults, Listener.listen .socketIo faults (packet :: rest) =
        Listener.listen .socketIo faults rest := by
  have hdecode : WireFormat.socketIo.decode (encode ('4' :: kind :: '/' :: body)) = .ok .ignored :=
    decode_encode _
  refine ⟨fun apiKey fault => ?_, fun faults => ?_⟩
  · simp only [Handshake.await, Handshake.react, hdecode]
  · exact Listener.listen_silent (by simp [Listener.isSilent, hdecode]) rest

/-- The packets of events, in full: two digits, the digits of a receipt, and an array. -/
theorem decode_eq_event_iff {frame : Frame} :
    WireFormat.socketIo.decode octets = .ok (.event frame) ↔
      ∃ receipt text rest, octets = encode ('4' :: '2' :: (receipt ++ text)) ∧
        (∀ c ∈ receipt, c.isDigit = true) ∧ ArrayText (.string frame.event :: rest) text ∧
        frame.data = rest.headD .null := by
  rw [decode_eq_iff]
  constructor
  · rintro (⟨-, h⟩ | ⟨cs, rfl, h⟩)
    · cases h
    · cases h with
      | packet h =>
          cases h with
          | event h =>
              obtain ⟨receipt, text, rfl, hreceipt, htext⟩ := h
              exact ⟨receipt, text, _, rfl, hreceipt, htext, rfl⟩
  · rintro ⟨receipt, text, rest, rfl, hreceipt, htext, hdata⟩
    obtain ⟨name, data⟩ := frame
    obtain rfl : data = rest.headD .null := hdata
    exact .inr ⟨_, rfl, .packet (.event ⟨receipt, text, rfl, hreceipt, htext⟩)⟩

/-- **Packets are read by their grammar.**  Octets are an event exactly if they are a text of two
digits, any digits of a receipt, and an array whose items all denote something and whose first one
is a string: its name is this string, and its payload the second item, or null.  Whatever the
octets, what they come to is what the rules say, or malformed if they are no text.  And a packet
of another namespace, of whatever kind, changes nothing: the handshake and the listener go on as
if it had not come. -/
theorem decode_follows_rules (octets : List UInt8) :
    (∀ frame : Frame, WireFormat.socketIo.decode octets = .ok (.event frame) ↔
        ∃ receipt text rest, octets = encode ('4' :: '2' :: (receipt ++ text)) ∧
          (∀ c ∈ receipt, c.isDigit = true) ∧ ArrayText (.string frame.event :: rest) text ∧
          frame.data = rest.headD .null) ∧
      (∀ result, WireFormat.socketIo.decode octets = result ↔
        (∀ cs, octets ≠ encode cs) ∧ result = .error (.malformed "packet is not UTF-8") ∨
          ∃ cs, octets = encode cs ∧ Outcome cs result) ∧
      ∀ (kind : Char) (body : List Char) (rest : List Arrival),
        let packet := Arrival.message (encode ('4' :: kind :: '/' :: body))
        (∀ apiKey fault, Handshake.await .socketIo apiKey fault (packet :: rest) =
            Handshake.await .socketIo apiKey fault rest) ∧
          ∀ faults, Listener.listen .socketIo faults (packet :: rest) =
            Listener.listen .socketIo faults rest :=
  ⟨fun _ => decode_eq_event_iff, fun _ => decode_eq_iff, passed_over⟩

/-- The slash comes first, even behind a character of two octets. -/
example : WireFormat.socketIo.decode [0x34, 0xC3, 0xA9, 0x2F, 0x31] = .ok .ignored := rfl

/-! ## Beyond the limits -/

/-- Arrays in arrays, `n + 1` of them. -/
def nested : Nat → Tree
  | 0 => .array []
  | n + 1 => .array [nested n]

/-- The text of nested arrays. -/
def nestedText : Nat → List Char
  | 0 => ['[', ']']
  | n + 1 => '[' :: (nestedText n ++ [']'])

theorem spells_nested (n : Nat) : Spells (.value (nested n)) (nestedText n) := by
  induction n with
  | zero => exact .emptyArray Json.isLayout_nil
  | succ n ih => exact .array (.lastItem ih.bare)

theorem isReadable_nested (n : Nat) : (nested n).isReadable = true := by
  induction n with
  | zero => rfl
  | succ n ih => simp [nested, Tree.isReadable, Tree.areReadable, ih]

theorem depth_nested (n : Nat) : (nested n).depth = n + 1 := by
  induction n with
  | zero => rfl
  | succ n ih => simp [nested, Tree.depth, Tree.greatestItem, ih]

/-- An event named `e` with this payload. -/
def eventText (payload : List Char) : List Char :=
  '[' :: '"' :: 'e' :: '"' :: ',' :: (payload ++ [']'])

theorem spells_eventText {tree : Tree} {payload : List Char} (h : Spells (.element tree) payload) :
    Spells (.element (.array [.string "e", tree])) (eventText payload) := by
  have hname : Spells (.element (.string "e")) (Json.stringText "e") :=
    (Spells.leaf (Json.leafText_stringText "e")).bare
  exact (Spells.array (.nextItem hname (.lastItem h))).bare

theorem decode_eventText {tree : Tree} {payload : List Char} (h : Spells (.element tree) payload) :
    WireFormat.socketIo.decode (encode ('4' :: '2' :: eventText payload)) =
      eventOutcome "e" (tree.cut (greatestDepth - 1)) :=
  decode_named_event (fun _ hc => absurd hc List.not_mem_nil) (spells_eventText h)

/-- **How deep a payload may be**: nested arrays are read as long as they and the array of the event
are not more than are built. -/
theorem nested_payload_is_read_iff (n : Nat) :
    (∃ frame, WireFormat.socketIo.decode (encode ('4' :: '2' :: eventText (nestedText n))) =
        .ok (.event frame)) ↔
      n + 2 ≤ greatestDepth := by
  have hread : (Value.ofTree? ((nested n).cut (greatestDepth - 1))).isSome = true ↔
      n + 2 ≤ greatestDepth := by
    rw [Tree.isSome_ofTree?_cut_iff, depth_nested]
    exact (and_iff_right (isReadable_nested n)).trans (Nat.le_sub_one_iff_lt (by decide))
  rw [← hread, decode_eventText (spells_nested n).bare, eventOutcome]
  cases Value.ofTree? ((nested n).cut (greatestDepth - 1)) <;> simp

/-- A payload that denotes nothing follows the grammar of JSON, and so does the array around it, but
the packet cannot be read. -/
theorem spells_and_not_read {tree : Tree} {payload : List Char} (h : Spells (.element tree) payload)
    (hnone : Value.ofTree? (tree.cut (greatestDepth - 1)) = none) :
    Spells (.element (.array [.string "e", tree])) (eventText payload) ∧
      WireFormat.socketIo.decode (encode ('4' :: '2' :: eventText payload)) = .error .decode := by
  refine ⟨spells_eventText h, ?_⟩
  rw [decode_eventText h, eventOutcome, hnone]

/-- **There are events that are written as events and are not read**: one whose payload is nested
deeper than arrays are built, one with a number that is too large, and one with half a surrogate
pair. -/
theorem not_all_events_are_read :
    (Spells (.element (.array [.string "e", nested 126])) (eventText (nestedText 126)) ∧
      WireFormat.socketIo.decode (encode ('4' :: '2' :: eventText (nestedText 126))) =
        .error .decode) ∧
    (Spells (.element (.array [.string "e", .unreadable])) (eventText "1e999".toList) ∧
      WireFormat.socketIo.decode (encode ('4' :: '2' :: eventText "1e999".toList)) =
        .error .decode) ∧
    (Spells (.element (.array [.string "e", .unreadable])) (eventText "\"\\ud800\"".toList) ∧
      WireFormat.socketIo.decode (encode ('4' :: '2' :: eventText "\"\\ud800\"".toList)) =
        .error .decode) := by
  have hlarge : Json.LeafText .unreadable "1e999".toList := by
    have hone : Json.IsDigits ['1'] := ⟨List.cons_ne_nil _ _, List.all_eq_true.mp rfl⟩
    have hnines : Json.IsDigits ['9', '9', '9'] :=
      ⟨List.cons_ne_nil _ _, List.all_eq_true.mp rfl⟩
    have hnumeral : Json.NumeralText ⟨false, ['1'], [], some (false, ['9', '9', '9'])⟩
        "1e999".toList :=
      .intro hone (by decide) .absent (.present (.inl rfl) .absent hnines)
    have hnone : Json.Numeral.number? ⟨false, ['1'], [], some (false, ['9', '9', '9'])⟩ = none := by
      decide +kernel
    exact Json.leafText_unreadable_iff.mpr (.inl ⟨_, hnumeral, hnone⟩)
  have hhalf : Json.LeafText .unreadable "\"\\ud800\"".toList := by
    have hunit : Json.readUnit? [some 'd', some '8', some '0', some '0'] = some 0xD800 := by decide
    exact Json.leafText_unreadable_iff.mpr (.inr ⟨_, .half hunit (.inl (by decide)) .nil, rfl⟩)
  have hdeep : Value.ofTree? ((nested 126).cut (greatestDepth - 1)) = none := by
    rw [← Option.not_isSome_iff_eq_none, Tree.isSome_ofTree?_cut_iff, depth_nested]
    exact fun h => absurd h.2 (by decide)
  exact ⟨spells_and_not_read (spells_nested 126).bare hdeep,
    spells_and_not_read (Spells.leaf hlarge).bare rfl,
    spells_and_not_read (Spells.leaf hhalf).bare rfl⟩

/-- The two halves of a surrogate pair together are read. -/
example : WireFormat.socketIo.decode
      (encode ('4' :: '2' :: eventText "\"\\ud83d\\ude00\"".toList)) =
    .ok (.event ⟨"e", .string "😀"⟩) := by cbv

end Packet

end DiceTable
